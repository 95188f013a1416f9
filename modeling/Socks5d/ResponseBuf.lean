import Socks5d.Answers
import Socks5d.Listing
import Socks5d.Requests

/-! # What `processMgmtClient` leaves in `response_buf`

`snprintf` cuts what does not fit, and ADD-USER is the only command that shows its argument:
an argument may have more bytes than there are left behind the text. -/

namespace Socks5d
open EventRun

variable {s : Session} {text head body arg : List UInt8} {users : UserTable}

/-- The responses of more than one line. -/
def MgmtCommand.multiline : MgmtCommand → Bool
  | .capa | .stats | .users | .getBuffsize | .getDissectorStatus => true
  | .invalidCmd | .incomplete | .token | .setBuffsize | .setDissectorStatus | .addUser | .quit |
    .invalidArgs => false

/-- A string in `response_buf` that is a response from its status to its end. -/
structure Whole (multiline : Bool) (text : List UInt8) : Prop where
  fits : text.length < mgmtBuffsize
  string : 0 ∉ text
  status : successStatus <+: text ∨ errorStatus <+: text
  ends : (if multiline then eom else eol) <:+ text

instance {multiline : Bool} : Decidable (Whole multiline text) :=
  decidable_of_iff
    (text.length < mgmtBuffsize ∧ 0 ∉ text ∧ (successStatus <+: text ∨ errorStatus <+: text) ∧
      (if multiline then eom else eol) <:+ text)
    ⟨fun h => ⟨h.1, h.2.1, h.2.2.1, h.2.2.2⟩, fun h => ⟨h.fits, h.string, h.status, h.ends⟩⟩

def Act.Whole (a : Act) : Prop := Socks5d.Whole a.cmd.multiline a.response

/-- ADD-USER shows the name of its argument, and this one does not fit behind the text of
the error. -/
def Act.LongName (a : Act) : Prop := a.cmd = .addUser ∧ ∃ arg ∈ a.arg, 2022 < (namePart arg).length

/-! ## Texts -/

theorem snprintf_response (arg : Option (List UInt8)) (h : text.length < mgmtBuffsize) :
    (snprintf s arg text).response = text := List.take_of_length_le (Nat.le_sub_one_of_lt h)

theorem whole_of_parts (multiline : Bool) (hstatus : successStatus <+: head ∨ errorStatus <+: head)
    (hlen : head.length + body.length + (if multiline then 5 else 2) < mgmtBuffsize)
    (hhead : 0 ∉ head) (hbody : 0 ∉ body) :
    Whole multiline (head ++ body ++ if multiline then eom else eol) := by
  have hend : 0 ∉ (if multiline then eom else eol) ∧
      (if multiline then eom else eol).length = if multiline then 5
        else 2 := by cases multiline <;> decide
  refine ⟨?_, ?_, ?_, List.suffix_append _ _⟩
  · rw [List.length_append, List.length_append, hend.2]
    exact hlen
  · rw [List.mem_append, List.mem_append]
    exact not_or.mpr ⟨not_or.mpr ⟨hhead, hbody⟩, hend.1⟩
  · rw [List.append_assoc]
    exact hstatus.imp (fun h => h.trans (List.prefix_append _ _)) fun h =>
      h.trans (List.prefix_append _ _)

theorem valueText_whole (hlen : body.length ≤ 20) (h0 : 0 ∉ body) :
    Whole true (valueText body) := by
  have hhead : 0 ∉ single successStatus " " ∧ (single successStatus " ").length = 6 ∧
      successStatus <+: single successStatus " " := by decide
  have hfits : (single successStatus " ").length + body.length + 5 < mgmtBuffsize := by
    rw [hhead.2.1]
    change _ < 2048
    omega
  have heq : valueText body = single successStatus " " ++ body ++ if true then eom else eol := by
    simp only [valueText, eom, eol, lineDelimiter, multilineDelimiter, List.append_assoc, if_true]
  rw [heq]
  exact whole_of_parts true (.inl hhead.2.2) hfits hhead.1 h0

theorem decimal_length_of_lt {n : ℕ} (h : n < 2 ^ 64) : (decimal n).length ≤ 20 :=
  decimal_length_le (by decide) (Nat.lt_of_lt_of_le h (by decide))

theorem statsText_whole (w : World) : Whole true (statsText w) := by
  generalize hbytes : decimal w.transferredBytes.toNat = b
  generalize hall : decimal w.allConnections.toNat = h
  generalize hnow : decimal (w.proxyClientCount + w.mgmtClientCount).toNat = c
  have hb : b.length ≤ 20 ∧ 0 ∉ b := by
    rw [← hbytes]
    exact ⟨decimal_length_of_lt w.transferredBytes.toNat_lt, decimal_no_zero _⟩
  have hh : h.length ≤ 20 ∧ 0 ∉ h := by
    rw [← hall]
    exact ⟨decimal_length_of_lt w.allConnections.toNat_lt, decimal_no_zero _⟩
  have hc : c.length ≤ 20 ∧ 0 ∉ c := by
    rw [← hnow]
    have hlt := (w.proxyClientCount + w.mgmtClientCount).toNat_lt
    exact ⟨decimal_length_of_lt (by omega), decimal_no_zero _⟩
  let first :=
    single successStatus " Showing stats (B)yte (H)istorical connections (C)urrent connections..."
  have hfirst : 0 ∉ first ∧ first.length ≤ 100 ∧ successStatus <+: first := by decide +kernel
  -- three numbers, of at most 20 digits each
  let figures := asc "B" ++ b ++ lineDelimiter ++ asc "H" ++ h ++ lineDelimiter ++ asc "C" ++ c
  have hlength : figures.length ≤ 67 := by
    have hletters : (asc "B").length = 1 ∧ (asc "H").length = 1 ∧ (asc "C").length = 1 ∧
        lineDelimiter.length = 2 := by
      decide
    simp only [figures, List.length_append, hletters]
    omega
  have hzero : 0 ∉ figures := by
    have hletters : 0 ∉ asc "B" ∧ 0 ∉ asc "H" ∧ 0 ∉ asc "C" ∧ 0 ∉ lineDelimiter := by decide
    simp [figures, hletters, hb.2, hh.2, hc.2]
  have heq : statsText w = first ++ figures ++ if true then eom else eol := by
    simp only [statsText, hbytes, hall, hnow, first, figures, eom, eol, lineDelimiter,
      multilineDelimiter, List.append_assoc, if_true]
  have hfits : first.length + figures.length + 5 < mgmtBuffsize := by
    change _ < 2048
    omega
  rw [heq]
  exact whole_of_parts true (.inl hfirst.2.2) hfits hfirst.1 hzero

theorem addUserText_whole (hlen : body.length < maxUserLen) (h0 : 0 ∉ body) :
    Whole false (addUserText body) := by
  have hhead : 0 ∉ successStatus ++ asc " Added user " ∧
      (successStatus ++ asc " Added user ").length = 15 := by decide
  have hfits : (successStatus ++ asc " Added user ").length + body.length + 2 < mgmtBuffsize := by
    rw [hhead.2]
    change body.length < 10 at hlen
    change _ < 2048
    omega
  exact whole_of_parts false (.inl (List.prefix_append _ _)) hfits hhead.1 h0

theorem addUserError_whole (hlen : body.length ≤ 2022) (h0 : 0 ∉ body) :
    Whole false (addUserError body) := by
  have hhead : 0 ∉ errorStatus ++ asc " Error adding user " ∧
      (errorStatus ++ asc " Error adding user ").length = 23 := by decide
  have hfits : (errorStatus ++ asc " Error adding user ").length + body.length + 2 <
      mgmtBuffsize := by
    rw [hhead.2]
    change _ < 2048
    omega
  exact whole_of_parts false (.inr (List.prefix_append _ _)) hfits hhead.1 h0

/-- An error that is cut has lost its line feed. -/
theorem addUserError_cut (hlen : 2022 < body.length) (hfeed : 0xa ∉ body) :
    0xa ∉ (addUserError body).take (mgmtBuffsize - 1) := by
  have hhead : 0xa ∉ errorStatus ++ asc " Error adding user " ∧
      (errorStatus ++ asc " Error adding user ").length = 23 := by decide
  have hsplit : addUserError body =
      errorStatus ++ asc " Error adding user " ++ body ++ [0xd] ++ [0xa] := by
    rw [addUserError, List.append_assoc _ [0xd]]
    rfl
  have hcut : (addUserError body).take (mgmtBuffsize - 1) =
      (errorStatus ++ asc " Error adding user " ++ body ++ [0xd]).take 2047 := by
    have hlong : 2047 ≤ (errorStatus ++ asc " Error adding user " ++ body ++ [0xd]).length := by
      rw [List.length_append, List.length_append, hhead.2, List.length_singleton]
      omega
    rw [hsplit]
    exact List.take_append_of_le_length hlong
  intro hmem
  rw [hcut] at hmem
  have hin := List.mem_of_mem_take hmem
  rw [List.mem_append, List.mem_append, List.mem_singleton] at hin
  rcases hin with (hin | hin) | hin
  · exact hhead.1 hin
  · exact hfeed hin
  · exact absurd hin (by decide)

theorem WellKept.bounded (h : WellKept users) : Bounded users :=
  ⟨h.count, fun u hu => (checkValid_iff.mp (h.name u hu)).1⟩

theorem usersText_whole (h : WellKept users) : Whole true (usersText users) := by
  have hends : 0 ∉ usersHead ∧ 0 ∉ lineDelimiter ∧ 0 ∉ asc ".\r\n" := by decide
  refine ⟨usersText_length h.bounded, ?_, .inl ?_, usersText_ends⟩
  · intro h0
    rw [usersText, List.mem_append, List.mem_append] at h0
    rcases h0 with (h0 | h0) | h0
    · exact hends.1 h0
    · obtain ⟨line, hline, hzero⟩ := List.mem_flatten.mp h0
      obtain ⟨u, hu, rfl⟩ := List.mem_map.mp hline
      rcases List.mem_append.mp hzero with hzero | hzero
      · exact checkValid_nonzero (h.name u hu) hzero
      · exact hends.2.1 hzero
    · exact hends.2.2 h0
  · rw [usersText, usersHead, List.append_assoc, List.append_assoc]
    exact List.prefix_append _ _

/-! ## Commands -/

/-- A response is whole, unless a name was too long; what is then left has no end. -/
def Act.Judged (a : Act) : Prop :=
  (¬ a.LongName → a.Whole) ∧ (a.LongName → (∀ arg ∈ a.arg, 0xa ∉ arg) → ¬ a.Whole)

theorem judged_of_whole {a : Act} (hcmd : a.cmd ≠ .addUser) (h : a.Whole) : a.Judged :=
  ⟨fun _ => h, fun hlong => absurd hlong.1 hcmd⟩

/-- A name that is accepted is short. -/
theorem addUser_short {userpass : List UInt8} (h : (addUser users userpass).1 = true) :
    (namePart userpass).length < maxUserLen := by
  rcases addUser_cases users userpass with ⟨hno, -⟩ | ⟨before, after, rfl, hcolon, hok, -, -⟩
  · rw [hno] at h
    cases h
  · rw [namePart, (takeWhile_colon hcolon after).1]
    exact (checkValid_iff.mp hok.name).1

theorem executeAddUser_judged (args arge : ℕ) (s : Session) :
    (Act.mk .addUser (executeAddUser args arge s).arg
      (executeAddUser args arge s).response).Judged := by
  unfold executeAddUser
  dsimp only
  generalize harg : (s.terminate arge).c.input.argText args = arg
  have h0 : 0 ∉ namePart arg := by
    intro hzero
    have hmem := (List.takeWhile_sublist _).mem hzero
    rw [← harg] at hmem
    exact cString_no_zero _ hmem
  rw [addUser_left, ← namePart]
  by_cases hadd : (addUser (s.terminate arge).server.w.users arg).1 = true
  · rw [if_pos hadd]
    have hshort := addUser_short hadd
    have hwhole := addUserText_whole hshort h0
    refine ⟨fun _ => ?_, fun hlong => ?_⟩
    · rw [Act.Whole, snprintf_response _ hwhole.fits]
      exact hwhole
    · obtain ⟨-, arg', harg', hlen⟩ := hlong
      rw [← Option.some.inj harg'] at hlen
      change _ < 10 at hshort
      omega
  · rw [if_neg hadd]
    -- the error shows a name of any length
    refine ⟨fun hno => ?_, fun hlong hfeed hwhole => ?_⟩
    · have hlen : (namePart arg).length ≤ 2022 :=
        Nat.le_of_not_lt fun hlt => hno ⟨rfl, arg, rfl, hlt⟩
      have hwhole := addUserError_whole hlen h0
      rw [Act.Whole, snprintf_response _ hwhole.fits]
      exact hwhole
    · obtain ⟨-, arg', harg', hlen⟩ := hlong
      rw [← Option.some.inj harg'] at hlen
      have hno : 0xa ∉ namePart arg :=
        fun hmem => hfeed arg rfl ((List.takeWhile_sublist _).mem hmem)
      have hend : eol <:+ _ := hwhole.ends
      exact addUserError_cut hlen hno (hend.mem (by decide))

/-- Every command but `incomplete` leaves a response that is judged so. -/
theorem execute_judged {cmd : MgmtCommand} (hcmd : cmd ≠ .incomplete) (arg : Option (ℕ × ℕ))
    (husers : WellKept s.server.w.users) (hsize : s.server.w.buffsize < maxSocksBuffsize) :
    (Act.mk cmd (execute cmd arg s).arg (execute cmd arg s).response).Judged := by
  have hsnprintf :
      ∀ {t : Session} {cmd : MgmtCommand} {arg arg' : Option (List UInt8)} {text : List UInt8},
      cmd ≠ .addUser → Whole cmd.multiline text →
        (Act.mk cmd arg (snprintf t arg' text).response).Judged := by
    intro t cmd arg arg' text hne hwhole
    refine judged_of_whole hne ?_
    rw [Act.Whole, snprintf_response arg' hwhole.fits]
    exact hwhole
  unfold execute
  -- ADD-USER apart, a text is a constant, a number in a constant, or the listing
  cases cmd with
  | incomplete => exact absurd rfl hcmd
  | invalidCmd => exact hsnprintf (by decide) (by decide +kernel)
  | invalidArgs => exact hsnprintf (by decide) (by decide +kernel)
  | capa => exact hsnprintf (by decide) (by decide +kernel)
  | quit => exact hsnprintf (by decide) (by decide +kernel)
  | stats => exact hsnprintf (by decide) (statsText_whole _)
  | users =>
    have hne : MgmtCommand.users ≠ .addUser := by decide
    exact judged_of_whole hne (usersText_whole husers)
  | getBuffsize =>
    have hlt : s.server.w.buffsize < 2 ^ 64 := Nat.lt_trans hsize (by decide)
    exact hsnprintf (by decide) (valueText_whole (decimal_length_of_lt hlt) (decimal_no_zero _))
  | getDissectorStatus =>
    dsimp only
    split_ifs
    · exact hsnprintf (by decide) (valueText_whole (by decide) (by decide))
    · exact hsnprintf (by decide) (valueText_whole (by decide) (by decide))
  | token =>
    dsimp only [executeToken]
    split_ifs
    · exact hsnprintf (by decide) (by decide +kernel)
    · exact hsnprintf (by decide) (by decide +kernel)
  | setBuffsize =>
    dsimp only [executeSetBuffsize]
    split_ifs
    · exact hsnprintf (by decide) (by decide +kernel)
    · exact hsnprintf (by decide) (by decide +kernel)
  | setDissectorStatus =>
    dsimp only [executeSetDissector]
    split_ifs
    · exact hsnprintf (by decide) (by decide +kernel)
    · exact hsnprintf (by decide) (by decide +kernel)
    · exact hsnprintf (by decide) (by decide +kernel)
  | addUser => exact executeAddUser_judged _ _ s

/-! ## Sessions -/

/-- A server whose settings are as the commands leave them. -/
structure Kempt (sv : Server) : Prop where
  inv : Inv sv
  users : WellKept sv.w.users
  size : sv.w.buffsize < maxSocksBuffsize

theorem Kempt.move {sv sv' : Server} (h : Kempt sv) (hm : Move anyWrite sv sv')
    (hsize : sv'.w.buffsize < maxSocksBuffsize) : Kempt sv' := by
  obtain ⟨userpasses, husers⟩ := h.inv.move_users hm
  refine ⟨h.inv.move hm, ?_, hsize⟩
  rw [husers]
  exact addUsers_wellKept h.users userpasses

theorem Kempt.step {sv : Server} (h : Kempt sv) (ev : Event) : Kempt (step sv ev) := by
  obtain ⟨sv', hm, hm'⟩ := step_moves h.inv ev (along_anyWrite sv [ev]).1
  have hinv := h.inv.move hm
  obtain ⟨us, hus⟩ := h.inv.move_users hm
  obtain ⟨us', hus'⟩ := hinv.move_users hm'
  refine ⟨hinv.move hm', ?_, h.inv.step_buffsize ev h.size⟩
  rw [hus', hus]
  exact addUsers_wellKept (addUsers_wellKept h.users us) us'

theorem boot_kempt (userpasses : List (List UInt8)) (masters monitors : List ℤ) (evs : List Event) :
    Kempt (exec step (boot (addUsers [] userpasses) masters monitors) evs) := by
  refine exec_invariant ⟨boot_inv _ _ _, ?_, ?_⟩ fun _ ev h => h.step ev
  · exact addUsers_wellKept UserArray.empty_holds.kept userpasses
  · change 2048 < 10241
    decide

theorem execute_buffsize (cmd : MgmtCommand) (arg : Option (ℕ × ℕ))
    (h : s.server.w.buffsize < maxSocksBuffsize) :
    (execute cmd arg s).s.server.w.buffsize < maxSocksBuffsize := by
  unfold execute
  cases cmd with
  | setBuffsize =>
    dsimp only [executeSetBuffsize]
    split_ifs with hfit
    · exact hfit.2
    · exact h
  | token =>
    dsimp only [executeToken]
    split_ifs
    · exact h
    · exact h
  | setDissectorStatus =>
    dsimp only [executeSetDissector]
    split_ifs
    · exact h
    · exact h
    · exact h
  | addUser =>
    dsimp only [executeAddUser]
    split_ifs
    all_goals exact h
  | _ => exact h

structure Prepared (s : Session) : Prop where
  server : Kempt s.server
  judged : ∀ a ∈ acts s.log, a.Judged

theorem Prepared.turn (h : Prepared s) : Prepared (turn s).1 := by
  have hcases := turn_cases (s := s) rfl rfl
  generalize parseMgmtRequest s.c.input = p at hcases
  have hserver : Kempt (execute p.cmd p.arg (s.setInput p.input)).s.server :=
    h.server.move (execute_move p.cmd p.arg (s.setInput p.input))
      (execute_buffsize p.cmd p.arg h.server.size)
  have hlog := (execute_executes p.cmd p.arg (s.setInput p.input)).log_eq
  have hacts : p.cmd ≠ .incomplete → ∀ a ∈ acts ((execute p.cmd p.arg (s.setInput p.input)).s.log ++
      [.acted ⟨p.cmd, (execute p.cmd p.arg (s.setInput p.input)).arg,
        (execute p.cmd p.arg (s.setInput p.input)).response⟩]), a.Judged := by
    intro hcmd a ha
    rw [hlog, acts_append, acts_acted, List.mem_append, List.mem_singleton] at ha
    rcases ha with ha | rfl
    · exact h.judged a ha
    · exact execute_judged hcmd p.arg h.server.users h.server.size
  rcases hcases with ⟨-, ht⟩ | ⟨hcmd, -, ht⟩ | ⟨hcmd, -, ht⟩
  · rw [ht]
    exact ⟨h.server, h.judged⟩
  · rw [ht]
    exact ⟨hserver, hacts hcmd⟩
  · rw [ht]
    exact ⟨hserver, hacts hcmd⟩

theorem Prepared.process (h : Prepared s) : Prepared (processMgmtClient s) :=
  processLoop_rule (P := Prepared) (fun _ hP => hP)
    (fun _ hs => ⟨fun _ => hs.turn, fun _ => hs.turn⟩) h

/-- Input and output. -/
theorem Prepared.same {t : Session} (h : Prepared s) (hu : Undisturbed s t) (hinv : Inv t.server) :
    Prepared t := by
  refine ⟨⟨hinv, ?_, ?_⟩, ?_⟩
  · rw [hu.settings.users_eq]
    exact h.server.users
  · rw [hu.settings.buffsize_eq]
    exact h.server.size
  · rw [hu.acts_eq]
    exact h.judged

theorem Prepared.unregister (h : Prepared s) : Prepared s.unregister := by
  have hmove : Move anyWrite s.server s.unregister.server := mgmtClose_move _ _
  exact h.same (.unregister s) (h.server.inv.move hmove)

theorem Prepared.sendOut (h : Prepared s) (r : SendResult) : Prepared (sendOut r s) := by
  have hsend : Prepared (afterSend r s) :=
    ⟨h.server, fun a ha => h.judged a (by simpa [afterSend] using ha)⟩
  rcases sendOut_cases r s with heq | ⟨heq, -⟩
  · rw [heq]
    exact hsend
  · rw [heq]
    exact hsend.unregister

theorem Prepared.step (h : Prepared s) (ev : MgmtEvent) : Prepared (sessionStep s ev) := by
  cases ev with
  | read r =>
    have hfilled : Prepared (filled r s) := h.same (.filled s r) h.server.inv
    rcases read_cases r s with heq | ⟨-, -, ⟨-, heq⟩ | ⟨-, -, heq⟩⟩
    · rw [heq]
      exact h
    · rw [heq]
      exact hfilled.unregister
    · rw [heq]
      exact ⟨hfilled.process.server, hfilled.process.judged⟩
  | write r =>
    rcases write_cases r s with heq | heq | ⟨-, -, heq, ⟨hsame, -⟩ | ⟨hfit, -, hproc⟩⟩
    · rw [heq]
      exact h
    · rw [heq]
      exact ⟨h.server, h.judged⟩
    · rw [heq, hsame]
      exact h.sendOut r
    · rw [heq, hproc]
      exact (h.same (.copied s hfit) h.server.inv).process.sendOut r
  | server e => exact ⟨h.server.step e, h.judged⟩

/-- Every response is whole but the ones to ADD-USER whose name has more than 2022 bytes,
and these are not. -/
theorem prepared_responses_whole (userpasses : List (List UInt8)) (masters monitors : List ℤ)
    (before : List Event)
    (tokens : List (List UInt8)) (sock : ℤ) (raw : RawMgmt) (evs : List MgmtEvent) :
    let s := exec sessionStep (openSession
      (exec step (boot (addUsers [] userpasses) masters monitors) before) tokens sock raw) evs
    ∀ a ∈ acts s.log, (¬ a.LongName → a.Whole) ∧
    (a.LongName → (∀ arg ∈ a.arg, 0xa ∉ arg) → ¬ a.Whole) := by
  intro s
  have hs : Prepared s := exec_invariant (P := Prepared)
    ⟨boot_kempt userpasses masters monitors before, fun a ha => absurd ha List.not_mem_nil⟩
    fun _ ev h => h.step ev
  exact hs.judged

/-- A name that is added, and shown from end to end. -/
theorem add_user_is_answered :
    let s := exec sessionStep (openSession
      (exec step (boot (addUsers [] []) [] []) []) [asc "secret"] 3 blankRaw)
      [.read (.data (asc "TOKEN secret\r\n")), .read (.data (asc "ADD-USER ada:pw\r\n"))]
    let a : Act := ⟨.addUser, some (asc "ada:pw"), addUserText (asc "ada")⟩
    a ∈ acts s.log ∧ a.Whole := by
  intro s a
  have ha : a ∈ acts s.log := by decide +kernel
  have hshort : ¬ a.LongName := by
    rintro ⟨-, arg, harg, hlong⟩
    rw [← Option.some.inj harg] at hlong
    revert hlong
    decide +kernel
  exact ⟨ha, (prepared_responses_whole [] [] [] [] [asc "secret"] 3 blankRaw _ a ha).1 hshort⟩

/-! ## A line that is answered with a cut response -/

theorem turn_addUser {t : MgmtToken} (hs : s.c.input.Sound) (hr : s.c.input.Resumable)
    (hnew : s.c.input.state = none ∨ s.c.input.cur < s.c.input.lim)
    (ht : nextToken s.c.input.cond s.c.input.text = some t)
    (hpair : t.pair s.c.input.text = (.addUser, some arg)) :
    ∃ a ∈ acts (turn s).1.log, a.cmd = .addUser ∧ a.arg = some arg ∧ a.Judged := by
  have hp := parseMgmtRequest_token hs hr hnew ht
  have hx := (execute_token hs (nextToken_isToken ht)).1
  rw [hpair] at hx
  have hcmd : t.cmd = .addUser := congrArg Prod.fst hpair
  have harg := congrArg Prod.snd hx
  rw [hcmd] at hp harg
  dsimp only at harg
  generalize hres : execute .addUser (t.arg.map (moveArg s.c.input.tok))
    (s.setInput (s.c.input.skip t.len)) = r at harg
  have hjudged : (Act.mk .addUser r.arg r.response).Judged := by
    rw [← hres]
    exact executeAddUser_judged _ _ _
  refine ⟨⟨.addUser, r.arg, r.response⟩, ?_, rfl, harg, hjudged⟩
  rcases turn_cases hp hres with ⟨hinc, -⟩ | ⟨-, -, hturn⟩ | ⟨-, -, hturn⟩
  · cases hinc
  · rw [hturn]
    simp
  · rw [hturn]
    simp

theorem turn_keeps {a : Act} (h : a ∈ acts s.log) : a ∈ acts (turn s).1.log := by
  have hcases := turn_cases (s := s) rfl rfl
  generalize parseMgmtRequest s.c.input = p at hcases
  have hlog := (execute_executes p.cmd p.arg (s.setInput p.input)).log_eq
  rcases hcases with ⟨-, hturn⟩ | ⟨-, -, hturn⟩ | ⟨-, -, hturn⟩
  · rw [hturn]
    exact h
  · rw [hturn]
    simp [hlog, h]
  · rw [hturn]
    simp [hlog, h]

/-- What the first turn has done stays done. -/
theorem process_keeps {a : Act} (h : a ∈ acts (turn s).1.log) :
    a ∈ acts (processMgmtClient s).log :=
  processMgmtClient_rule (P := fun s => a ∈ acts s.log) (C := fun _ => True) (fun _ h => h)
    (fun _ _ hs => ⟨fun _ => turn_keeps hs, fun _ => turn_keeps hs⟩) turnsMeet_true
    fun _ => ⟨fun _ => h, fun _ => h⟩

/-- A line that comes into an empty buffer is answered. -/
theorem read_addUser {tokens : List (List UInt8)} (hs : Segmented tokens s)
    (hcut : ¬ s.c.input.cutsArgument) (hidle : s.idle = false) (hinterest : s.interest.read = true)
    (hpending : bufferCanRead s.c.pendingBuf = false) (hcond : s.c.input.cond = .trns)
    (htext : s.c.input.text = []) (hne : arg ≠ [])
    (harg : ∀ b ∈ arg, isArg b = true) (hfree : 9 + (arg.length + 2) ≤ s.c.input.free) :
    ∃ a ∈ acts (sessionStep s (.read (.data (asc "ADD-USER " ++ (arg ++ [0xd, 0xa]))))).log,
      a.cmd = .addUser ∧ a.arg = some arg ∧ a.Judged := by
  generalize hr : ReadResult.data (asc "ADD-USER " ++ (arg ++ [0xd, 0xa])) = r
  have hbytes : r.bytes s.c.input.free = asc "ADD-USER " ++ (arg ++ [0xd, 0xa]) := by
    have hlen : (asc "ADD-USER " ++ (arg ++ [0xd, 0xa])).length = 9 + (arg.length + 2) := by
      rw [List.length_append, List.length_append]
      rfl
    rw [← hr]
    exact List.take_of_length_le (hlen ▸ hfree)
  have hsome : r.bytes s.c.input.free ≠ [] := by
    rw [hbytes]
    exact List.cons_ne_nil _ _
  have hopen : checkEOF (fillBuffer s.c.input r).2 r.isAgain ≠ true := by
    refine mt (checkEOF_fillBuffer ?_).mp hsome
    rw [← hr]
    exact fun hf => by cases hf
  have hread : sessionStep s (.read r) =
      { processMgmtClient (filled r s) with interest := opWrite ||| opRead } := by
    rw [sessionStep, hidle, hinterest, if_neg (by decide), handleMgmtRead, hpending,
      if_neg (by decide)]
    dsimp only
    rw [if_neg hopen]
    rfl
  rw [hread]
  have hf : Segmented tokens (filled r s) := hs.fill r hcut
  -- the line is all there is in the buffer
  have hfilled : (filled r s).c.input.text = asc "ADD-USER " ++ (arg ++ [0xd, 0xa]) := by
    refine (fillBuffer_text hs.sound r).trans ?_
    rw [htext, hbytes, List.nil_append]
  have hnew : (filled r s).c.input.cur < (filled r s).c.input.lim := by
    have hpos := List.length_pos_iff.mpr hsome
    have h1 := hs.sound.tok_le
    have h2 := hs.sound.cur_le
    change s.c.input.cur - s.c.input.tok < s.c.input.lim - s.c.input.tok +
      (r.bytes s.c.input.free).length
    omega
  have htrns : (filled r s).c.input.cond = .trns := hcond
  have ht : nextToken .trns (asc "ADD-USER " ++ (arg ++ [0xd, 0xa])) =
      some ⟨.addUser, some (9, 9 + arg.length), 9 + arg.length + 2⟩ :=
        nextToken_argument [] rfl hne harg
  have hpair : (⟨.addUser, some (9, 9 + arg.length), 9 + arg.length + 2⟩ : MgmtToken).pair
      (filled r s).c.input.text = (.addUser, some arg) := by
    have hdrop : (asc "ADD-USER " ++ (arg ++ [0xd, 0xa])).drop 9 = arg ++ [0xd, 0xa] := rfl
    simp [MgmtToken.pair, hfilled, hdrop]
  rw [← hfilled, ← htrns] at ht
  obtain ⟨a, ha, hact⟩ := turn_addUser hf.sound hf.resumable (.inr hnew) ht hpair
  exact ⟨a, process_keeps ha, hact⟩

/-- A name of 2023 bytes, without a password, is answered with a line that has no end. -/
theorem name_of_2023_bytes_is_cut :
    let s := exec sessionStep (openSession
      (exec step (boot (addUsers [] []) [] []) []) [asc "secret"] 3 blankRaw)
      [.read (.data (asc "TOKEN secret\r\n")),
        .read (.data (asc "ADD-USER " ++ (List.replicate 2023 0x61 ++ [0xd, 0xa])))]
    ∃ a ∈ acts s.log, a.cmd = .addUser ∧ a.arg = some (List.replicate 2023 0x61) ∧ ¬ a.Whole := by
  generalize hname : List.replicate 2023 (0x61 : UInt8) = name
  have hbyte : ∀ b ∈ name, b = 0x61 := by
    rw [← hname]
    exact fun _ hb => List.eq_of_mem_replicate hb
  have hlen : name.length = 2023 := by
    rw [← hname]
    exact List.length_replicate
  let s₀ := openSession (exec step (boot (addUsers [] []) [] []) []) [asc "secret"] 3 blankRaw
  let s₁ := sessionStep s₀ (.read (.data (asc "TOKEN secret\r\n")))
  have hs : Segmented [asc "secret"] s₁ := by
    refine (Segmented.step (openSession_segmented _ _ _ _) fun r hr => ⟨?_, ?_⟩).1
    · cases hr
      exact fun hf => by cases hf
    · unfold Input.cutsArgument
      decide +kernel
  have hcut : ¬ s₁.c.input.cutsArgument := by
    unfold Input.cutsArgument
    decide +kernel
  -- the login has left the buffer empty
  have hquiet : s₁.idle = false ∧ s₁.interest.read = true ∧ bufferCanRead s₁.c.pendingBuf = false ∧
      s₁.c.input.cond = .trns ∧ s₁.c.input.text = [] ∧
        9 + (2023 + 2) ≤ s₁.c.input.free := by decide +kernel
  obtain ⟨hidle, hinterest, hpending, hcond, htext, hfree⟩ := hquiet
  have hread :
      ∃ a ∈ acts (sessionStep s₁ (.read (.data (asc "ADD-USER " ++ (name ++ [0xd, 0xa]))))).log,
      a.cmd = .addUser ∧ a.arg = some name ∧ a.Judged := by
    refine read_addUser hs hcut hidle hinterest hpending hcond htext ?_ ?_ ?_
    · refine List.ne_nil_of_length_pos ?_
      rw [hlen]
      decide
    · intro b hb
      rw [hbyte b hb]
      decide
    · rw [hlen]
      exact hfree
  obtain ⟨a, ha, hcmd, harg, hjudged⟩ := hread
  dsimp only
  rw [exec_cons, exec_cons, exec_nil]
  refine ⟨a, ha, hcmd, harg, hjudged.2 ⟨hcmd, name, harg, ?_⟩ ?_⟩
  · have hshown : namePart name = name := by
      refine List.takeWhile_eq_self_iff.mpr fun b hb => ?_
      rw [hbyte b hb]
      decide
    rw [hshown, hlen]
    decide
  · intro arg' harg' hfeed
    rw [harg, Option.mem_some_iff] at harg'
    rw [← harg'] at hfeed
    exact absurd (hbyte _ hfeed) (by decide)

end Socks5d
