import Mathlib.Data.List.Induction
import Socks5d.Lib.Run
import Socks5d.Pop3Sniffer
import Socks5d.Mgmt

/-! # What the POP3 sniffer captures

The parser inside a line that it has begun afresh is determined by the bytes of that line. At
the end of the line `unknown_cmd` leaves both cursors where they are, so the next line begins
afresh only if this one matched nothing of the keyword or was recognised. -/

namespace Socks5d
open Memory EventRun

def lineFeed : UInt8 := 0x0a
def carriageReturn : UInt8 := 0x0d

/-! ## The two commands

`user` is true for the command `USER` and false for `PASS`. -/

section
variable (user : Bool)

def popKeyword : List UInt8 := if user then pop3UserStr else pop3PassStr

def cmdState : PopState := if user then .userCmd else .passCmd

def fillState : PopState := if user then .fillUser else .fillPass

def Pop3Parser.field (p : Pop3Parser) : ℕ → UInt8 := if user then p.user else p.pass

end

/-- The number of characters of `line` that match the keyword, up to the first that does not. -/
def matched : List UInt8 → List UInt8 → ℕ
  | k :: keyword, c :: line => if tolower c = tolower k then matched keyword line + 1 else 0
  | _, _ => 0

variable {user : Bool} {keyword line more : List UInt8} {c : UInt8} {p : Pop3Parser} {u : ℕ → UInt8}

theorem matched_le (keyword line : List UInt8) : matched keyword line ≤ keyword.length ∧
    matched keyword line ≤ line.length := by
  induction keyword generalizing line with
  | nil => cases line <;> exact ⟨Nat.zero_le _, Nat.zero_le _⟩
  | cons k keyword ih =>
    cases line with
    | nil => exact ⟨Nat.zero_le _, Nat.zero_le _⟩
    | cons c line =>
      rw [matched]
      split_ifs
      · exact ⟨Nat.succ_le_succ (ih line).1, Nat.succ_le_succ (ih line).2⟩
      · exact ⟨Nat.zero_le _, Nat.zero_le _⟩

/-- What follows a character that does not match, or the whole keyword, does not matter. -/
theorem matched_append
    (h : matched keyword line < line.length ∨ matched keyword line = keyword.length)
    (more : List UInt8) : matched keyword (line ++ more) = matched keyword line := by
  induction keyword generalizing line with
  | nil => cases line <;> cases more <;> rfl
  | cons k keyword ih =>
    cases line with
    | nil =>
      rcases h with h | h
      · exact absurd h (Nat.not_lt_zero _)
      · cases h
    | cons c line =>
      rw [List.cons_append, matched, matched]
      rw [matched] at h
      split_ifs at h ⊢ with hc
      · rw [ih]
        exact h.imp Nat.lt_of_succ_lt_succ Nat.succ.inj
      · rfl

theorem matched_concat (h : matched keyword line = line.length) (hlt : line.length < keyword.length)
    (c : UInt8) :
    matched keyword (line ++ [c]) =
      if tolower c = tolower (keyword.getD line.length 0) then line.length + 1
      else line.length := by
  induction keyword generalizing line with
  | nil => exact absurd hlt (Nat.not_lt_zero _)
  | cons k keyword ih =>
    cases line with
    | nil =>
      rw [List.nil_append, matched]
      cases keyword <;> rfl
    | cons a line =>
      rw [matched] at h
      split_ifs at h with ha
      rw [List.cons_append, matched, if_pos ha, ih (Nat.succ.inj h) (Nat.lt_of_succ_lt_succ hlt),
        List.length_cons, List.getD_cons_succ]
      split_ifs
      · rfl
      · rfl

theorem popKeyword_length (user : Bool) : (popKeyword user).length = 5 := by cases user <;> rfl

/-- No character of the keyword is the terminating zero or a line feed. -/
theorem popKeyword_getD (user : Bool) {k : ℕ} (h : k < 5) :
    (popKeyword user).getD k 0 ≠ 0 ∧ tolower lineFeed ≠ tolower ((popKeyword user).getD k 0) := by
  have hall : ∀ k < 5, ∀ user, (popKeyword user).getD k 0 ≠ 0 ∧
      tolower lineFeed ≠ tolower ((popKeyword user).getD k 0) := by decide
  exact hall k h user

theorem popStep_command (h : p.state = cmdState user) (c : UInt8) :
    popStep p c = matchKeyword (popKeyword user) (cmdState user) (fillState user) p c := by
  unfold popStep
  rw [h]
  cases user <;> rfl

/-- What a byte of the argument does, and what it leaves alone. -/
theorem popStep_fill (h : p.state = fillState user) (hc : c ≠ lineFeed)
    (hlt : p.writePtr + 1 ≠ maxCredentialsLen) :
    (popStep p c).state = fillState user ∧ (popStep p c).writePtr = p.writePtr + 1 ∧
      (popStep p c).readPtr = p.readPtr ∧
      (popStep p c).field user = Function.update (p.field user) p.writePtr c := by
  cases user with
  | true =>
    have hstep : popStep p c = { p with
        user := Function.update p.user p.writePtr c, writePtr := p.writePtr + 1,
          state := .fillUser } := by
      unfold popStep
      rw [h]
      exact (if_neg hc).trans (if_neg hlt)
    rw [hstep]
    exact ⟨rfl, rfl, rfl, rfl⟩
  | false =>
    have hstep : popStep p c = { p with
        pass := Function.update p.pass p.writePtr c, writePtr := p.writePtr + 1,
          state := .fillPass } := by
      unfold popStep
      rw [h]
      exact (if_neg hc).trans (if_neg hlt)
    rw [hstep]
    exact ⟨rfl, rfl, rfl, rfl⟩

theorem popStep_fill_full (h : p.state = fillState user) (hc : c ≠ lineFeed)
    (heq : p.writePtr + 1 = maxCredentialsLen) :
    popStep p c = { p with state := .unknownCmd } := by
  unfold popStep
  rw [h]
  cases user with
  | true => exact (if_neg hc).trans (if_pos heq)
  | false => exact (if_neg hc).trans (if_pos heq)

theorem popStep_unknown (h : p.state = .unknownCmd) (hc : c ≠ lineFeed) : popStep p c = p := by
  have hcmd : unknownCmd p c = .unknownCmd := if_neg hc
  unfold popStep
  rw [h]
  dsimp only
  rw [hcmd, ← h]

/-- Only the end of a line changes the flags. -/
theorem popStep_flags (hc : c ≠ lineFeed) :
    (popStep p c).userComplete = p.userComplete ∧
    (popStep p c).passwordComplete = p.passwordComplete := by
  have hc' : ¬ c = 0x0a := hc
  unfold popStep
  cases p.state with
  | userCmd => dsimp only [userCmd, matchKeyword]; split_ifs <;> exact ⟨rfl, rfl⟩
  | fillUser =>
    dsimp only [fillUser]
    rw [if_neg hc']
    split_ifs <;> exact ⟨rfl, rfl⟩
  | passCmd => dsimp only [passCmd, matchKeyword]; split_ifs <;> exact ⟨rfl, rfl⟩
  | fillPass =>
    dsimp only [fillPass]
    rw [if_neg hc']
    split_ifs <;> exact ⟨rfl, rfl⟩
  | unknownCmd => exact ⟨rfl, rfl⟩

theorem popStep_user (h : p.state ≠ .fillUser) (c : UInt8) : (popStep p c).user = p.user := by
  unfold popStep
  cases hst : p.state with
  | userCmd => dsimp only [userCmd, matchKeyword]; split_ifs <;> rfl
  | fillUser => exact absurd hst h
  | passCmd => dsimp only [passCmd, matchKeyword]; split_ifs <;> rfl
  | fillPass => dsimp only [fillPass]; split_ifs <;> rfl
  | unknownCmd => rfl

/-! ## Inside a line -/

/-- The bytes seen of a line that was begun afresh give the state and the cursors. -/
inductive InLine (user : Bool) (line : List UInt8) (p : Pop3Parser) : Prop
  | command (hall : matched (popKeyword user) line = line.length) (hlt : line.length < 5)
      (state : p.state = cmdState user) (read : p.readPtr = line.length) (write : p.writePtr = 0)
  | missed (hlt : matched (popKeyword user) line < 5)
      (hmiss : matched (popKeyword user) line < line.length)
      (state : p.state = .unknownCmd) (read : p.readPtr = matched (popKeyword user) line)
      (write : p.writePtr = 0)
  | argument (hall : matched (popKeyword user) line = 5)
      (hlen : line.length < 5 + maxCredentialsLen)
      (state : p.state = fillState user) (read : p.readPtr = 0)
      (write : p.writePtr = line.length - 5)
      (field : slice (p.field user) 0 (line.length - 5) = line.drop 5)
  | overlong (hall : matched (popKeyword user) line = 5)
      (hlen : 5 + maxCredentialsLen ≤ line.length)
      (state : p.state = .unknownCmd) (read : p.readPtr = 0)
      (write : p.writePtr + 1 = maxCredentialsLen)

theorem InLine.nil (hs : p.state = cmdState user) (hr : p.readPtr = 0) (hw : p.writePtr = 0) :
    InLine user [] p := by
  refine .command ?_ (Nat.zero_lt_succ _) hs hr hw
  cases h : popKeyword user <;> rfl

theorem InLine.state_ne (h : InLine false line p) : p.state ≠ .fillUser := by
  cases h with
  | command _ _ state => rw [state]; decide
  | missed _ _ state => rw [state]; decide
  | argument _ _ state => rw [state]; decide
  | overlong _ _ state => rw [state]; decide

theorem InLine.step (h : InLine user line p) (hc : c ≠ lineFeed) :
    InLine user (line ++ [c]) (popStep p c) := by
  have hkey := popKeyword_length user
  have hlen : (line ++ [c]).length = line.length + 1 := by simp
  cases h with
  | command hall hlt state read write =>
    have hm := matched_concat hall (by omega) c
    rw [popStep_command state, matchKeyword, read]
    by_cases hmatch : tolower c = tolower ((popKeyword user).getD line.length 0)
    · rw [if_pos hmatch] at hm ⊢
      by_cases hlast : line.length + 1 = 5
      · -- the keyword is complete
        have hzero : (popKeyword user).getD (line.length + 1) 0 = 0 := by
          rw [List.getD_eq_getElem?_getD, List.getElem?_eq_none (by omega), Option.getD_none]
        dsimp only
        rw [if_pos hzero]
        refine .argument (hm.trans hlast) (by unfold maxCredentialsLen; omega) rfl rfl ?_ ?_
        · rw [hlen, hlast]
          exact write
        · rw [hlen, hlast, List.drop_eq_nil_of_le (by omega)]
          rfl
      · have hzero := (popKeyword_getD user (k := line.length + 1) (by omega)).1
        dsimp only
        rw [if_neg hzero]
        exact .command (by rw [hm, hlen]) (by omega) rfl hlen.symm write
    · rw [if_neg hmatch] at hm ⊢
      exact .missed (by omega) (by omega) (if_neg hc) hm.symm write
  | missed hlt hmiss state read write =>
    have hm := matched_append (.inl hmiss) [c]
    rw [popStep_unknown state hc]
    exact .missed (by omega) (by omega) state (read.trans hm.symm) write
  | argument hall hlt state read write field =>
    have hm := (matched_append (.inr (hall.trans hkey.symm)) [c]).trans hall
    have hge := (matched_le (popKeyword user) line).2
    -- the last byte of the field is kept for the zero
    by_cases hfull : p.writePtr + 1 = maxCredentialsLen
    · rw [popStep_fill_full state hc hfull]
      exact .overlong hm (by omega) rfl read hfull
    -- there is room: the argument is one byte longer
    · obtain ⟨hs, hw, hr, hf⟩ := popStep_fill state hc hfull
      refine .argument hm (by omega) hs (hr.trans read) (by omega) ?_
      rw [hlen, List.drop_append_of_le_length (by omega), ← field, hf, write,
        show line.length + 1 - 5 = line.length - 5 + 1 by omega, slice_add]
      congr 1
      · refine slice_congr fun k hk => ?_
        rw [Function.update_of_ne (by omega)]
      · simp [slice]
  | overlong hall hle state read write =>
    have hm := (matched_append (.inr (hall.trans hkey.symm)) [c]).trans hall
    rw [popStep_unknown state hc]
    exact .overlong hm (by omega) state read write

/-! ## The end of a line -/

/-- The C string in the field of the user or of the password. -/
def Pop3Parser.captured (user : Bool) (p : Pop3Parser) : List UInt8 :=
  cString (slice (p.field user) 0 maxCredentialsLen)

/-- A user is there unless one is looked for, and no password is. -/
structure Seeks (user : Bool) (u : ℕ → UInt8) (p : Pop3Parser) : Prop where
  userComplete : p.userComplete = !user
  pending : p.passwordComplete = false
  kept : user = false → p.user = u

theorem Seeks.step (h : Seeks user u p) (hl : InLine user line p) (hc : c ≠ lineFeed) :
    Seeks user u (popStep p c) := by
  obtain ⟨hu, hp⟩ := popStep_flags (p := p) hc
  refine ⟨hu.trans h.userComplete, hp.trans h.pending, ?_⟩
  rintro rfl
  rw [popStep_user hl.state_ne, h.kept rfl]

/-- The line is the command with an argument that fits the field. -/
def IsLogin (user : Bool) (line : List UInt8) : Prop :=
  matched (popKeyword user) line = 5 ∧ line.length < 5 + maxCredentialsLen

instance (user : Bool) (line : List UInt8) : Decidable (IsLogin user line) :=
  inferInstanceAs (Decidable (_ ∧ _))

theorem Seeks.unknownCmd (h : Seeks user u p) : Socks5d.unknownCmd p lineFeed = cmdState user := by
  have hcmd : Socks5d.unknownCmd p lineFeed = if p.userComplete then .passCmd else .userCmd :=
    if_pos rfl
  rw [hcmd, h.userComplete]
  cases user <;> rfl

/-- A line that was not recognised leaves the cursors where they are. -/
theorem InLine.unrecognised (h : InLine user line p) (hs : Seeks user u p)
    (hno : ¬ IsLogin user line) :
    popStep p lineFeed = { p with state := cmdState user } ∧
      (p.readPtr = 0 ∧ p.writePtr = 0 ↔ matched (popKeyword user) line = 0) := by
  have hcmd := hs.unknownCmd
  cases h with
  | command hall hlt state read write =>
    refine ⟨?_, by rw [read, write, hall]; simp⟩
    rw [popStep_command state, matchKeyword, read, if_neg (popKeyword_getD user hlt).2, hcmd]
  | missed hlt hmiss state read write =>
    refine ⟨?_, by rw [read, write]; simp⟩
    unfold popStep
    rw [state]
    dsimp only
    rw [hcmd]
  | argument hall hlen state read write field => exact absurd ⟨hall, hlen⟩ hno
  | overlong hall hlen state read write =>
    refine ⟨?_, ?_⟩
    · unfold popStep
      rw [state]
      dsimp only
      rw [hcmd]
    · unfold maxCredentialsLen at write
      refine iff_of_false ?_ ?_
      · omega
      · omega

/-- A line that was recognised is captured. -/
structure Captures (user : Bool) (u : ℕ → UInt8) (arg : List UInt8) (p : Pop3Parser) : Prop where
  state : p.state = .passCmd
  read : p.readPtr = 0
  write : p.writePtr = 0
  userComplete : p.userComplete = true
  passwordComplete : p.passwordComplete = !user
  captured : p.captured user = cString arg
  kept : user = false → p.user = u

theorem InLine.recognised (h : InLine user line p) (hs : Seeks user u p)
    (hyes : IsLogin user line) :
    Captures user u (line.drop 5) (popStep p lineFeed) := by
  obtain ⟨hall, hlen⟩ := hyes
  cases h with
  | command hall' hlt => omega
  | missed hlt => omega
  | overlong _ hlen' => omega
  | argument _ _ state read write field =>
    have hge := (matched_le (popKeyword user) line).2
    -- the zero is stored behind the argument
    have hcap : cString (slice (Function.update (p.field user) p.writePtr 0) 0 maxCredentialsLen) =
        cString (line.drop 5) := by
      have hsplit :
          maxCredentialsLen = p.writePtr + (1 + (maxCredentialsLen - p.writePtr - 1)) := by omega
      rw [hsplit, slice_add, slice_add, ← field, write]
      have hkept : slice (Function.update (p.field user) (line.length - 5) 0) 0 (line.length - 5) =
          slice (p.field user) 0 (line.length - 5) := by
        refine slice_congr fun k hk => ?_
        rw [Function.update_of_ne (by omega)]
      rw [hkept]
      have hzero : slice (Function.update (p.field user) (line.length - 5) 0)
          (0 + (line.length - 5)) 1 = [0] := by
        simp [slice]
      rw [hzero]
      exact cString_append_zero _ _
    cases user with
    | true =>
      have hstep : popStep p lineFeed = { p with
          user := Function.update p.user p.writePtr 0, writePtr := 0, userComplete := true,
            state := .passCmd } := by
        unfold popStep
        rw [state]
        exact if_pos rfl
      rw [hstep]
      exact ⟨rfl, read, rfl, rfl, hs.pending, hcap, fun hbad => absurd hbad (by decide)⟩
    | false =>
      have hstep : popStep p lineFeed = { p with
          pass := Function.update p.pass p.writePtr 0, writePtr := 0, passwordComplete := true,
            state := .passCmd } := by
        unfold popStep
        rw [state]
        exact if_pos rfl
      rw [hstep]
      exact ⟨rfl, read, rfl, hs.userComplete, rfl, hcap, hs.kept⟩

/-! ## Lines -/

/-- The parser is where it is after `init_parser`, or, if it has a user, ready for a password. -/
structure Afresh (p : Pop3Parser) : Prop where
  state : p.state = if p.userComplete then .passCmd else .userCmd
  read : p.readPtr = 0
  write : p.writePtr = 0
  pending : p.passwordComplete = false

theorem initParser_afresh (p : Pop3Parser) : Afresh (initParser p) := ⟨rfl, rfl, rfl, rfl⟩

/-- After the bytes of a line, before its end. -/
theorem Afresh.inLine (h : Afresh p) (hline : lineFeed ∉ line) :
    InLine (!p.userComplete) line (line.foldl popStep p) ∧
    Seeks (!p.userComplete) p.user (line.foldl popStep p) := by
  have hstate : p.state = cmdState (!p.userComplete) := by
    rw [h.state]
    cases p.userComplete <;> rfl
  have hseeks : Seeks (!p.userComplete) p.user p := ⟨(Bool.not_not _).symm, h.pending, fun _ => rfl⟩
  induction line using List.reverseRecOn with
  | nil => exact ⟨.nil hstate h.read h.write, hseeks⟩
  | append_singleton line c ih =>
    simp only [List.mem_append, List.mem_singleton, not_or] at hline
    obtain ⟨hin, hs⟩ := ih hline.1
    rw [List.foldl_append, List.foldl_cons, List.foldl_nil]
    exact ⟨hin.step (Ne.symm hline.2), hs.step hin (Ne.symm hline.2)⟩

/-- A line and its end. -/
def feedLine (p : Pop3Parser) (line : List UInt8) : Pop3Parser :=
  (line ++ [lineFeed]).foldl popFeed p

theorem Afresh.unfinished (h : Afresh p) (hline : lineFeed ∉ line) :
    Unfinished p (line ++ [lineFeed]) := by
  intro k hk
  rw [List.length_append, List.length_singleton] at hk
  rw [List.take_append_of_le_length (by omega)]
  exact (h.inLine fun hmem => hline (List.mem_of_mem_take hmem)).2.pending

theorem Afresh.feedLine_eq (h : Afresh p) (hline : lineFeed ∉ line) :
    feedLine p line =
      let q := popStep (line.foldl popStep p) lineFeed
      if q.userComplete && q.passwordComplete then initParser q else q := by
  rw [feedLine, foldl_popFeed h.pending (h.unfinished hline), List.foldl_append]
  rfl

/-- The line is recognised, or its first character is not that of the command looked for. -/
def CleanLine (p : Pop3Parser) (line : List UInt8) : Prop :=
  IsLogin (!p.userComplete) line ∨ matched (popKeyword (!p.userComplete)) line = 0

instance (p : Pop3Parser) (line : List UInt8) : Decidable (CleanLine p line) :=
  inferInstanceAs (Decidable (_ ∨ _))

/-- What the line is to the parser depends on the line and on whether there is a user. -/
def CapturedFrom (p : Pop3Parser) (line : List UInt8) : Prop :=
  let q := (line ++ [lineFeed]).foldl popStep p
  if IsLogin (!p.userComplete) line then Captures (!p.userComplete) p.user (line.drop 5) q
  else q.userComplete = p.userComplete ∧ q.passwordComplete = false

theorem Afresh.capturedFrom (h : Afresh p) (hline : lineFeed ∉ line) : CapturedFrom p line := by
  obtain ⟨hin, hs⟩ := h.inLine hline
  unfold CapturedFrom
  rw [List.foldl_append, List.foldl_cons, List.foldl_nil]
  dsimp only
  by_cases hyes : IsLogin (!p.userComplete) line
  · rw [if_pos hyes]
    exact hin.recognised hs hyes
  · rw [if_neg hyes, (hin.unrecognised hs hyes).1]
    exact ⟨hs.userComplete.trans (Bool.not_not _), hs.pending⟩

theorem Afresh.feedLine_iff (h : Afresh p) (hline : lineFeed ∉ line) :
    Afresh (feedLine p line) ↔ CleanLine p line := by
  obtain ⟨hin, hs⟩ := h.inLine hline
  rw [h.feedLine_eq hline]
  dsimp only
  by_cases hyes : IsLogin (!p.userComplete) line
  · refine iff_of_true ?_ (.inl hyes)
    have hcap := hin.recognised hs hyes
    split_ifs with hdone
    · exact initParser_afresh _
    · rw [hcap.userComplete, Bool.true_and, Bool.not_eq_true] at hdone
      refine ⟨?_, hcap.read, hcap.write, hdone⟩
      rw [hcap.userComplete]
      exact hcap.state
  · obtain ⟨heq, hcursors⟩ := hin.unrecognised hs hyes
    -- only the cursors of an unrecognised line stay behind
    have hdone : ¬ ((line.foldl popStep p).userComplete &&
        (line.foldl popStep p).passwordComplete) = true := by
      rw [hs.pending, Bool.and_false]
      exact Bool.false_ne_true
    rw [heq, if_neg hdone, CleanLine, or_iff_right hyes, ← hcursors]
    constructor
    · exact fun hf => ⟨hf.read, hf.write⟩
    · rintro ⟨hr, hw⟩
      refine ⟨?_, hr, hw, hs.pending⟩
      dsimp only
      rw [hs.userComplete]
      cases p.userComplete <;> rfl

/-- The next line begins afresh: what is captured from it does not depend on those before. -/
def BeginsAfresh (p : Pop3Parser) : Prop := Afresh p ∧ ∀ line, lineFeed ∉ line → CapturedFrom p line

/-- For all lines given to a new parser, each begins afresh, and so does what follows, exactly
if every line is recognised or does not begin like the command that is looked for. -/
theorem lines_begin_afresh_iff (p : Pop3Parser) (lines : List (List UInt8))
    (hlines : ∀ line ∈ lines, lineFeed ∉ line) :
    (∀ k ≤ lines.length, BeginsAfresh (exec feedLine (initParser p) (lines.take k))) ↔
      Along feedLine CleanLine (initParser p) lines := by
  have hrun : ∀ p, Afresh p → ((∀ k ≤ lines.length, BeginsAfresh (exec feedLine p (lines.take k))) ↔
      Along feedLine CleanLine p lines) := by
    clear p
    -- on the lines, for every parser that begins afresh
    induction lines with
    | nil =>
      intro p h
      refine iff_of_true (fun k _ => ?_) trivial
      rw [List.take_nil]
      exact ⟨h, fun line hline => h.capturedFrom hline⟩
    | cons line lines ih =>
      intro p h
      rw [List.forall_mem_cons] at hlines
      have hnext := h.feedLine_iff hlines.1
      rw [Along]
      constructor
      · intro hall
        have hclean := hnext.mp (hall 1 (by simp)).1
        refine ⟨hclean, (ih hlines.2 _ (hnext.mpr hclean)).mp fun k hk => ?_⟩
        exact hall (k + 1) (Nat.succ_le_succ hk)
      · rintro ⟨hclean, hrest⟩ k hk
        cases k with
        | zero => exact ⟨h, fun line hline => h.capturedFrom hline⟩
        | succ k => exact (ih hlines.2 _ (hnext.mpr hclean)).mpr hrest k (Nat.le_of_succ_le_succ hk)
  exact hrun _ (initParser_afresh p)

/-- A command that is none of both does no harm, whatever its length. -/
theorem capa_leaves_no_trace :
    BeginsAfresh
      (exec feedLine (initParser newParser) [asc "CAPA\r", asc "uSeR bob\r", asc "STAT\r"]) := by
  have h := (lines_begin_afresh_iff newParser [asc "CAPA\r", asc "uSeR bob\r", asc "STAT\r"]
    (by decide +kernel)).mpr (by decide +kernel)
  exact h 3 (Nat.le_refl 3)

/-- One that begins like `USER` leaves its traces: the `U` counts for the next line. -/
theorem utf8_leaves_a_trace :
    ¬ ∀ (p : Pop3Parser) (lines : List (List UInt8)), (∀ line ∈ lines, lineFeed ∉ line) →
      ∀ k ≤ lines.length, BeginsAfresh (exec feedLine (initParser p) (lines.take k)) := by
  intro h
  have hread := (h newParser [asc "UTF8\r"] (by decide +kernel) 1 (Nat.le_refl 1)).1.read
  exact absurd hread (by decide +kernel)

/-! ## Credentials in pieces -/

/-- The results of `pop3_parse` for one buffer after the other, and the parser they leave. -/
def popRun : Pop3Parser → List Buffer → List Bool × Pop3Parser
  | p, [] => ([], p)
  | p, b :: bufs =>
    ((pop3Parse p b).1 :: (popRun (pop3Parse p b).2 bufs).1, (popRun (pop3Parse p b).2 bufs).2)

theorem Unfinished.append {bs bs' : List UInt8} (h : Unfinished p bs)
    (h' : Unfinished (bs.foldl popStep p) bs') : Unfinished p (bs ++ bs') := by
  intro k hk
  rw [List.length_append] at hk
  by_cases hlt : k < bs.length
  · rw [List.take_append_of_le_length (Nat.le_of_lt hlt)]
    exact h k hlt
  · rw [List.take_append, List.take_of_length_le (by omega), List.foldl_append]
    exact h' (k - bs.length) (by omega)

theorem Unfinished.left {bs bs' : List UInt8} (h : Unfinished p (bs ++ bs')) : Unfinished p bs := by
  intro k hk
  have hlt := h k (by rw [List.length_append]; omega)
  rwa [List.take_append_of_le_length (Nat.le_of_lt hk)] at hlt

theorem Unfinished.right {bs bs' : List UInt8} (h : Unfinished p (bs ++ bs')) :
    Unfinished (bs.foldl popStep p) bs' := by
  intro k hk
  have hlt := h (bs.length + k) (by rw [List.length_append]; omega)
  rwa [List.take_append, List.take_of_length_le (by omega), List.foldl_append,
    Nat.add_sub_cancel_left] at hlt

theorem Unfinished.setBuf {bs : List UInt8} (h : Unfinished p bs) (buf : Buffer) :
    Unfinished (p.setBuf buf) bs := by
  intro k hk
  rw [foldl_popStep_setBuf]
  exact h k hk

/-- However the bytes are cut, `pop3_parse` reports the state after the last of them. -/
theorem popRun_eq (bufs : List Buffer) (hne : ∀ b ∈ bufs, bufferReadPtr b ≠ []) (hbufs : bufs ≠ [])
    (h : Unfinished p (bufs.map bufferReadPtr).flatten) :
    let q := (bufs.map bufferReadPtr).flatten.foldl popStep p
    (popRun p bufs).1 = List.replicate (bufs.length - 1) false ++
      [q.userComplete && q.passwordComplete] ∧
      (popRun p bufs).2.user = q.user ∧ (popRun p bufs).2.pass = q.pass := by
  induction bufs generalizing p with
  | nil => exact absurd rfl hbufs
  | cons b bufs ih =>
    rw [List.forall_mem_cons] at hne
    rw [List.map_cons, List.flatten_cons] at h ⊢
    obtain ⟨buf, hparse⟩ := pop3Parse_eq rfl h.left
    cases bufs with
    | nil =>
      rw [List.map_nil, List.flatten_nil, List.append_nil]
      dsimp only [popRun]
      rw [hparse]
      dsimp only [Pop3Parser.setBuf]
      split_ifs with hdone
      · rw [hdone]
        exact ⟨rfl, rfl, rfl⟩
      · rw [Bool.not_eq_true] at hdone
        rw [hdone]
        exact ⟨rfl, rfl, rfl⟩
    | cons b' bufs =>
      -- more bytes follow, so no password is complete yet
      have hpending : ((bufferReadPtr b).foldl popStep p).passwordComplete = false := by
        apply h.right 0
        rw [List.map_cons, List.flatten_cons, List.length_append]
        have hpos := List.length_pos_iff.mpr (hne.2 b' List.mem_cons_self)
        omega
      have hfalse : pop3Parse p b = (false, ((bufferReadPtr b).foldl popStep p).setBuf buf) := by
        rw [hparse]
        dsimp only [Pop3Parser.setBuf]
        rw [hpending, Bool.and_false]
        rfl
      obtain ⟨h1, h2, h3⟩ := ih hne.2 (List.cons_ne_nil _ _) (h.right.setBuf buf)
      rw [foldl_popStep_setBuf] at h1 h2 h3
      rw [popRun, hfalse, List.foldl_append]
      refine ⟨?_, h2, h3⟩
      dsimp only
      rw [h1]
      rfl

/-- A keyword in any case is matched. -/
theorem matched_of_keyword {typed : List UInt8} (h : typed.map tolower = keyword.map tolower)
    (rest : List UInt8) :
    matched keyword (typed ++ rest) = keyword.length := by
  induction keyword generalizing typed with
  | nil =>
    rw [List.map_nil, List.map_eq_nil_iff] at h
    subst h
    cases rest <;> rfl
  | cons k keyword ih =>
    obtain ⟨c, typed, rfl, hc, htyped⟩ := List.map_eq_cons_iff.mp h
    rw [List.cons_append, matched, if_pos hc, ih htyped, List.length_cons]

/-- The keyword is typed in any case; neither it nor the argument ends the line. -/
structure Typed (user : Bool) (typed arg : List UInt8) : Prop where
  keyword : typed.map tolower = (popKeyword user).map tolower
  cr : carriageReturn ∉ arg
  lf : lineFeed ∉ arg
  zero : 0 ∉ arg
  short : arg.length ≤ 38

variable {typed arg : List UInt8}

/-- The line as the parser sees it: the carriage return belongs to the argument. -/
theorem Typed.recognised (h : Typed user typed arg) :
    lineFeed ∉ typed ++ arg ++ [carriageReturn] ∧ IsLogin user (typed ++ arg ++ [carriageReturn]) ∧
      (typed ++ arg ++ [carriageReturn]).drop 5 = arg ++ [carriageReturn] := by
  have hlen : typed.length = 5 := by
    have hmap := congrArg List.length h.keyword
    rwa [List.length_map, List.length_map, popKeyword_length] at hmap
  have hshort := h.short
  refine ⟨?_, ⟨?_, ?_⟩, ?_⟩
  · simp only [List.mem_append, List.mem_singleton, not_or]
    refine ⟨⟨fun hmem => ?_, h.lf⟩, by decide⟩
    -- no letter of the keyword is a line feed
    have himage := List.mem_map_of_mem (f := tolower) hmem
    rw [h.keyword] at himage
    have hno : ∀ user, tolower lineFeed ∉ (popKeyword user).map tolower := by decide
    exact hno user himage
  · rw [List.append_assoc, matched_of_keyword h.keyword, popKeyword_length]
  · simp only [List.length_append, List.length_singleton]
    unfold maxCredentialsLen
    omega
  · rw [List.append_assoc]
    exact List.drop_left' hlen

/-- A line given as such is captured with its carriage return. -/
theorem Typed.captures (h : Typed (!p.userComplete) typed arg) (hp : Afresh p) :
    Captures (!p.userComplete) p.user (arg ++ [carriageReturn])
      ((typed ++ arg ++ [carriageReturn, lineFeed]).foldl popStep p) ∧
    Unfinished p (typed ++ arg ++ [carriageReturn, lineFeed]) := by
  obtain ⟨hline, hyes, hdrop⟩ := h.recognised
  have hsplit : typed ++ arg ++ [carriageReturn, lineFeed] =
      typed ++ arg ++ [carriageReturn] ++ [lineFeed] :=
        (List.append_assoc _ [carriageReturn] [lineFeed]).symm
  have hcap := hp.capturedFrom hline
  unfold CapturedFrom at hcap
  dsimp only at hcap
  rw [if_pos hyes, hdrop] at hcap
  rw [hsplit]
  exact ⟨hcap, hp.unfinished hline⟩

/-- `pop3_parse` returns true for the last of the buffers only, and the fields hold `user` and
`pass` then. -/
structure Sniffs (p : Pop3Parser) (bufs : List Buffer) (user pass : List UInt8) : Prop where
  once : (popRun (initParser p) bufs).1 = List.replicate (bufs.length - 1) false ++ [true]
  user : (popRun (initParser p) bufs).2.captured true = user
  pass : (popRun (initParser p) bufs).2.captured false = pass

/-- For all credentials, any case of the keywords and any cut: they are reported once, at the
end, but each with the carriage return of its line, never as they were typed. -/
theorem credentials_keep_their_carriage_return (p : Pop3Parser)
    {typedUser typedPass user pass : List UInt8}
    (hu : Typed true typedUser user) (hp : Typed false typedPass pass) (bufs : List Buffer)
    (hne : ∀ b ∈ bufs, bufferReadPtr b ≠ [])
    (hbufs : (bufs.map bufferReadPtr).flatten = typedUser ++ user ++ [carriageReturn, lineFeed] ++
      (typedPass ++ pass ++ [carriageReturn, lineFeed])) :
    ¬ Sniffs p bufs user pass ∧
    Sniffs p bufs (user ++ [carriageReturn]) (pass ++ [carriageReturn]) := by
  obtain ⟨hcap, hfirst⟩ := Typed.captures (p := initParser p) hu (initParser_afresh p)
  -- the first line leaves the parser ready for the second
  generalize hmid :
      (typedUser ++ user ++ [carriageReturn, lineFeed]).foldl popStep (initParser p) = mid at hcap
  have hmidFresh : Afresh mid := by
    refine ⟨?_, hcap.read, hcap.write, hcap.passwordComplete⟩
    rw [hcap.userComplete]
    exact hcap.state
  have hnot : (!mid.userComplete) = false := by rw [hcap.userComplete]; rfl
  obtain ⟨hcap', hsecond⟩ := Typed.captures (p := mid) (hnot ▸ hp) hmidFresh
  rw [hnot] at hcap'
  have hbytes : bufs ≠ [] := by
    rintro rfl
    have hlen := congrArg List.length hbufs
    simp at hlen
  obtain ⟨honce, huser, hpass⟩ := popRun_eq (p := initParser p) bufs hne hbytes (by
    rw [hbufs]
    exact hfirst.append (hmid ▸ hsecond))
  rw [hbufs, List.foldl_append, hmid] at honce huser hpass
  have hgood : Sniffs p bufs (user ++ [carriageReturn]) (pass ++ [carriageReturn]) := by
    have hzero : ∀ arg : List UInt8, 0 ∉ arg →
        cString (arg ++ [carriageReturn]) = arg ++ [carriageReturn] := by
      intro arg harg
      apply cString_eq_self
      rw [List.mem_append, List.mem_singleton, not_or]
      exact ⟨harg, by decide⟩
    refine ⟨?_, ?_, ?_⟩
    · rw [honce, hcap'.userComplete, hcap'.passwordComplete]
      rfl
    · change cString (slice (popRun (initParser p) bufs).2.user 0 maxCredentialsLen) = _
      rw [huser, hcap'.kept rfl, ← hzero user hu.zero]
      exact hcap.captured
    · change cString (slice (popRun (initParser p) bufs).2.pass 0 maxCredentialsLen) = _
      rw [hpass, ← hzero pass hp.zero]
      exact hcap'.captured
  refine ⟨fun hbad => ?_, hgood⟩
  have hsame := hgood.user.symm.trans hbad.user
  have hlen := congrArg List.length hsame
  rw [List.length_append, List.length_singleton] at hlen
  omega

/-- A buffer that holds just these bytes. -/
def bufferOf (bs : List UInt8) : Buffer :=
  bufferPut (bufferInit bs.length fun _ => 0) bs (Nat.le_refl _)

theorem bufferOf_readPtr (bs : List UInt8) : bufferReadPtr (bufferOf bs) = bs := bufferPut_readPtr _

theorem bob_typed : Typed true (asc "uSEr ") (asc "bob") := by constructor <;> decide +kernel

theorem secret_typed : Typed false (asc "PASS ") (asc "secret") := by constructor <;> decide +kernel

/-- Credentials in four pieces. -/
theorem bob_keeps_his_carriage_return :
    Sniffs newParser ([asc "uSEr b", asc "ob\r", asc "\nPASS secret\r", asc "\n"].map bufferOf)
      (asc "bob\r") (asc "secret\r") := by
  have h := credentials_keep_their_carriage_return newParser bob_typed secret_typed
    ([asc "uSEr b", asc "ob\r", asc "\nPASS secret\r", asc "\n"].map bufferOf) ?_ ?_
  · exact h.2
  · intro b hb
    obtain ⟨bs, hbs, rfl⟩ := List.mem_map.mp hb
    have hall : ∀ bs ∈ [asc "uSEr b", asc "ob\r", asc "\nPASS secret\r", asc "\n"], bs ≠ [] := by
      decide +kernel
    rw [bufferOf_readPtr]
    exact hall bs hbs
  · decide +kernel

/-- The name that was typed is not the one in the field. -/
theorem bob_is_not_sniffed :
    ¬ ∀ (p : Pop3Parser) (typedUser typedPass user pass : List UInt8) (bufs : List Buffer),
      Typed true typedUser user → Typed false typedPass pass → (∀ b ∈ bufs, bufferReadPtr b ≠ []) →
      (bufs.map bufferReadPtr).flatten = typedUser ++ user ++ [carriageReturn, lineFeed] ++
        (typedPass ++ pass ++ [carriageReturn, lineFeed]) → Sniffs p bufs user pass := by
  intro h
  have hsniffs := h newParser (asc "uSEr ") (asc "PASS ") (asc "bob") (asc "secret")
    [bufferOf (asc "uSEr bob\r\nPASS secret\r\n")] bob_typed secret_typed ?_ ?_
  · exact absurd hsniffs.user (by decide +kernel)
  · rw [List.forall_mem_singleton, bufferOf_readPtr]
    decide +kernel
  · decide +kernel

end Socks5d
