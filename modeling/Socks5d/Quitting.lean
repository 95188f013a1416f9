import Socks5d.Segmentation

/-! # Nothing after QUIT

`quitted` is a flag that only `handle_mgmt_write` looks at, so that a command behind
QUIT is carried out like any other. A session ends with QUIT as long as the peer sends
no more than a piece of one line behind it. -/

namespace Socks5d
open Memory Scanner EventRun

variable {inp : Input} {ths : List MgmtThread} {s t : Session}

/-! ## The pointers of the lexer -/

theorem finish_sound {cmd : MgmtCommand} {arg : Option (ℕ × ℕ)} (hcur : inp.cur ≤ inp.lim)
    (hlim : inp.lim ≤ inp.bufSize) : (finish cmd arg inp).input.Sound :=
  ⟨Nat.le_refl _, hcur, hlim, fun _ => rfl, fun h => absurd rfl h⟩

/-- The marker lies in the text, if there is any. -/
theorem Input.Sound.marker (hs : inp.Sound) (hne : inp.tok < inp.lim) :
    inp.marker = inp.tok + 1 := by
  have h1 := hs.tok_le
  unfold Input.marker
  split_ifs with hc
  · rfl
  · exact hs.marked fun heq => hc ⟨heq, by omega⟩

theorem scan_sound (hs : inp.Sound) (ths : List MgmtThread) :
    (scan ths inp).input.Sound ∧
    ((scan ths inp).cmd ≠ .incomplete → (scan ths inp).input.state = none) := by
  have h1 := hs.tok_le
  have h2 := hs.cur_le
  have h3 := hs.lim_le
  unfold scan
  cases hr : run ths inp.cur (slice inp.buf inp.cur (inp.lim - inp.cur)) with
  | accept th cur =>
    have hpos := (run_accept_pos hr).2
    rw [slice_length] at hpos
    exact ⟨finish_sound (by dsimp only; omega) h3, fun _ => rfl⟩
  | dead =>
    have hne := List.length_pos_iff.mpr (run_ne_nil hr)
    rw [slice_length] at hne
    have hmark := hs.marker (by omega)
    exact ⟨finish_sound (by dsimp only; omega) h3, fun _ => rfl⟩
  | more ths' =>
    refine ⟨⟨?_, Nat.le_refl _, h3, fun hf => by (cases hf), ?_⟩, fun hne => absurd rfl hne⟩
    · exact Nat.le_trans h1 h2
    · intro hne
      refine hs.marker ?_
      dsimp only at hne
      omega

theorem parseMgmtRequest_sound (hs : inp.Sound) : (parseMgmtRequest inp).input.Sound ∧
    ((parseMgmtRequest inp).cmd ≠ .incomplete → (parseMgmtRequest inp).input.state = none) := by
  have h2 := hs.cur_le
  unfold parseMgmtRequest
  cases hst : inp.state with
  | none => exact scan_sound hs _
  | some ths =>
    dsimp only
    split_ifs with hend htok
    · exact ⟨finish_sound h2 hs.lim_le, fun _ => rfl⟩
    · have hmar := hs.marked htok
      have h1 := hs.tok_le
      exact ⟨finish_sound (by dsimp only; omega) hs.lim_le, fun _ => rfl⟩
    · exact scan_sound hs ths

/-! ## A piece of a line -/

/-- A lexer that was stopped is where it would be after what it has seen, but for the
places of an argument. -/
def Input.Following (inp : Input) : Prop :=
  ∀ ths, inp.state = some ths → ∃ ths₀,
    run (start (rulesOf inp.cond)) 0 inp.seen = .more ths₀ ∧
      ths.map Thread.unmark = ths₀.map Thread.unmark

/-- The lexer will not take the missing rest of a line for the end of the input. -/
def Input.Ready (inp : Input) : Prop := inp.state = none ∨ inp.cur < inp.lim ∨ inp.cur = inp.tok

theorem Input.text_eq (hs : inp.Sound) :
    inp.text = inp.seen ++ slice inp.buf inp.cur (inp.lim - inp.cur) := by
  have h1 := hs.tok_le
  have h2 := hs.cur_le
  have hlen : inp.lim - inp.tok = (inp.cur - inp.tok) + (inp.lim - inp.cur) := by omega
  have hcur : inp.tok + (inp.cur - inp.tok) = inp.cur := by omega
  rw [Input.text, Input.seen, hlen, slice_add, hcur]

theorem nextToken_none {cond : Cond} {bs : List UInt8} (h : nextToken cond bs = none) :
    ∃ ths, run (start (rulesOf cond)) 0 bs = .more ths := by
  unfold nextToken at h
  cases hr : run (start (rulesOf cond)) 0 bs with
  | accept th pos =>
    rw [hr] at h
    cases h
  | dead =>
    rw [hr] at h
    cases h
  | more ths => exact ⟨ths, rfl⟩

/-- What the lexer leaves when it stops in a piece of a line. -/
structure Stopped (inp inp' : Input) : Prop where
  cond_eq : inp'.cond = inp.cond
  text_eq : inp'.text = inp.text
  following : inp'.Following
  settled : inp'.state = none ∨ inp'.cur = inp'.lim

theorem scan_stopped (hs : inp.Sound) (hnone : nextToken inp.cond inp.text = none)
    {ths₀ : List MgmtThread}
    (hrun : run (start (rulesOf inp.cond)) 0 inp.seen = .more ths₀)
    (hths : ths.map Thread.unmark = ths₀.map Thread.unmark) :
    (scan ths inp).cmd = .incomplete ∧ Stopped inp (scan ths inp).input := by
  obtain ⟨us, hus⟩ := nextToken_none hnone
  have htext := hus
  rw [Input.text_eq hs, run_append, hrun] at hus
  dsimp only at hus
  obtain ⟨us', hus', heq⟩ := run_more_unmark inp.cur hths.symm hus
  unfold scan
  rw [hus']
  refine ⟨rfl, rfl, rfl, ?_, .inr rfl⟩
  rintro ths' hths'
  cases hths'
  exact ⟨us, htext, heq.symm⟩

theorem parseMgmtRequest_stopped (hs : inp.Sound) (hf : inp.Following) (hready : inp.Ready)
    (hnone : nextToken inp.cond inp.text = none) :
    (parseMgmtRequest inp).cmd = .incomplete ∧ Stopped inp (parseMgmtRequest inp).input := by
  have h2 := hs.cur_le
  unfold parseMgmtRequest
  cases hst : inp.state with
  | none =>
    have hseen : inp.seen = [] := by
      rw [Input.seen, hs.fresh hst, Nat.sub_self, slice_zero]
    exact scan_stopped hs hnone (by rw [hseen]; rfl) rfl
  | some ths =>
    dsimp only
    split_ifs with hend htok
    · refine ⟨rfl, rfl, ?_, fun _ hths => by (cases hths), .inl rfl⟩
      change slice inp.buf inp.cur (inp.lim - inp.cur) = inp.text
      rw [htok]
      rfl
    · rcases hready with hno | hlt | heq
      · rw [hst] at hno
        cases hno
      · omega
      · exact absurd heq htok
    · obtain ⟨ths₀, hrun, hths⟩ := hf ths hst
      exact scan_stopped hs hnone hrun hths

/-! ## The condition -/

/-- Behind a QUIT line, the buffer holds no more than a piece of a line. -/
def QuitEnds (s : Session) : Prop :=
  let p := parseMgmtRequest s.c.input
  p.cmd = .quit → nextToken p.input.cond p.input.text = none

instance : DecidablePred QuitEnds := fun _ =>
  inferInstanceAs (Decidable (_ → nextToken _ _ = none))

/-- What a read brings after QUIT makes no whole line with what was left, and a read that
brings nothing finds nothing left. -/
def QuietRead (s : Session) (r : ReadResult) : Prop :=
  (loopStart s (.read r)).isSome = true → s.c.quitted = true →
    nextToken s.c.input.cond (s.c.input.text ++ r.bytes s.c.input.free) = none ∧
    (r.bytes s.c.input.free = [] → s.c.input.text = [])

instance (s : Session) (r : ReadResult) : Decidable (QuietRead s r) :=
  inferInstanceAs (Decidable (_ → _ → nextToken _ _ = none ∧ (_ = [] → _ = [])))

/-- The peer sends no more than a piece of a line behind QUIT. -/
def QuitIsLast (s : Session) (ev : MgmtEvent) : Prop :=
  EventMeets QuitEnds s ev ∧ match ev with
    | .read r => QuietRead s r
    | _ => True

instance (s : Session) (ev : MgmtEvent) : Decidable (QuitIsLast s ev) :=
  match ev with
  | .read r => inferInstanceAs (Decidable (EventMeets QuitEnds s (.read r) ∧ QuietRead s r))
  | .write r => inferInstanceAs (Decidable (EventMeets QuitEnds s (.write r) ∧ True))
  | .server e => inferInstanceAs (Decidable (EventMeets QuitEnds s (.server e) ∧ True))

/-! ## The loop -/

/-- QUIT has set the flag, and no command followed it. -/
def LastWord (s : Session) : Prop :=
  ∀ l a r, acts s.log = l ++ a :: r → a.cmd = .quit → r = [] ∧ s.c.quitted = true

theorem LastWord.same (h : LastWord s) (hacts : acts t.log = acts s.log)
    (hq : t.c.quitted = s.c.quitted) : LastWord t := by
  unfold LastWord
  rw [hacts, hq]
  exact h

theorem LastWord.acted {a : Act} (h : LastWord s) (hq : s.c.quitted = false)
    (hacts : acts t.log = acts s.log ++ [a]) (hflag : a.cmd = .quit → t.c.quitted = true) :
    LastWord t := by
  intro l b r hsplit hb
  rw [hacts] at hsplit
  rcases concat_eq_split hsplit with ⟨rfl, rfl⟩ | ⟨r', hr'⟩
  · have hr := List.append_cancel_left hsplit
    exact ⟨(List.cons.inj hr).2.symm, hflag hb⟩
  · have hset := (h l b r' hr' hb).2
    rw [hq] at hset
    cases hset

/-- The input after QUIT. -/
structure Over (inp : Input) : Prop where
  following : inp.Following
  piece : nextToken inp.cond inp.text = none

/-- A session in the loop. -/
structure Going (s : Session) : Prop where
  sound : s.c.input.Sound
  word : LastWord s
  pending : bufferReadPtr s.c.pendingBuf = []
  ended : s.c.quitted = true → Over s.c.input ∧ s.c.input.Ready

/-- A session between two events. -/
structure Ends (s : Session) : Prop where
  sound : s.c.input.Sound
  word : LastWord s
  ended : s.closed = false → s.c.quitted = true → Over s.c.input ∧ s.Settled

/-- After QUIT a turn does nothing. -/
theorem turn_over (hs : s.c.input.Sound) (h : Over s.c.input) (hready : s.c.input.Ready) :
    turn s = (s.setInput (parseMgmtRequest s.c.input).input, false) ∧
      Stopped s.c.input (parseMgmtRequest s.c.input).input := by
  obtain ⟨hcmd, hstop⟩ := parseMgmtRequest_stopped hs h.following hready h.piece
  unfold turn
  dsimp only
  rw [if_pos hcmd]
  exact ⟨rfl, hstop⟩

theorem Stopped.ended {inp' : Input} (h : Stopped inp inp') (ho : Over inp) : Over inp' :=
  ⟨h.following, by rw [h.cond_eq, h.text_eq]; exact ho.piece⟩

theorem Going.turn (h : Going s) (hlast : QuitEnds s) :
    ((turn s).2 = true → Going (turn s).1 ∧ (turn s).1.c.input.state = none) ∧ Ends (turn s).1 := by
  by_cases hq : s.c.quitted = true
  · obtain ⟨hturn, hstop⟩ := turn_over h.sound (h.ended hq).1 (h.ended hq).2
    rw [hturn]
    refine ⟨fun hf => by (cases hf), (parseMgmtRequest_sound h.sound).1, h.word.same rfl rfl, ?_⟩
    intro _ _
    exact ⟨hstop.ended (h.ended hq).1, hstop.settled.imp_right fun hcur => ⟨hcur, h.pending⟩⟩
  have hq' : s.c.quitted = false := by simpa using hq
  obtain ⟨hsound, hfresh⟩ := parseMgmtRequest_sound h.sound
  have hcases := turn_cases (s := s) rfl rfl
  unfold QuitEnds at hlast
  generalize parseMgmtRequest s.c.input = p at hsound hfresh hcases hlast
  have hx := execute_executes p.cmd p.arg (s.setInput p.input)
  have hquit : p.cmd = .quit → (execute p.cmd p.arg (s.setInput p.input)).s.c.input = p.input := by
    intro hcmd
    rw [hcmd]
    rfl
  generalize execute p.cmd p.arg (s.setInput p.input) = r at hx hcases hquit
  have hflag : r.s.c.quitted = decide (p.cmd = .quit) := by
    rw [hx.quitted_eq, show (s.setInput p.input).c.quitted = false from hq', Bool.false_or]
  -- whatever becomes of the response
  have hact : p.cmd ≠ .incomplete → ∀ u : Session, u.c.input = r.s.c.input →
      u.c.quitted = r.s.c.quitted →
      u.log = r.s.log ++ [.acted ⟨p.cmd, r.arg, r.response⟩] →
      u.c.input.Sound ∧ LastWord u ∧ u.c.input.state = none ∧
        (u.c.quitted = true → Over u.c.input) := by
    intro hcmd u huinp huq hulog
    have hstate : u.c.input.state = none := by
      rw [huinp, hx.input_eq]
      exact hfresh hcmd
    refine ⟨?_, ?_, hstate, ?_⟩
    · rw [huinp, hx.input_eq]
      exact ⟨hsound.tok_le, hsound.cur_le, hsound.lim_le, hsound.fresh, hsound.marked⟩
    · refine h.word.acted (a := ⟨p.cmd, r.arg, r.response⟩) hq' ?_ ?_
      · rw [hulog, hx.log_eq, acts_append]
        rfl
      · intro hc
        rw [huq, hflag]
        exact decide_eq_true hc
    · intro hset
      rw [huq, hflag, decide_eq_true_eq] at hset
      rw [huinp, hquit hset]
      refine ⟨?_, hlast hset⟩
      intro ths hths
      rw [hfresh hcmd] at hths
      cases hths
  rcases hcases with ⟨hcmd, ht⟩ | ⟨hcmd, -, ht⟩ | ⟨hcmd, -, ht⟩
  · rw [ht]
    exact ⟨fun hf => by (cases hf), hsound, h.word.same rfl rfl, fun _ hset => absurd hset hq⟩
  · rw [ht]
    obtain ⟨h1, h2, h3, h4⟩ :=
      hact hcmd ((r.s.observe (.acted ⟨p.cmd, r.arg, r.response⟩)).setPending
      (writeResponse r.s.c.pendingBuf r.response)) rfl rfl rfl
    exact ⟨fun hf => by (cases hf), h1, h2, fun _ hset => ⟨h4 hset, .inl h3⟩⟩
  · rw [ht]
    obtain ⟨h1, h2, h3, h4⟩ := hact hcmd ((r.s.observe (.acted ⟨p.cmd, r.arg, r.response⟩)).setWrite
      (writeResponse r.s.c.writeBuf r.response)) rfl rfl rfl
    refine ⟨fun _ => ⟨⟨h1, h2, ?_, fun hset => ⟨h4 hset, .inl h3⟩⟩, h3⟩, h1, h2,
      fun _ hset => ⟨h4 hset, .inl h3⟩⟩
    exact (congrArg bufferReadPtr hx.pendingBuf_eq).trans h.pending

theorem Going.process (h : Going s)
    (hlast : TurnsMeet QuitEnds (s.c.input.lim - s.c.input.tok + 1) s) :
    Ends (processMgmtClient s) := by
  refine processMgmtClient_rule (P := fun s => Going s ∧ s.c.input.state = none) ?_ ?_ hlast ?_
  · rintro s ⟨hs, hstate⟩
    exact ⟨hs.sound, hs.word, fun _ hq => ⟨(hs.ended hq).1, .inl hstate⟩⟩
  · rintro s hC ⟨hs, -⟩
    exact ⟨(hs.turn hC).1, fun _ => (hs.turn hC).2⟩
  · intro hC
    exact ⟨(h.turn hC).1, fun _ => (h.turn hC).2⟩

/-! ## Events -/

theorem filled_sound (hs : s.c.input.Sound) (r : ReadResult) : (filled r s).c.input.Sound :=
  fillBuffer_sound hs r

/-- A read after QUIT leaves a piece of a line. -/
theorem Over.filled {r : ReadResult} (h : Over s.c.input) (hs : s.c.input.Sound) (hset : s.Settled)
    (hpiece : nextToken s.c.input.cond (s.c.input.text ++ r.bytes s.c.input.free) = none)
    (hnew : r.bytes s.c.input.free = [] → s.c.input.text = []) :
    Over (filled r s).c.input ∧ (filled r s).c.input.Ready := by
  have htext : (Socks5d.filled r s).c.input.text = s.c.input.text ++ r.bytes s.c.input.free :=
    fillBuffer_text hs r
  have hseen : (Socks5d.filled r s).c.input.seen = s.c.input.seen := fillBuffer_seen hs r
  have h1 := hs.tok_le
  have h2 := hs.cur_le
  refine ⟨⟨?_, ?_⟩, ?_⟩
  · intro ths hths
    rw [hseen]
    exact h.following ths hths
  · rw [htext]
    exact hpiece
  · refine hset.imp (fun hstate => hstate) fun hdone => ?_
    by_cases hnil : r.bytes s.c.input.free = []
    · have hlen := congrArg List.length (hnew hnil)
      rw [Input.text_length, List.length_nil] at hlen
      refine .inr ?_
      change s.c.input.cur - s.c.input.tok = s.c.input.tok - s.c.input.tok
      omega
    · have hpos := List.length_pos_iff.mpr hnil
      refine .inl ?_
      change s.c.input.cur - s.c.input.tok <
        s.c.input.lim - s.c.input.tok + (r.bytes s.c.input.free).length
      omega

theorem Ends.filled {r : ReadResult} (h : Ends s) (hopen : s.closed = false)
    (hpend : bufferReadPtr s.c.pendingBuf = [])
    (hread : s.c.quitted = true →
      nextToken s.c.input.cond (s.c.input.text ++ r.bytes s.c.input.free) = none ∧
      (r.bytes s.c.input.free = [] → s.c.input.text = [])) : Going (filled r s) := by
  refine ⟨filled_sound h.sound r, h.word.same (by simp [Socks5d.filled]) rfl, hpend, fun hq => ?_⟩
  obtain ⟨hover, hset⟩ := h.ended hopen hq
  exact hover.filled h.sound hset (hread hq).1 (hread hq).2

theorem Ends.copied (h : Ends s) (hopen : s.closed = false)
    (hfit : (bufferReadPtr s.c.pendingBuf).length ≤ bufferWritePtr s.c.writeBuf)
    (hpend : bufferReadPtr s.c.pendingBuf ≠ []) : Going (copyFromBuf s hfit) := by
  refine ⟨h.sound, h.word.same rfl rfl, by simp [copyFromBuf], fun hq => ?_⟩
  obtain ⟨hover, hset⟩ := h.ended hopen hq
  exact ⟨hover, .inl (hset.resolve_right fun hnil => hpend hnil.2)⟩

/-- What is said of a session does not depend on its output. -/
theorem Ends.same (h : Ends s) (hinp : t.c.input = s.c.input) (hq : t.c.quitted = s.c.quitted)
    (hacts : acts t.log = acts s.log) (hclosed : t.closed = false → s.closed = false)
    (hpend : t.closed = false → bufferReadPtr t.c.pendingBuf = bufferReadPtr s.c.pendingBuf) :
    Ends t := by
  refine ⟨by rw [hinp]; exact h.sound, h.word.same hacts hq, fun hopen hset => ?_⟩
  rw [hq] at hset
  have hover := h.ended (hclosed hopen) hset
  unfold Session.Settled at hover ⊢
  rw [hinp, hpend hopen]
  exact hover

/-- The loop is entered from a write event only when something was pending. -/
theorem loopStart_write {r : SendResult} (h : loopStart s (.write r) = some t) :
    bufferReadPtr s.c.pendingBuf ≠ [] := by
  rw [loopStart] at h
  split_ifs at h with hno
  rw [← bufferCanRead_iff]
  simp only [Bool.or_eq_true, not_or, Bool.not_eq_true, Bool.not_eq_false'] at hno
  exact hno.2

theorem idle_open (h : s.idle = false) : s.closed = false := by
  unfold Session.idle at h
  rw [Bool.or_eq_false_iff] at h
  exact h.1

theorem Going.still (h : Going s) (hq : s.c.quitted = true) :
    Undisturbed s (processMgmtClient s) := by
  obtain ⟨hturn, hstop⟩ := turn_over h.sound (h.ended hq).1 (h.ended hq).2
  rw [processMgmtClient, processLoop, hturn]
  exact ⟨rfl, .refl _, hstop.cond_eq, rfl⟩

theorem Ends.sendOut {s : Session} (h : Ends s) (r : SendResult) : Ends (sendOut r s) := by
  have hsend : Ends (afterSend r s) :=
    h.same rfl rfl (by simp [afterSend]) (fun h => h) fun _ => rfl
  rcases sendOut_cases r s with heq | ⟨heq, -⟩
  · rw [heq]
    exact hsend
  · rw [heq]
    exact hsend.same rfl rfl rfl (fun hf => by (cases hf)) fun hf => by (cases hf)

/-- An event that the condition allows. -/
theorem Ends.step (h : Ends s) {ev : MgmtEvent} (hev : QuitIsLast s ev) :
    Ends (sessionStep s ev) ∧
      ((∀ e, ev ≠ .server e) → s.c.quitted = true → Undisturbed s (sessionStep s ev)) := by
  cases ev with
  | read r =>
    rcases read_cases r s with heq | ⟨hidle, hpend, ⟨-, heq⟩ | ⟨-, hloop, heq⟩⟩
    · rw [heq]
      exact ⟨h, fun _ _ => .refl s⟩
    · rw [heq]
      have hacts := (Undisturbed.filled s r).acts_eq
      refine ⟨⟨filled_sound h.sound r, h.word.same hacts rfl, fun hf => by (cases hf)⟩, ?_⟩
      exact fun _ _ => (Undisturbed.filled s r).trans (.unregister _)
    · have hgoing : Going (Socks5d.filled r s) :=
        h.filled (idle_open hidle) hpend (hev.2 (by rw [hloop]; rfl))
      rw [heq]
      refine ⟨(hgoing.process (hev.1 _ hloop)).same rfl rfl rfl (fun h => h) fun _ => rfl, ?_⟩
      intro _ hq
      have hstill := (Undisturbed.filled s r).trans (hgoing.still hq)
      exact ⟨hstill.acts_eq, hstill.settings, hstill.cond_eq, hstill.stream_eq⟩
  | write r =>
    rcases write_cases r s with heq | heq | ⟨hidle, -, heq, ⟨hsame, -⟩ | ⟨hfit, hloop, hproc⟩⟩
    · rw [heq]
      exact ⟨h, fun _ _ => .refl s⟩
    · rw [heq]
      exact ⟨h.same rfl rfl rfl (fun h => h) fun _ => rfl, fun _ _ => ⟨rfl, .refl _, rfl, rfl⟩⟩
    · rw [heq, hsame]
      exact ⟨h.sendOut r, fun _ _ => .sendOut s r⟩
    · have hgoing : Going (copyFromBuf s hfit) :=
        h.copied (idle_open hidle) hfit (loopStart_write hloop)
      rw [heq, hproc]
      refine ⟨(hgoing.process (hev.1 _ hloop)).sendOut r, fun _ hq => ?_⟩
      exact ((Undisturbed.copied s hfit).trans (hgoing.still hq)).trans (.sendOut _ r)
  | server e =>
    exact ⟨h.same rfl rfl rfl (fun h => h) fun _ => rfl, fun hno => absurd rfl (hno e)⟩

theorem openSession_ends (server : Server) (tokens : List (List UInt8)) (sock : ℤ) (raw : RawMgmt) :
    Ends (openSession server tokens sock raw) := by
  refine ⟨(openSession_segmented server tokens sock raw).1.sound, ?_, fun _ hq => by (cases hq)⟩
  intro l a r hl
  cases l <;> cases hl

end Socks5d
