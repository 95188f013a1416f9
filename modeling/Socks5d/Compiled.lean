import Socks5d.Settings
import Socks5d.Translation

/-! # Sessions with the generated scanner

`Session` scans with the rules. Here the same handlers call the function that was generated from
them, on the memory that the commands write to between its calls. -/

namespace Socks5d
namespace Automaton
open Memory EventRun

/-- A management connection and the server. The lexer in `s` is not used: `input` is in its
place. -/
structure Machine where
  s : Session
  input : Input

/-- The session with the memory of the lexer, for the commands, which look at nothing else of
it. -/
def Machine.view (x : Machine) : Session := x.s.setInput x.input.rules

/-- The body of the loop of `processMgmtClient`, after the call of the parser. -/
def Machine.answer (x : Machine) (p : Parsed) : Machine × Bool :=
  let x := { x with input := p.input }
  if p.cmd = .incomplete then (x, false)
  else
    let space := bufferWritePtr x.s.c.writeBuf
    let r := execute p.cmd p.arg x.view
    let s := r.s.observe (.acted ⟨p.cmd, r.arg, r.response⟩)
    let input := { x.input with buf := s.c.input.buf, cond := s.c.input.cond }
    if space < r.responseLen then
      (⟨s.setPending (writeResponse s.c.pendingBuf r.response), input⟩, false)
    else (⟨s.setWrite (writeResponse s.c.writeBuf r.response), input⟩, true)

def turn (x : Machine) : Option (Machine × Bool) := (parseMgmtRequest x.input).map x.answer

def processLoop : ℕ → Machine → Option Machine
  | 0, x => some x
  | n + 1, x => (turn x).bind fun t => if t.2 then processLoop n t.1 else some t.1

def processMgmtClient (x : Machine) : Option Machine :=
  processLoop (x.input.lim - x.input.tok + 1) x

def handleMgmtRead (r : ReadResult) (x : Machine) : Option Machine :=
  if bufferCanRead x.s.c.pendingBuf then some x
  else
    let f := fillBuffer x.input r
    let x : Machine := ⟨x.s.observe (.received (r.bytes x.input.free)), f.1⟩
    if checkEOF f.2 r.isAgain then some { x with s := x.s.unregister }
    else (processMgmtClient x).map fun x =>
      { x with s := { x.s with interest := opWrite ||| opRead } }

def unblock (x : Machine) : Option Machine :=
  if bufferCanRead x.s.c.pendingBuf then
    if h : (bufferReadPtr x.s.c.pendingBuf).length ≤ bufferWritePtr x.s.c.writeBuf then
      processMgmtClient { x with s := copyFromBuf x.s h }
    else some x
  else some x

def handleMgmtWrite (r : SendResult) (x : Machine) : Option Machine :=
  if !bufferCanRead x.s.c.writeBuf && !bufferCanRead x.s.c.pendingBuf then
    some { x with s := { x.s with interest := opRead } }
  else (unblock x).map fun x => { x with s := sendOut r x.s }

/-- Nothing is left once a call does not come to an end. -/
def machineStep : Option Machine → MgmtEvent → Option Machine
  | none, _ => none
  | some x, .read r =>
    if x.s.idle || !x.s.interest.read then some x else handleMgmtRead r x
  | some x, .write r =>
    if x.s.idle || !x.s.interest.write then some x else handleMgmtWrite r x
  | some x, .server ev => some { x with s := { x.s with server := step x.s.server ev } }

/-- A new connection. The memory of `yyt1` and `yyt2` is not written before it is used. -/
def openMachine (server : Server) (tokens : List (List UInt8)) (sock : ℤ) (raw : RawMgmt)
    (yyt1 yyt2 : ℕ) : Machine :=
  ⟨openSession server tokens sock raw,
    initState ⟨raw.read, mgmtBuffsize, 0, 0, 0, 0, none, .pass, yyt1, yyt2⟩⟩

/-! ## What commands do to the memory -/

section
variable {m : ℕ → UInt8} {i n k : ℕ} {s : Session} {inp inp' : Socks5d.Input}

/-- A string ends at the first zero. -/
theorem cString_slice_length (hk : k < n) (hz : m (i + k) = 0) :
    (cString (slice m i n)).length ≤ k := by
  by_contra hlt
  rw [Nat.not_le] at hlt
  have hle : cString (slice m i n) <+: slice m i n := List.takeWhile_prefix _
  have hget := List.prefix_iff_getElem?.mp hle k hlt
  rw [slice_getElem? hk, hz, Option.some_inj] at hget
  exact cString_no_zero _ (hget ▸ List.getElem_mem hlt)

/-- The text ends in a zero. -/
structure Ended (inp : Socks5d.Input) : Prop where
  lim_le : inp.lim ≤ inp.bufSize
  sentinel : inp.buf inp.lim = 0

theorem store_zero {a b : ℕ} (h : m a = 0) : store m b [0] a = 0 := by
  by_cases hab : a = b
  · subst hab
    simp [store]
  · rw [store_outside (by rw [List.length_singleton]; omega), h]

theorem Ended.terminate (h : Ended s.c.input) (arge : ℕ) : Ended (s.terminate arge).c.input :=
  ⟨h.lim_le, store_zero h.sentinel⟩

/-- A string that is changed in place lies before the zero, or behind it. -/
theorem Ended.store (h : Ended inp) {args : ℕ} {bs : List UInt8}
    (hlen : bs.length = (inp.argText args).length) :
    Ended { inp with buf := store inp.buf args bs } := by
  have hlim := h.lim_le
  refine ⟨h.lim_le, ?_⟩
  change Memory.store inp.buf args bs inp.lim = 0
  rw [store_outside, h.sentinel]
  by_cases hargs : inp.lim < args
  · exact .inl hargs
  · have hback : args + (inp.lim - args) = inp.lim := by omega
    have hle : (inp.argText args).length ≤ inp.lim - args :=
      cString_slice_length (by omega) (by rw [hback]; exact h.sentinel)
    omega

theorem Ended.execute (h : Ended s.c.input) (cmd : MgmtCommand) (arg : Option (ℕ × ℕ)) :
    Ended (execute cmd arg s).s.c.input := by
  unfold Socks5d.execute
  cases cmd with
  | token =>
    dsimp only [executeToken]
    split_ifs
    · exact ⟨h.lim_le, (h.terminate _).sentinel⟩
    · exact h.terminate _
  | setBuffsize =>
    dsimp only [executeSetBuffsize]
    split_ifs
    · exact h.terminate _
    · exact h.terminate _
  | setDissectorStatus =>
    have hlen : (((s.terminate (arg.getD (0, 0)).2).c.input.argText (arg.getD (0, 0)).1).map
        tolower).length = _ := List.length_map tolower
    have hlower := (h.terminate (arg.getD (0, 0)).2).store hlen
    dsimp only [executeSetDissector]
    split_ifs
    · exact hlower
    · exact hlower
    · exact hlower
  | addUser =>
    have hend := h.terminate (arg.getD (0, 0)).2
    dsimp only [executeAddUser]
    by_cases hcolon : colon ∈ (s.terminate (arg.getD (0, 0)).2).c.input.argText
        (arg.getD (0, 0)).1
    · rw [if_pos hcolon]
      exact ⟨hend.lim_le, store_zero hend.sentinel⟩
    · rw [if_neg hcolon]
      exact hend
  | _ => exact h

/-! ## Turns -/

theorem parse_finished {inp : Input} {p : Parsed} (h : parseMgmtRequest inp = some p)
    (hcmd : p.cmd ≠ .incomplete) : p.input.mar = p.input.cur ∧ p.input.state = none := by
  obtain ⟨st, -, hout⟩ := Option.bind_eq_some_iff.mp h
  cases st with
  | result a m =>
    cases hout
    exact ⟨rfl, rfl⟩
  | incomplete k m =>
    cases hout
    exact absurd rfl hcmd
  | goes q m => cases hout

theorem rules_finished (hcmd : (Socks5d.parseMgmtRequest inp).cmd ≠ .incomplete) :
    (Socks5d.parseMgmtRequest inp).input.mar = (Socks5d.parseMgmtRequest inp).input.cur ∧
      (Socks5d.parseMgmtRequest inp).input.state = none := by
  have hscan : ∀ ths, (scan ths inp).cmd ≠ .incomplete →
      (scan ths inp).input.mar = (scan ths inp).input.cur ∧ (scan ths inp).input.state = none := by
    intro ths
    unfold scan
    cases Scanner.run ths inp.cur (slice inp.buf inp.cur (inp.lim - inp.cur)) with
    | accept th cur => exact fun _ => ⟨rfl, rfl⟩
    | dead => exact fun _ => ⟨rfl, rfl⟩
    | more ths' => exact fun hne => absurd rfl hne
  unfold Socks5d.parseMgmtRequest at hcmd ⊢
  cases hst : inp.state with
  | none =>
    rw [hst] at hcmd
    exact hscan _ hcmd
  | some ths =>
    rw [hst] at hcmd
    dsimp only at hcmd ⊢
    split_ifs at hcmd ⊢
    · exact ⟨rfl, rfl⟩
    · exact ⟨rfl, rfl⟩
    · exact hscan ths hcmd

/-- Behind a token both of them start anew. -/
theorem Follows.rules_eq {p : Parsed} (h : Follows p.input (Socks5d.parseMgmtRequest inp').input)
    (hmar : p.input.mar = p.input.cur)
    (hcmd : (Socks5d.parseMgmtRequest inp').cmd ≠ .incomplete) :
    p.input.rules = (Socks5d.parseMgmtRequest inp').input := by
  obtain ⟨hmar', hstate'⟩ := rules_finished hcmd
  rw [Input.rules, hmar, h.buf, h.bufSize, h.lim, h.cur, h.tok, h.cond, ← hstate']
  exact congrArg (fun mar => { (Socks5d.parseMgmtRequest inp').input with mar := mar }) hmar'.symm

theorem Follows.executed {q : Input} {t : Socks5d.Input} (h : Follows q t)
    (hstate : q.state = none) (hstate' : t.state = none) (buf : ℕ → UInt8) (cond : Cond)
    (hend : buf t.lim = 0) :
    Follows { q with buf := buf, cond := cond } { t with buf := buf, cond := cond } := by
  refine ⟨rfl, h.bufSize, h.lim, h.cur, h.tok, rfl, hend,
    ⟨h.sound.tok_le, h.sound.cur_le, h.sound.lim_le, h.sound.fresh, h.sound.marked⟩, ?_⟩
  change Resumes _ t.state
  rw [hstate']
  exact .fresh hstate

/-- But for the lexer they are in the same state, and the lexers follow each other. -/
structure Corresponds (x : Machine) (s : Session) : Prop where
  rest : x.s.setInput s.c.input = s
  follows : Follows x.input s.c.input

variable {x : Machine}

theorem Corresponds.setInput_eq (h : Corresponds x s) (inp : Socks5d.Input) :
    x.s.setInput inp = s.setInput inp := by
  rw [← h.rest]
  rfl

theorem Corresponds.write (h : Corresponds x s) : x.s.c.writeBuf = s.c.writeBuf := by
  rw [← h.rest]
  rfl

theorem Corresponds.pending (h : Corresponds x s) : x.s.c.pendingBuf = s.c.pendingBuf := by
  rw [← h.rest]
  rfl

theorem Corresponds.turn (h : Corresponds x s) :
    ∃ t, Automaton.turn x = some t ∧ t.2 = (Socks5d.turn s).2 ∧
      Corresponds t.1 (Socks5d.turn s).1 := by
  obtain ⟨p, hp, hanswer, hfollows⟩ := h.follows.parse
  have hcmd : p.cmd = (Socks5d.parseMgmtRequest s.c.input).cmd := congrArg Answer.cmd hanswer
  have harg : p.arg = (Socks5d.parseMgmtRequest s.c.input).arg := congrArg Answer.arg hanswer
  refine ⟨x.answer p, by rw [Automaton.turn, hp, Option.map_some], ?_⟩
  rw [Socks5d.turn, Machine.answer, hcmd, harg]
  dsimp only
  by_cases hinc : (Socks5d.parseMgmtRequest s.c.input).cmd = .incomplete
  · rw [if_pos hinc, if_pos hinc]
    exact ⟨rfl, h.setInput_eq _, hfollows⟩
  · rw [if_neg hinc, if_neg hinc]
    obtain ⟨hmar, hstate⟩ := parse_finished hp (hcmd ▸ hinc)
    have hstate' := (rules_finished hinc).2
    have hview : Machine.view { x with input := p.input } =
        s.setInput (Socks5d.parseMgmtRequest s.c.input).input := by
      rw [Machine.view, hfollows.rules_eq hmar hinc]
      exact h.setInput_eq _
    rw [hview, h.write]
    generalize Socks5d.parseMgmtRequest s.c.input = q at hfollows hstate' ⊢
    have hended : Ended (s.setInput q.input).c.input :=
      ⟨hfollows.sound.lim_le, hfollows.sentinel⟩
    have hx := (execute_executes q.cmd q.arg (s.setInput q.input)).input_eq
    have hend := hended.execute q.cmd q.arg
    generalize execute q.cmd q.arg (s.setInput q.input) = r at hx hend ⊢
    have hlim : r.s.c.input.lim = q.input.lim := by
      rw [hx]
      rfl
    have hsame : { q.input with buf := r.s.c.input.buf, cond := r.s.c.input.cond } =
        r.s.c.input := hx.symm
    have hnext := hfollows.executed hstate hstate' r.s.c.input.buf r.s.c.input.cond
      (by rw [← hlim]; exact hend.sentinel)
    rw [hsame] at hnext
    have hspace : bufferWritePtr (s.setInput q.input).c.writeBuf =
        bufferWritePtr s.c.writeBuf := rfl
    rw [hspace]
    split_ifs
    · exact ⟨rfl, rfl, hnext⟩
    · exact ⟨rfl, rfl, hnext⟩

theorem Corresponds.loop (h : Corresponds x s) (n : ℕ) :
    ∃ y, Automaton.processLoop n x = some y ∧ Corresponds y (Socks5d.processLoop n s) := by
  induction n generalizing x s with
  | zero => exact ⟨x, rfl, h⟩
  | succ n ih =>
    obtain ⟨t, ht, hagain, hnext⟩ := h.turn
    rw [Automaton.processLoop, Socks5d.processLoop, ht, Option.bind_some, hagain]
    split_ifs
    · exact ih hnext
    · exact ⟨t.1, rfl, hnext⟩

theorem Corresponds.process (h : Corresponds x s) :
    ∃ y, Automaton.processMgmtClient x = some y ∧
      Corresponds y (Socks5d.processMgmtClient s) := by
  rw [Automaton.processMgmtClient, Socks5d.processMgmtClient, h.follows.lim, h.follows.tok]
  exact h.loop _

/-! ## Handlers -/

/-- A change outside of the lexer. -/
theorem Corresponds.outside (h : Corresponds x s) {f : Session → Session}
    (hf : ∀ t inp, f (t.setInput inp) = (f t).setInput inp) (hinput : (f s).c.input = s.c.input) :
    Corresponds { x with s := f x.s } (f s) := by
  refine ⟨?_, ?_⟩
  · rw [hinput, ← hf, h.rest]
  · rw [hinput]
    exact h.follows

theorem Corresponds.reads (h : Corresponds x s) (r : ReadResult) :
    ∃ y, Automaton.handleMgmtRead r x = some y ∧ Corresponds y (Socks5d.handleMgmtRead r s) := by
  rw [Automaton.handleMgmtRead, Socks5d.handleMgmtRead, h.pending]
  by_cases hpend : bufferCanRead s.c.pendingBuf = true
  · rw [if_pos hpend, if_pos hpend]
    exact ⟨x, rfl, h⟩
  · rw [if_neg hpend, if_neg hpend]
    obtain ⟨hcount, hfill⟩ := h.follows.fill r
    have hfree : x.input.free = s.c.input.free := by
      rw [Input.free, Socks5d.Input.free, h.follows.bufSize, h.follows.lim, h.follows.tok]
    have hnext : Corresponds
        ⟨x.s.observe (.received (r.bytes x.input.free)), (fillBuffer x.input r).1⟩
        ((s.setInput (Socks5d.fillBuffer s.c.input r).1).observe
          (.received (r.bytes s.c.input.free))) := by
      refine ⟨?_, hfill⟩
      rw [hfree, ← h.rest]
      rfl
    dsimp only
    rw [hcount]
    split_ifs
    · exact ⟨_, rfl, hnext.outside (f := Session.unregister) (fun _ _ => rfl) rfl⟩
    · obtain ⟨y, hy, hdone⟩ := hnext.process
      rw [hy]
      exact ⟨_, rfl, hdone.outside (f := fun s => { s with interest := opWrite ||| opRead })
        (fun _ _ => rfl) rfl⟩

theorem Follows.unblock (h : Follows x.input inp) : ∃ y, Automaton.unblock x = some y ∧
    Corresponds y (Socks5d.unblock (x.s.setInput inp)) := by
  have hsame : Corresponds x (x.s.setInput inp) := ⟨rfl, h⟩
  unfold Automaton.unblock Socks5d.unblock
  change ∃ y, _ = some y ∧ Corresponds y (if bufferCanRead x.s.c.pendingBuf then
    if hfit : (bufferReadPtr x.s.c.pendingBuf).length ≤ bufferWritePtr x.s.c.writeBuf then
      Socks5d.processMgmtClient (copyFromBuf (x.s.setInput inp) hfit)
    else x.s.setInput inp
  else x.s.setInput inp)
  split_ifs with hpend hfit
  · have hcopied : Corresponds { x with s := copyFromBuf x.s hfit }
        (copyFromBuf (x.s.setInput inp) hfit) := ⟨rfl, h⟩
    exact hcopied.process
  · exact ⟨x, rfl, hsame⟩
  · exact ⟨x, rfl, hsame⟩

theorem Corresponds.unblocked (h : Corresponds x s) :
    ∃ y, Automaton.unblock x = some y ∧ Corresponds y (Socks5d.unblock s) := by
  have hnext := h.follows.unblock
  rwa [h.rest] at hnext

theorem sendOut_setInput (r : SendResult) (s : Session) (inp : Socks5d.Input) :
    sendOut r (s.setInput inp) = (sendOut r s).setInput inp := by
  unfold sendOut
  dsimp only
  split_ifs
  all_goals first | rfl | contradiction

theorem sendOut_input (r : SendResult) (s : Session) : (sendOut r s).c.input = s.c.input := by
  unfold sendOut
  dsimp only
  split_ifs
  · rfl
  · rfl
  · rfl
  · rfl

theorem Corresponds.writes (h : Corresponds x s) (r : SendResult) :
    ∃ y, Automaton.handleMgmtWrite r x = some y ∧ Corresponds y (Socks5d.handleMgmtWrite r s) := by
  rw [Automaton.handleMgmtWrite, Socks5d.handleMgmtWrite, h.pending, h.write]
  split_ifs
  · exact ⟨_, rfl, h.outside (f := fun s => { s with interest := opRead }) (fun _ _ => rfl) rfl⟩
  · obtain ⟨y, hy, hdone⟩ := h.unblocked
    rw [hy]
    exact ⟨_, rfl, hdone.outside (sendOut_setInput r) (sendOut_input r _)⟩

end

/-! ## Runs -/

/-- The machine is there, and it is where the session is. -/
structure Keeps (o : Option Machine) (s : Session) : Prop where
  keeps : ∃ x, o = some x ∧ Corresponds x s

theorem Keeps.step {o : Option Machine} {s : Session} (h : Keeps o s) (ev : MgmtEvent) :
    Keeps (machineStep o ev) (sessionStep s ev) := by
  obtain ⟨x, rfl, hx⟩ := h.keeps
  have hidle : x.s.idle = s.idle := by
    rw [← hx.rest]
    rfl
  have hinterest : x.s.interest = s.interest := by
    rw [← hx.rest]
    rfl
  cases ev with
  | read r =>
    unfold machineStep sessionStep
    dsimp only
    rw [hidle, hinterest]
    split_ifs
    · exact ⟨x, rfl, hx⟩
    · exact ⟨hx.reads r⟩
  | write r =>
    unfold machineStep sessionStep
    dsimp only
    rw [hidle, hinterest]
    split_ifs
    · exact ⟨x, rfl, hx⟩
    · exact ⟨hx.writes r⟩
  | server ev =>
    exact ⟨_, rfl, hx.outside (f := fun s => { s with server := Socks5d.step s.server ev })
      (fun _ _ => rfl) rfl⟩

/-- Whatever a connection receives and sends, and whoever else acts: with the generated scanner,
its handlers come to an end and do what they do with the rules. The server is the same, and so is
all that is sent and answered, and the text that waits in the memory of the lexer. -/
theorem compiled_sessions_are_sessions (server : Server) (tokens : List (List UInt8)) (sock : ℤ)
    (raw : RawMgmt) (yyt1 yyt2 : ℕ) (evs : List MgmtEvent) :
    let s := exec sessionStep (openSession server tokens sock raw) evs
    ∃ x, exec machineStep (some (openMachine server tokens sock raw yyt1 yyt2)) evs = some x ∧
      x.s.setInput s.c.input = s ∧ x.input.buf = s.c.input.buf ∧ x.input.tok = s.c.input.tok ∧
      x.input.cur = s.c.input.cur ∧ x.input.lim = s.c.input.lim ∧
      x.input.cond = s.c.input.cond := by
  intro s
  have h0 : Keeps (some (openMachine server tokens sock raw yyt1 yyt2))
      (openSession server tokens sock raw) := ⟨_, rfl, rfl, initState_follows _⟩
  have hall : Along sessionStep (fun _ _ => True) (openSession server tokens sock raw) evs :=
    along_of_forall fun _ _ => trivial
  have hrun := exec_simulation (R := Keeps) h0 (fun _ _ ev _ h => h.step ev) hall
  obtain ⟨x, hx, hsame⟩ := hrun.keeps
  exact ⟨x, hx, hsame.rest, hsame.follows.buf, hsame.follows.tok, hsame.follows.cur,
    hsame.follows.lim, hsame.follows.cond⟩

end Automaton
end Socks5d
