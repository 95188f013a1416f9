import Socks5d.Invariant
import Socks5d.Quitting

/-! # Every command is answered

What was sent and what waits to be sent is the greeting and the responses, in the order
of the commands. The length by which `processMgmtClient` chooses the buffer is that of
the response for every command but USERS. -/

namespace Socks5d
open EventRun

variable {s t : Session} {b : Buffer} {text : List UInt8}

/-- The texts that were prepared in `response_buf`, in order. -/
def answers (log : List MgmtObs) : List UInt8 := ((acts log).map Act.response).flatten

/-! ## The server -/

/-- The server, with a user table that `add_user` has filled. -/
structure Sane (sv : Server) : Prop where
  inv : Inv sv
  users : Bounded sv.w.users

theorem Sane.move {sv sv' : Server} (h : Sane sv) (hm : Move anyWrite sv sv') : Sane sv' := by
  obtain ⟨userpasses, hu⟩ := h.inv.move_users hm
  refine ⟨h.inv.move hm, ?_⟩
  rw [hu]
  exact addUsers_bounded h.users userpasses

theorem Sane.step {sv : Server} (h : Sane sv) (ev : Event) : Sane (step sv ev) := by
  have hok : WriteOk anyWrite sv ev := by
    cases ev with
    | dispatch => exact fun _ _ _ _ _ _ _ _ => trivial
    | _ => trivial
  obtain ⟨sv', hm, hm'⟩ := step_moves h.inv ev hok
  exact (h.move hm).move hm'

theorem boot_sane (userpasses : List (List UInt8)) (masters monitors : List ℤ) (evs : List Event) :
    Sane (exec step (boot (addUsers [] userpasses) masters monitors) evs) := by
  refine exec_invariant ⟨boot_inv _ _ _, ?_⟩ fun _ ev h => h.step ev
  exact addUsers_bounded ⟨Nat.zero_le _, by simp⟩ userpasses

/-- A command changes no more of the server than its settings. -/
theorem execute_move (cmd : MgmtCommand) (arg : Option (ℕ × ℕ)) (s : Session) :
    Move anyWrite s.server (execute cmd arg s).s.server := by
  unfold execute
  cases cmd with
  | token =>
    dsimp only [executeToken]
    split_ifs
    · exact .skip
    · exact .skip
  | setBuffsize =>
    dsimp only [executeSetBuffsize]
    split_ifs with hsize
    · exact .background _ ⟨rfl, rfl, rfl, ⟨[], rfl⟩, fun _ => hsize.1, rfl, rfl, rfl⟩
    · exact .skip
  | setDissectorStatus =>
    dsimp only [executeSetDissector]
    split_ifs
    · exact .background _ ⟨rfl, rfl, rfl, ⟨[], rfl⟩, fun h => h, rfl, rfl, rfl⟩
    · exact .background _ ⟨rfl, rfl, rfl, ⟨[], rfl⟩, fun h => h, rfl, rfl, rfl⟩
    · exact .skip
  | addUser =>
    dsimp only [executeAddUser]
    split_ifs
    all_goals exact .background _ ⟨rfl, rfl, rfl, ⟨[_], rfl⟩, fun h => h, rfl, rfl, rfl⟩
  | _ => exact .skip

/-! ## Responses -/

/-- `snprintf` has returned at least the length of what it left. -/
def Printed (r : Executed) : Prop :=
  r.response.length ≤ r.responseLen ∧ r.response.length ≤ mgmtBuffsize

theorem snprintf_printed (s : Session) (arg : Option (List UInt8)) (text : List UInt8) :
    Printed (snprintf s arg text) := by
  have hlen : (text.take (mgmtBuffsize - 1)).length = min (mgmtBuffsize - 1) text.length :=
    List.length_take
  refine ⟨?_, ?_⟩
  · change (text.take (mgmtBuffsize - 1)).length ≤ text.length
    omega
  · change (text.take (mgmtBuffsize - 1)).length ≤ mgmtBuffsize
    omega

theorem execute_printed {cmd : MgmtCommand} (hcmd : cmd ≠ .users) (arg : Option (ℕ × ℕ))
    (s : Session) :
    Printed (execute cmd arg s) := by
  unfold execute
  cases cmd with
  | users => exact absurd rfl hcmd
  | incomplete => exact ⟨Nat.le_refl _, Nat.zero_le _⟩
  | token =>
    dsimp only [executeToken]
    split_ifs
    · exact snprintf_printed _ _ _
    · exact snprintf_printed _ _ _
  | setBuffsize =>
    dsimp only [executeSetBuffsize]
    split_ifs
    · exact snprintf_printed _ _ _
    · exact snprintf_printed _ _ _
  | setDissectorStatus =>
    dsimp only [executeSetDissector]
    split_ifs
    · exact snprintf_printed _ _ _
    · exact snprintf_printed _ _ _
    · exact snprintf_printed _ _ _
  | _ => exact snprintf_printed _ _ _

/-- The listing always fits an empty buffer. -/
theorem usersText_length {users : UserTable} (h : Bounded users) :
    (usersText users).length < mgmtBuffsize := by
  have hlines : ∀ us : UserTable, (∀ u ∈ us, u.username.length < maxUserLen) →
      (us.map fun u => u.username ++ lineDelimiter).flatten.length ≤ us.length * 11 := by
    intro us
    induction us with
    | nil => intro _; exact Nat.le_refl _
    | cons u us ih =>
      intro hus
      have hu := hus u List.mem_cons_self
      have hrest := ih fun v hv => hus v (List.mem_cons_of_mem u hv)
      have hdelim : lineDelimiter.length = 2 := rfl
      simp only [List.map_cons, List.flatten_cons, List.length_append, List.length_cons, hdelim]
      change u.username.length < 10 at hu
      omega
  have hbody := hlines users h.name
  have hcount : users.length ≤ 20 := h.count
  have hhead : usersHead.length = 23 := by decide
  have htail : (asc ".\r\n").length = 3 := by decide
  have hsize : mgmtBuffsize = 2048 := rfl
  simp only [usersText, List.length_append, hhead, htail]
  omega

/-! ## Buffers -/

/-- A buffer of a management client. -/
structure Spacious (b : Buffer) : Prop where
  limit : b.limit = mgmtBuffsize
  rewound : b.Rewound

theorem Spacious.free (h : Spacious b) (hnil : bufferReadPtr b = []) :
    bufferWritePtr b = mgmtBuffsize :=
  (h.rewound.free hnil).trans h.limit

theorem Spacious.writeResponse (h : Spacious b) (hfit : text.length ≤ bufferWritePtr b) :
    Spacious (writeResponse b text) ∧
      bufferReadPtr (writeResponse b text) = bufferReadPtr b ++ text := by
  rw [Socks5d.writeResponse, dif_pos hfit]
  exact ⟨⟨h.limit, h.rewound.put hfit⟩, bufferPut_readPtr hfit⟩

theorem Spacious.writeToSock (h : Spacious b) (r : SendResult) : Spacious (writeToSock r b).1 := by
  cases r with
  | sent n =>
    have hle := accepted_le (.sent n) (b.write - b.read)
    exact ⟨(bufferReadAdv_limit hle).trans h.limit, bufferReadAdv_rewound hle⟩
  | again => exact h
  | error => exact h

/-- A send that leaves nothing has emptied the buffer. -/
theorem writeToSock_drained {r : SendResult} (h : (writeToSock r b).2 = 0) :
    bufferReadPtr (writeToSock r b).1 = [] := by
  rw [writeToSock_readPtr, List.drop_eq_nil_iff, bufferReadPtr_length]
  cases r with
  | sent n =>
    have hzero :
        ((b.write - b.read : ℕ) : ℤ) - ((SendResult.sent n).accepted (b.write - b.read) : ℕ) = 0 :=
        h
    omega
  | again => cases h
  | error => cases h

theorem writeToSock_nonneg (n : ℕ) (b : Buffer) : 0 ≤ (writeToSock (.sent n) b).2 := by
  have hle := accepted_le (.sent n) (b.write - b.read)
  change (0 : ℤ) ≤ ((b.write - b.read : ℕ) : ℤ) -
    ((SendResult.sent n).accepted (b.write - b.read) : ℕ)
  omega

/-! ## The condition -/

/-- The peer does not leave. -/
def PeerStays : MgmtEvent → Prop
  | .read .error | .read (.data []) | .write .error => False
  | _ => True

/-- Where the first line of the listing has room, all of it has. -/
def UsersFit (s : Session) : Prop :=
  (parseMgmtRequest s.c.input).cmd = .users → usersHead.length ≤ bufferWritePtr s.c.writeBuf →
    (usersText s.server.w.users).length ≤ bufferWritePtr s.c.writeBuf

instance : DecidablePred UsersFit := fun _ => inferInstanceAs (Decidable (_ = _ → _ ≤ _ → _ ≤ _))

/-- With a full input buffer, `fillBuffer` reads nothing, which is taken for the end. -/
def RoomToRead (s : Session) (r : ReadResult) : Prop :=
  bufferReadPtr s.c.pendingBuf = [] → s.c.input.free = 0 → r.isAgain = false →
    bufferReadPtr s.c.writeBuf = []

/-- A send does not say `EAGAIN`, and after QUIT it does not empty `write_buf` while a
response is pending. -/
def SendSafe (s : Session) (r : SendResult) : Prop :=
  bufferReadPtr s.c.writeBuf ≠ [] ∨ bufferReadPtr s.c.pendingBuf ≠ [] →
    r ≠ .again ∧ ((unblock s).c.quitted = true → (writeToSock r (unblock s).c.writeBuf).2 = 0 →
      bufferReadPtr (unblock s).c.pendingBuf = [])

def Delivers (s : Session) (ev : MgmtEvent) : Prop :=
  EventMeets UsersFit s ev ∧ match ev with
    | .read r => s.idle = false → RoomToRead s r
    | .write r => s.idle = false → SendSafe s r
    | .server _ => True

instance (s : Session) (ev : MgmtEvent) : Decidable (Delivers s ev) :=
  match ev with
  | .read r => inferInstanceAs (Decidable (EventMeets UsersFit s (.read r) ∧
      (s.idle = false → _ = [] → s.c.input.free = 0 → r.isAgain = false → _ = [])))
  | .write r => inferInstanceAs (Decidable (EventMeets UsersFit s (.write r) ∧ (s.idle = false →
      _ ≠ [] ∨ _ ≠ [] → r ≠ .again ∧ (_ = true → _ = 0 → _ = []))))
  | .server e => inferInstanceAs (Decidable (EventMeets UsersFit s (.server e) ∧ True))

/-! ## The loop -/

structure Answered (s : Session) : Prop where
  stream : s.stream = hello ++ answers s.log
  write : Spacious s.c.writeBuf
  pending : Spacious s.c.pendingBuf
  sane : Sane s.server
  drained : s.closed = true → bufferReadPtr s.c.writeBuf = [] ∧ bufferReadPtr s.c.pendingBuf = []

/-- Input and output that carry nothing away. -/
theorem Answered.same (h : Answered s) (hu : Undisturbed s t) (hwrite : Spacious t.c.writeBuf)
    (hpending : Spacious t.c.pendingBuf) (hsane : Sane t.server)
    (hdrained : t.closed = true → bufferReadPtr t.c.writeBuf =
      [] ∧ bufferReadPtr t.c.pendingBuf = []) :
    Answered t := by
  refine ⟨?_, hwrite, hpending, hsane, hdrained⟩
  rw [hu.stream_eq, answers, hu.acts_eq]
  exact h.stream

theorem answers_acted (log : List MgmtObs) (a : Act) :
    answers (log ++ [.acted a]) = answers log ++ a.response := by
  simp [answers]

theorem Answered.turn (h : Answered s) (hopen : s.closed = false)
    (hpend : bufferReadPtr s.c.pendingBuf = []) (hfit : UsersFit s) :
    Answered (turn s).1 ∧ (turn s).1.closed = false ∧
      ((turn s).2 = true → bufferReadPtr (turn s).1.c.pendingBuf = []) := by
  have hcases := turn_cases (s := s) rfl rfl
  unfold UsersFit at hfit
  generalize parseMgmtRequest s.c.input = p at hcases hfit
  have hx := execute_executes p.cmd p.arg (s.setInput p.input)
  have hmove := execute_move p.cmd p.arg (s.setInput p.input)
  have hprinted := fun hne : p.cmd ≠ .users => execute_printed hne p.arg (s.setInput p.input)
  have husers : p.cmd = .users →
      (execute p.cmd p.arg (s.setInput p.input)).responseLen = usersHead.length ∧
      (execute p.cmd p.arg (s.setInput p.input)).response = usersText s.server.w.users := by
    intro hcmd
    rw [hcmd]
    exact ⟨rfl, rfl⟩
  generalize execute p.cmd p.arg (s.setInput p.input) = r at hcases hx hmove hprinted husers
  have hw : r.s.c.writeBuf = s.c.writeBuf := hx.writeBuf_eq
  have hpb : r.s.c.pendingBuf = s.c.pendingBuf := hx.pendingBuf_eq
  have hlog : r.s.log = s.log := hx.log_eq
  have hsane : Sane r.s.server := h.sane.move hmove
  have hclosed : r.s.closed = false := hx.closed_eq.trans hopen
  have hnot : ¬ r.s.closed = true := by simp [hclosed]
  have hwrite : Spacious r.s.c.writeBuf := by
    rw [hw]
    exact h.write
  have hpending : Spacious r.s.c.pendingBuf := by
    rw [hpb]
    exact h.pending
  -- the length that is tested is enough for the choice it makes
  have hsize : r.response.length ≤ mgmtBuffsize := by
    by_cases hcmd : p.cmd = .users
    · rw [(husers hcmd).2]
      exact Nat.le_of_lt (usersText_length h.sane.users)
    · exact (hprinted hcmd).2
  have hroom : r.responseLen ≤ bufferWritePtr s.c.writeBuf →
      r.response.length ≤ bufferWritePtr s.c.writeBuf := by
    intro hle
    by_cases hcmd : p.cmd = .users
    · rw [(husers hcmd).1] at hle
      rw [(husers hcmd).2]
      exact hfit hcmd hle
    · exact Nat.le_trans (hprinted hcmd).1 hle
  have hstream : sent s.log ++ bufferReadPtr s.c.writeBuf = hello ++ answers s.log := by
    have hs := h.stream
    rw [Session.stream, hpend, List.append_nil] at hs
    exact hs
  rcases hcases with ⟨-, ht⟩ | ⟨-, -, ht⟩ | ⟨-, hle, ht⟩
  · rw [ht]
    exact ⟨⟨h.stream, h.write, h.pending, h.sane, h.drained⟩, hopen, fun hf => by (cases hf)⟩
  · rw [← h.pending.free hpend] at hsize
    obtain ⟨hroomy, hput⟩ := h.pending.writeResponse hsize
    rw [ht, hpb]
    refine ⟨⟨?_, hwrite, hroomy, hsane, fun hc => absurd hc hnot⟩, hclosed, fun hf => by (cases hf)⟩
    · simp only [Session.stream, Session.setPending_log, Session.observe_log,
        Session.setPending_writeBuf, Session.setPending_pendingBuf, Session.observe_c, hlog, hw,
        hput, hpend, sent_append, sent_acted,
        List.append_nil, List.nil_append, answers_acted]
      rw [hstream, List.append_assoc]
  · obtain ⟨hroomy, hput⟩ := h.write.writeResponse (hroom hle)
    rw [ht, hw]
    refine ⟨⟨?_, hroomy, hpending, hsane, fun hc => absurd hc hnot⟩, hclosed, ?_⟩
    · simp only [Session.stream, Session.setWrite_log, Session.observe_log,
        Session.setWrite_writeBuf, Session.setWrite_pendingBuf, Session.observe_c, hlog, hpb, hput,
        hpend, sent_append, sent_acted,
        List.append_nil, answers_acted]
      rw [← List.append_assoc, hstream, List.append_assoc]
    · intro _
      exact (congrArg bufferReadPtr hpb).trans hpend

theorem Answered.process (h : Answered s) (hopen : s.closed = false)
    (hpend : bufferReadPtr s.c.pendingBuf = [])
    (hfit : TurnsMeet UsersFit (s.c.input.lim - s.c.input.tok + 1) s) :
    Answered (processMgmtClient s) ∧ (processMgmtClient s).closed = false := by
  refine processLoop_rule_of (P := fun s => (Answered s ∧ s.closed = false) ∧
    bufferReadPtr s.c.pendingBuf = []) (Q := fun s => Answered s ∧ s.closed = false)
    (fun _ hP => hP.1) ?_ hfit ⟨⟨h, hopen⟩, hpend⟩
  rintro s hC ⟨⟨hs, ho⟩, hp⟩
  obtain ⟨h1, h2, h3⟩ := hs.turn ho hp hC
  exact ⟨fun hagain => ⟨⟨h1, h2⟩, h3 hagain⟩, fun _ => ⟨h1, h2⟩⟩

/-! ## Events -/

theorem Answered.filled (h : Answered s) (r : ReadResult) : Answered (filled r s) :=
  h.same (.filled s r) h.write h.pending h.sane h.drained

theorem Answered.copied (h : Answered s) (hopen : s.closed = false)
    (hfit : (bufferReadPtr s.c.pendingBuf).length ≤ bufferWritePtr s.c.writeBuf) :
    Answered (copyFromBuf s hfit) := by
  have hnot : ¬ s.closed = true := by simp [hopen]
  refine h.same (.copied s hfit) ⟨h.write.limit, h.write.rewound.put hfit⟩ ?_ h.sane
    fun hc => absurd hc hnot
  exact ⟨(bufferReadAdv_limit (Nat.le_refl _)).trans h.pending.limit,
    bufferReadAdv_rewound (Nat.le_refl _)⟩

theorem Answered.unregister (h : Answered s) (hw : bufferReadPtr s.c.writeBuf = [])
    (hp : bufferReadPtr s.c.pendingBuf = []) : Answered s.unregister :=
  h.same (.unregister s) h.write h.pending (h.sane.move (mgmtClose_move _ _)) fun _ => ⟨hw, hp⟩

theorem Answered.sendOut (h : Answered s) (hopen : s.closed = false) {r : SendResult}
    (hagain : r ≠ .again) (herror : r ≠ .error)
    (hsafe : s.c.quitted = true → (writeToSock r s.c.writeBuf).2 = 0 →
      bufferReadPtr s.c.pendingBuf = []) :
    Answered (sendOut r s) := by
  have hnot : ¬ s.closed = true := by simp [hopen]
  have hsend : Answered (afterSend r s) := by
    refine h.same ?_ (h.write.writeToSock r) h.pending h.sane fun hc => absurd hc hnot
    exact ⟨by simp [afterSend], .refl _,
      rfl, by simp [Session.stream, afterSend, writeToSock_readPtr]⟩
  rcases sendOut_cases r s with heq | ⟨heq, ⟨hzero, hq⟩ | hneg⟩
  · rw [heq]
    exact hsend
  · rw [heq]
    exact hsend.unregister (writeToSock_drained hzero) (hsafe hq hzero)
  · cases r with
    | sent n =>
      have hle := writeToSock_nonneg n s.c.writeBuf
      omega
    | again => exact absurd rfl hagain
    | error => exact absurd rfl herror

/-- The peer stays, and the server takes its bytes for the end: there was no room. -/
theorem free_eq_zero_of_checkEOF {inp : Input} {r : ReadResult} (hpeer : PeerStays (.read r))
    (heof : checkEOF (fillBuffer inp r).2 r.isAgain = true) : inp.free = 0 ∧ r.isAgain = false := by
  cases r with
  | data bs =>
    refine ⟨?_, rfl⟩
    have hnil := (checkEOF_fillBuffer (by simp)).mp heof
    have hbytes : bs.take inp.free = [] := hnil
    rcases List.take_eq_nil_iff.mp hbytes with hzero | rfl
    · exact hzero
    · exact hpeer.elim
  | again => cases heof
  | error => exact hpeer.elim

theorem Answered.step (h : Answered s) {ev : MgmtEvent} (hpeer : PeerStays ev)
    (hev : Delivers s ev) :
    Answered (sessionStep s ev) := by
  cases ev with
  | read r =>
    rcases read_cases r s with heq | ⟨hidle, hpend, ⟨heof, heq⟩ | ⟨-, hloop, heq⟩⟩
    · rw [heq]
      exact h
    · obtain ⟨hfree, hagain⟩ := free_eq_zero_of_checkEOF hpeer heof
      rw [heq]
      exact (h.filled r).unregister (hev.2 hidle hpend hfree hagain) hpend
    · rw [heq]
      obtain ⟨hp, hopen⟩ := (h.filled r).process (idle_open hidle) hpend (hev.1 _ hloop)
      exact hp.same ⟨rfl, .refl _, rfl, rfl⟩ hp.write hp.pending hp.sane hp.drained
  | write r =>
    have herror : r ≠ .error := by
      rintro rfl
      exact hpeer.elim
    rcases write_cases r s with heq | heq | ⟨hidle, hout, heq, hun⟩
    · rw [heq]
      exact h
    · rw [heq]
      exact h.same ⟨rfl, .refl _, rfl, rfl⟩ h.write h.pending h.sane h.drained
    have hsafe := hev.2 hidle hout
    rcases hun with ⟨hsame, -⟩ | ⟨hfit, hloop, hproc⟩
    · rw [hsame] at hsafe heq
      rw [heq]
      exact h.sendOut (idle_open hidle) hsafe.1 herror hsafe.2
    · have hcopy := h.copied (idle_open hidle) hfit
      obtain ⟨hp, hopen⟩ := hcopy.process (idle_open hidle) (by simp [copyFromBuf]) (hev.1 _ hloop)
      rw [hproc] at hsafe heq
      rw [heq]
      exact hp.sendOut hopen hsafe.1 herror hsafe.2
  | server e => exact ⟨h.stream, h.write, h.pending, h.sane.step e, h.drained⟩

theorem openSession_answered {server : Server} (hsane : Sane server) (tokens : List (List UInt8))
    (sock : ℤ) (raw : RawMgmt) : Answered (openSession server tokens sock raw) := by
  have hfit : hello.length ≤ bufferWritePtr (bufferInit mgmtBuffsize raw.write) := by
    have hlen : hello.length ≤ mgmtBuffsize := by decide
    exact hlen
  have hroomy : ∀ m, Spacious (bufferInit mgmtBuffsize m) := fun m => ⟨rfl, fun _ => rfl⟩
  obtain ⟨hw, hput⟩ := (hroomy raw.write).writeResponse hfit
  refine ⟨?_, hw, hroomy raw.pending, hsane, fun hf => by (cases hf)⟩
  change sent [] ++ bufferReadPtr (writeResponse (bufferInit mgmtBuffsize raw.write) hello) ++ []
    = hello ++ []
  rw [hput]
  simp [sent]

/-- As long as the peer stays, what was sent is the beginning of the greeting and the
responses, each once and in order; nothing of the rest is lost, and the connection is
closed only when all of it was sent. -/
theorem commands_answered_in_order (userpasses : List (List UInt8)) (masters monitors : List ℤ)
    (before : List Event) (tokens : List (List UInt8)) (sock : ℤ) (raw : RawMgmt)
    (evs : List MgmtEvent) (hpeer : ∀ ev ∈ evs, PeerStays ev)
    (h : Along sessionStep Delivers (openSession
      (exec step (boot (addUsers [] userpasses) masters monitors) before) tokens sock raw) evs) :
    let s := exec sessionStep (openSession
      (exec step (boot (addUsers [] userpasses) masters monitors) before) tokens sock raw) evs
    sent s.log <+: hello ++ answers s.log ∧ s.stream = hello ++ answers s.log ∧
      (s.closed = true → sent s.log = hello ++ answers s.log) := by
  intro s
  have hs : Answered s := exec_invariant_along
    (openSession_answered (boot_sane userpasses masters monitors before) tokens sock raw)
    (fun _ _ hok hP => Answered.step hP hok.2 hok.1) (along_and h (along_of_forall hpeer))
  refine ⟨?_, hs.stream, fun hclosed => ?_⟩
  · rw [← hs.stream, Session.stream, List.append_assoc]
    exact List.prefix_append _ _
  · obtain ⟨hw, hp⟩ := hs.drained hclosed
    rw [← hs.stream, Session.stream, hw, hp, List.append_nil, List.append_nil]

/-- Two commands, and partial sends. -/
theorem capa_and_quit_answered :
    let evs := [.write (.sent 5), .read (.data (asc "CAPA\r\nQUIT\r\n")), .write (.sent 100),
      .write (.sent 2048)]
    let s := exec sessionStep (openSession (exec step (boot (addUsers [] []) [] []) [])
      [asc "secret"] 3 blankRaw) evs
    s.closed = true ∧ sent s.log = hello ++ answers s.log := by
  intro evs s
  have halong : Along sessionStep Delivers (openSession (exec step (boot (addUsers [] []) [] []) [])
      [asc "secret"] 3 blankRaw) evs := by decide +kernel
  have hpeer : ∀ ev ∈ evs, PeerStays ev := by
    intro ev hev
    simp only [evs, List.mem_cons, List.not_mem_nil, or_false] at hev
    rcases hev with rfl | rfl | rfl | rfl <;> trivial
  have hclosed : s.closed = true := by decide +kernel
  have h := (commands_answered_in_order [] [] [] [] [asc "secret"] 3 blankRaw evs hpeer halong).2.2
  dsimp only [s] at h hclosed ⊢
  exact ⟨hclosed, h hclosed⟩

def repeated (n : ℕ) (line : String) : List UInt8 := (List.replicate n (asc line)).flatten

/-- With room for the first line of the listing but not for all of it, USERS is not
answered, and the session ends as if it were. -/
theorem users_listing_is_dropped :
    let users := addUsers [] [asc "firstuser:x", asc "otheruser:x", asc "thirduser:x"]
    let s := exec sessionStep (openSession (boot users [] []) [asc "secret"] 3 blankRaw)
      [.read (.data (asc "TOKEN secret\r\n" ++ repeated 19 "CAPA\r\n" ++ repeated 3 "\r\n" ++
        asc "USERS\r\nQUIT\r\n")), .write (.sent 2048)]
    s.closed = true ∧ ¬ sent s.log <+: hello ++ answers s.log := by
  decide +kernel

end Socks5d
