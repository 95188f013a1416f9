import Socks5d.Decoding

/-! # Messages that arrive in pieces

A client that sends each message of the handshake only after the previous reply
starts it on an empty buffer. However the message is cut into reads, and whatever
the rest of the server does between them, it is decoded as if it had come at once. -/

namespace Socks5d
open EventRun Wire

variable {x : Ctx} {e : Env} {fd : ℤ} {b : Buffer} {r : Ctx × Socks5State} {c : Client}
  {id : ClientId} {s s' : Server}

/-! ## An empty buffer starts at its beginning -/

structure Fit (b : Buffer) : Prop where
  limit : minSocksBuffsize < b.limit
  empty : b.read = b.write → b.write = 0

theorem Fit.put (h : Fit b) {bs : List UInt8} (hbs : bs.length ≤ bufferWritePtr b) :
    Fit (bufferPut b bs hbs) :=
  ⟨h.limit, Buffer.Rewound.put h.empty hbs⟩

theorem Fit.adv (h : Fit b) {n : ℕ} (hn : n ≤ b.write - b.read) : Fit (bufferReadAdv b n hn) :=
  ⟨by rw [bufferReadAdv_limit]; exact h.limit, bufferReadAdv_rewound hn⟩

theorem Fit.readClient (h : Fit x.c.originBuf) (e : Env) : Fit (x.readClient e).c.originBuf :=
  h.put (bytes_length_le _ _)

theorem Fit.writeOrigin (h : Fit x.c.originBuf) (e : Env) : Fit (x.writeOrigin e).c.originBuf := by
  change Fit (writeToSock e.send x.c.originBuf).1
  cases e.send with
  | sent n => exact h.adv (accepted_le _ _)
  | again => exact h
  | error => exact h

theorem closeClient_originBuf (x : Ctx) (level : SocketEnds) :
    (closeClient x level).1.c.originBuf = x.c.originBuf := by
  rw [(closeClient_closes x level).c_eq]

theorem Fit.close (h : Fit x.c.originBuf) (level : SocketEnds) :
    Fit (closeClient x level).1.c.originBuf := by
  rw [closeClient_originBuf]
  exact h

theorem readAuthMethod_fit (h : Fit x.c.originBuf) (hr : readAuthMethod e fd x = .ok r) :
    Fit r.1.c.originBuf := by
  rcases readAuthMethod_cases hr with rfl | rfl | ⟨n, hn, v, ms, rfl⟩
  · exact (h.readClient e).close _
  · exact h.readClient e
  · have hc : Fit ((x.readClient e).consume n hn).c.originBuf := (h.readClient e).adv hn
    rcases answerGreeting_cases ((x.readClient e).consume n hn) v ms with
      ha | ⟨-, -, -, ha⟩ | ⟨-, -, ha⟩
    · rw [ha]
      exact Fit.close (by exact hc) _
    · rw [ha]
      exact hc
    · rw [ha]
      exact hc

theorem readPlainAuth_fit (h : Fit x.c.originBuf) (hr : readPlainAuth e fd x = .ok r) :
    Fit r.1.c.originBuf := by
  rcases readPlainAuth_cases hr with rfl | rfl | ⟨n, hn, v, user, pass, rfl⟩
  · exact (h.readClient e).close _
  · exact h.readClient e
  · have hc : Fit ((x.readClient e).consume n hn).c.originBuf := (h.readClient e).adv hn
    rcases answerCredentials_cases ((x.readClient e).consume n hn) v user pass with
      ha | ⟨-, ha⟩ | ⟨-, ha⟩
    · rw [ha]
      exact Fit.close (by exact hc) _
    · rw [ha]
      exact hc
    · rw [ha]
      exact Fit.close (by exact hc) _

theorem readProxyRequest_fit (h : Fit x.c.originBuf) (hr : readProxyRequest e fd x = .ok r) :
    Fit r.1.c.originBuf := by
  have hread := h.readClient e
  rcases readProxyRequest_cases hr with ⟨a, rfl⟩ | ⟨a, reply, -, rfl⟩ | ⟨a, n, hn, reply, -, rfl⟩ |
    ⟨a, n, k, hn, hs⟩
  · exact hread
  · exact Fit.close (by exact hread) _
  · exact Fit.close (by exact hread.adv hn) _
  · have hc : Fit (((x.readClient e).setAtyp a).consume n hn).c.originBuf := hread.adv hn
    rcases startRequest_cases hs with ⟨addr, -, -, rfl⟩ | ⟨fqdn, port, -, rfl⟩ | ⟨addr, -, rfl⟩
    · exact Fit.close (by exact hc) _
    · exact hc
    · exact hc

/-- Nothing is read from the client while its origin is being connected. -/
theorem tryConnect_originBuf (hr : tryConnect e x = .ok r) : r.1.c.originBuf = x.c.originBuf := by
  obtain ⟨-, -, ⟨-, -, rfl⟩ | ⟨fd, -, hc⟩⟩ := tryConnect_cases hr
  · rw [closeClient_originBuf]
    rfl
  · rcases connectTo_cases hc with ⟨err, -, -, rfl⟩ | ⟨-, -, -, rfl⟩ | ⟨-, -, rfl⟩
    · rw [closeClient_originBuf]
      rfl
    · rw [closeClient_originBuf]
      change (((x.setOrigin fd).openSock fd).close fd).c.originBuf = _
      rw [close_c]
      rfl
    · rfl

theorem originCheckConnection_originBuf (hr : originCheckConnection e fd x = .ok r) :
    r.1.c.originBuf = x.c.originBuf := by
  rcases originCheckConnection_cases hr with ⟨-, -, -, rfl⟩ | ⟨-, ht⟩ | ⟨-, -, a, ht⟩ |
    ⟨-, err, next, -, ht⟩
  · rw [closeClient_originBuf]
    rfl
  · rw [tryConnect_originBuf ht]
    rfl
  · obtain ⟨-, p, rfl⟩ := enterProxy_ok ht
    rfl
  · rcases nextAddress_cases ht with ⟨a, rest, ht⟩ | ⟨reply, -, rfl⟩
    · rw [tryConnect_originBuf ht]
      rfl
    · rw [closeClient_originBuf]
      rfl

theorem handleProxyRead_fit (h : Fit x.c.originBuf) (hr : handleProxyRead e fd x = .ok r) :
    Fit r.1.c.originBuf := by
  rcases handleProxyRead_cases hr with ⟨-, ⟨-, rfl⟩ | rfl | ⟨p, rfl⟩⟩ |
    ⟨-, -, ⟨-, rfl⟩ | rfl | ⟨p, rfl⟩⟩
  · exact h
  · exact (h.readClient e).close _
  · exact h.readClient e
  · exact h
  · exact Fit.close (x := x.readOrigin e) h _
  · exact h

theorem handleProxyWrite_fit (h : Fit x.c.originBuf) (hr : handleProxyWrite e fd x = .ok r) :
    Fit r.1.c.originBuf := by
  rcases handleProxyWrite_cases hr with
    ⟨-, ⟨-, -, -, rfl⟩ | ⟨-, -, rfl⟩ | ⟨-, -, rfl⟩ | ⟨n, -, rfl⟩⟩ |
    ⟨-, -, ⟨-, -, rfl⟩ | ⟨-, -, rfl⟩ | ⟨-, -, rfl⟩ | ⟨n, -, rfl⟩⟩
  · exact h.close _
  · exact h
  · exact Fit.close (x := x.writeClient e) h _
  · exact h
  · exact h.close _
  · exact h
  · exact (h.writeOrigin e).close _
  · exact h.writeOrigin e

def inbox : Story where
  live _ _ c _ := Fit c.originBuf
  gone _ _ := True
  current h := h
  born id fd n e k hn := ⟨hn, fun _ => rfl⟩
  read := by
    intro x e fd i m st handler r _ _ _ hh hr _ h
    cases st with
    | authMethod => cases hh; exact readAuthMethod_fit h hr
    | plainAuth => cases hh; exact readPlainAuth_fit h hr
    | request => cases hh; exact readProxyRequest_fit h hr
    | proxy => cases hh; exact handleProxyRead_fit h hr
    | resolving | connecting | done | writeRemaining => cases hh
  write := by
    intro x e fd i m st handler r _ _ _ hh hr _ h
    cases st with
    | plainAuth | request | resolving | proxy | writeRemaining =>
      cases hh
      exact handleProxyWrite_fit h hr
    | connecting =>
      cases hh
      rw [originCheckConnection_originBuf hr]
      exact h
    | authMethod | done => cases hh
  resolved _ h := h
  block h := h
  resolving h := h
  done _ := trivial

/-! ## The reads of a client -/

/-- The pieces in which the bytes of the client arrived. -/
def reads (os : List Obs) : List (List UInt8) :=
  os.filterMap fun o => match o with
    | .recvClient _ bs => some bs
    | _ => none

@[simp] theorem reads_append (os os' : List Obs) : reads (os ++ os') = reads os ++ reads os' := by
  simp [reads]

@[simp] theorem reads_nil : reads [] = [] := rfl

/-- Whatever happens from `x` to `x'` comes after what happened before. -/
def Grows (x x' : Ctx) : Prop := Records (fun _ => True) x x'

theorem Grows.trans {x' x'' : Ctx} (h : Grows x x') (h' : Grows x' x'') : Grows x x'' :=
  Records.trans h h'

theorem Grows.log (x : Ctx) (o : Obs) : Grows x (x.log o) := .of_log rfl rfl trivial

theorem Grows.consume {n : ℕ} (hn : n ≤ x.c.originBuf.write - x.c.originBuf.read) :
    Grows x (x.consume n hn) := .of_log rfl rfl trivial

theorem Grows.reply (x : Ctx) (v m : UInt8) : Grows x (simpleReply x v m) := .of_log rfl rfl trivial

theorem Grows.fail (x : Ctx) (reply : ServerReplyType) : Grows x (failReply x reply) :=
  .of_log rfl rfl trivial

theorem Grows.close (x : Ctx) (level : SocketEnds) : Grows x (closeClient x level).1 :=
  .closes (closeClient_closes x level) fun _ _ => trivial

theorem answerGreeting_grows (x : Ctx) (v : UInt8) (ms : List UInt8) :
    Grows x (answerGreeting x v ms).1 := by
  have hlog := Grows.log x (.greeting x.id v ms x.w.users)
  rcases answerGreeting_cases x v ms with ha | ⟨-, -, -, ha⟩ | ⟨-, -, ha⟩
  · rw [ha]
    exact (hlog.trans (.reply _ _ _)).trans (.close _ _)
  · rw [ha]
    exact (hlog.trans (.reply _ _ _)).trans (.of_eq rfl rfl)
  · rw [ha]
    exact (hlog.trans (.reply _ _ _)).trans (.of_eq rfl rfl)

theorem answerCredentials_grows (x : Ctx) (v : UInt8) (user pass : List UInt8) :
    Grows x (answerCredentials x v user pass).1 := by
  have hlog : Grows x ((x.setUser (cString user)).log
      (.credentials x.id (cString user) (cString pass) x.w.users)) := .of_log rfl rfl trivial
  rcases answerCredentials_cases x v user pass with ha | ⟨-, ha⟩ | ⟨-, ha⟩
  · rw [ha]
    exact (Grows.reply _ _ _).trans (.close _ _)
  · rw [ha]
    exact (hlog.trans (.reply _ _ _)).trans (.of_eq rfl rfl)
  · rw [ha]
    exact (hlog.trans (.reply _ _ _)).trans (.close _ _)

theorem startRequest_grows {b : Buffer} {a : UInt8} {n : ℕ} (h : startRequest e b a n x = .ok r) :
    Grows x r.1 := by
  have hsel : ∀ sel addr, Grows x ((x.sel sel).setAddr addr) := fun _ _ => .of_eq rfl rfl
  rcases startRequest_cases h with ⟨addr, -, -, rfl⟩ | ⟨fqdn, port, -, rfl⟩ | ⟨addr, -, rfl⟩
  · exact ((hsel _ addr).trans (.fail _ _)).trans (.close _ _)
  · exact .of_eq rfl rfl
  · exact hsel _ _

/-- A read event records the read first. -/
theorem handshake_grows {st : Socks5State}
    {handler : Env → ℤ → Ctx → Except Fault (Ctx × Socks5State)}
    (hh : onReadReady st = some handler) (hst : st = .authMethod ∨ st = .plainAuth ∨ st = .request)
    (hr : handler e fd x = .ok r) :
    Grows (x.readClient e) r.1 := by
  rcases hst with rfl | rfl | rfl
  · cases hh
    rcases readAuthMethod_cases hr with rfl | rfl | ⟨n, hn, v, ms, rfl⟩
    · exact .close _ _
    · exact .refl _
    · exact (Grows.consume hn).trans (answerGreeting_grows _ _ _)
  · cases hh
    rcases readPlainAuth_cases hr with rfl | rfl | ⟨n, hn, v, user, pass, rfl⟩
    · exact .close _ _
    · exact .refl _
    · exact (Grows.consume hn).trans (answerCredentials_grows _ _ _ _)
  · cases hh
    have hatyp : ∀ a, Grows (x.readClient e) ((x.readClient e).setAtyp a) := fun _ => .of_eq rfl rfl
    rcases readProxyRequest_cases hr with ⟨a, rfl⟩ | ⟨a, reply, -, rfl⟩ |
      ⟨a, n, hn, reply, -, rfl⟩ | ⟨a, n, k, hn, hs⟩
    · exact hatyp a
    · exact ((hatyp a).trans (.fail _ _)).trans (.close _ _)
    · exact (((hatyp a).trans (.consume hn)).trans (.fail _ _)).trans (.close _ _)
    · exact ((hatyp a).trans (.consume hn)).trans (startRequest_grows hs)

/-! ## Collecting for the rest of a message -/

/-- The client has sent the bytes `u` of a message, and all replies have left. -/
structure Collecting (st : Socks5State) (u : List UInt8) (c : Client) : Prop where
  state : stmState c = st
  unread : bufferReadPtr c.originBuf = u
  start : c.originBuf.write = u.length
  limit : minSocksBuffsize < c.originBuf.limit
  replied : bufferReadPtr c.clientBuf = []

/-- Non-empty reads that do not complete `msg`. -/
structure Cut (msg : List UInt8) (os : List Obs) : Prop where
  nonempty : ∀ bs ∈ reads os, bs ≠ []
  part : (reads os).flatten <+: msg
  short : (reads os).flatten ≠ msg

theorem Cut.left {msg : List UInt8} {os os' : List Obs} (h : Cut msg (os ++ os')) : Cut msg os := by
  obtain ⟨hne, hpart, hshort⟩ := h
  rw [reads_append] at hne hpart hshort
  rw [List.flatten_append] at hpart hshort
  refine ⟨fun bs hbs => hne bs (List.mem_append_left _ hbs),
    (List.prefix_append _ _).trans hpart, ?_⟩
  intro hmsg
  apply hshort
  -- what follows a whole message is empty
  rw [hmsg] at hpart ⊢
  have hle := hpart.length_le
  rw [List.length_append] at hle
  rw [List.length_eq_zero_iff.mp (by omega : (reads os').flatten.length = 0), List.append_nil]

theorem handleFirst_state (x : Ctx) : stmState (handleFirst x).c = stmState x.c := by
  rcases handleFirst_cases x with ⟨hnone, hx⟩ | ⟨-, hx⟩
  · rw [hx, stmState, stmState, hnone]
    rfl
  · rw [hx]

theorem handleFirst_buffers (x : Ctx) : (handleFirst x).c.originBuf = x.c.originBuf ∧
    (handleFirst x).c.clientBuf = x.c.clientBuf ∧
    (handleFirst x).c.clientSock = x.c.clientSock := by
  rcases handleFirst_cases x with ⟨-, hx⟩ | ⟨-, hx⟩ <;> rw [hx] <;> exact ⟨rfl, rfl, rfl⟩

theorem decode_state {st : Socks5State} {bs : List UInt8} (h : decode st bs ≠ none) :
    st = .authMethod ∨ st = .plainAuth ∨ st = .request := by
  cases st with
  | authMethod => exact .inl rfl
  | plainAuth => exact .inr (.inl rfl)
  | request => exact .inr (.inr rfl)
  | resolving | connecting | proxy | done | writeRemaining => exact absurd rfl h

/-- During the handshake a client is registered for its own socket only. -/
theorem Ctl.handshake_fd {st : Socks5State} {i m : FdInterest}
    (h : Ctl x.id x.c x.w.selector (some st))
    (hst : st = .authMethod ∨ st = .plainAuth ∨ st = .request)
    (hheld : Held (.socks5 x.id) x.w.selector fd i m) : x.c.clientSock = fd := by
  rcases hst with rfl | rfl | rfl
  · exact ((show Alone x.id x.c x.w.selector opRead opRead from h).fd_eq hheld).1.symm
  · exact ((show Alone x.id x.c x.w.selector ⟨true, true⟩ opRead from h).fd_eq hheld).1.symm
  · exact ((show Alone x.id x.c x.w.selector ⟨true, true⟩ opRead from h).fd_eq hheld).1.symm

/-- A read event of the handshake records the read first. -/
theorem Handling.read_first {y : Ctx} {st : Socks5State} {o : Outcome}
    (hh : Handling onReadReady e fd y st r o)
    (hst : st = .authMethod ∨ st = .plainAuth ∨ st = .request) :
    ∃ os, o.w.log = y.w.log ++
      ([.recvClient y.id (e.read.bytes (readSize y.c.originBuf))] ++ os) := by
  obtain ⟨handler, hready, hres⟩ := hh.result
  obtain ⟨os, -, hos⟩ := (handshake_grows hready hst hres).log_eq
  obtain ⟨os', -, hos'⟩ := jump_log hh.jump
  have hlog : (y.readClient e).w.log =
      y.w.log ++ [.recvClient y.id (e.read.bytes (readSize y.c.originBuf))] := rfl
  refine ⟨os ++ os', ?_⟩
  rw [hos', hos, hlog]
  simp only [List.append_assoc]

/-- A read that brings no more than a part of the message leaves the client waiting. -/
theorem Handling.awaits {y : Ctx} {st : Socks5State} {o : Outcome} {msg : List UInt8} {m : Message}
    (hh : Handling onReadReady e fd y st r o) (hmsg : decode st msg = some (m, []))
    (hfd : y.c.clientSock = fd) (hne : e.read.bytes (readSize y.c.originBuf) ≠ [])
    (hcut : y.held e <+: msg) (hshort : y.held e ≠ msg) :
    ∃ z, Awaits y e z ∧ z.c.current = some st ∧ o = ⟨z.w, some z.c⟩ := by
  obtain ⟨handler, hready, hres⟩ := hh.result
  obtain ⟨z, hz, hwait⟩ := handshake_waits hmsg hready hfd (eof_of_bytes hne) hcut hshort
  rw [stmState_of_current hh.current] at hwait
  obtain rfl : r = (z, st) := Except.ok.inj (hres.symm.trans hwait)
  have hcur : z.c.current = some st := by rw [hz.current, hh.current]
  rcases jump_cases hh.jump with ⟨-, ho⟩ | ⟨hno, -⟩
  · exact ⟨z, hz, hcur, ho⟩
  · exact absurd hcur hno

theorem Collecting.awaits {st : Socks5State} {u : List UInt8} {y z : Ctx}
    (hw : Collecting st u y.c) (hz : Awaits y e z) (hcur : z.c.current = some st) :
    Collecting st (u ++ e.read.bytes (readSize y.c.originBuf)) z.c := by
  refine ⟨stmState_of_current hcur, ?_, ?_, ?_, ?_⟩
  · rw [hz.originBuf, ← hw.unread]
    exact Ctx.held_eq y e
  · rw [hz.originBuf, List.length_append, ← hw.start]
    rfl
  · rw [hz.originBuf]
    exact hw.limit
  · rw [hz.clientBuf]
    exact hw.replied

theorem Collecting.first {st : Socks5State} {u : List UInt8} (hw : Collecting st u x.c) :
    Collecting st u (handleFirst x).c := by
  obtain ⟨ho, hc, -⟩ := handleFirst_buffers x
  refine ⟨(handleFirst_state x).trans hw.state, ?_, ?_, ?_, ?_⟩
  · rw [ho]
    exact hw.unread
  · rw [ho]
    exact hw.start
  · rw [ho]
    exact hw.limit
  · rw [hc]
    exact hw.replied

/-- An event on a client that collects is an event on its own socket. -/
theorem Collecting.handling
    {ready : Socks5State → Option (Env → ℤ → Ctx → Except Fault (Ctx × Socks5State))}
    {st st' : Socks5State} {u : List UInt8} {o : Outcome} {i m : FdInterest}
    (hw : Collecting st u x.c) (hst : st = .authMethod ∨ st = .plainAuth ∨ st = .request)
    (hheld : Held (.socks5 x.id) x.w.selector fd i m)
    (hh : Handling ready e fd (handleFirst x) st' r o) :
    st = st' ∧ Collecting st u (handleFirst x).c ∧ (handleFirst x).c.clientSock = fd := by
  obtain ⟨hid, hworld⟩ := handleFirst_same x
  have hfirst := hw.first
  have heq : st = st' := by rw [← hfirst.state, stmState_of_current hh.current]
  rw [← heq] at hh
  have hheld' : Held (.socks5 (handleFirst x).id) (handleFirst x).w.selector fd i m := by
    rw [hid, hworld]
    exact hheld
  exact ⟨heq, hfirst, hh.ctl.handshake_fd hst hheld'⟩

/-- A write event of the handshake finds no reply to send. -/
theorem Collecting.handleProxyWrite {st : Socks5State} {u : List UInt8} (hw : Collecting st u x.c)
    (hst : st = .authMethod ∨ st = .plainAuth ∨ st = .request) (hfd : x.c.clientSock = fd)
    (hr : handleProxyWrite e fd x = .ok r) :
    r.2 = st ∧ Collecting st u r.1.c ∧
      (r.1.w.log = x.w.log ∨ ∃ bs, r.1.w.log = x.w.log ++ [.sentClient x.id bs]) := by
  have hread : bufferCanRead x.c.clientBuf ≠ true := by
    rw [ne_eq, bufferCanRead_iff, not_not]
    exact hw.replied
  have hlow : ¬ Socks5State.proxy.toNat ≤ (stmState x.c).toNat := by
    rw [hw.state]
    rcases hst with rfl | rfl | rfl <;> decide
  rcases handleProxyWrite_cases hr with
    ⟨-, ⟨-, -, hle, -⟩ | ⟨-, -, rfl⟩ | ⟨hcan, -, -⟩ | ⟨n, -, rfl⟩⟩ | ⟨hne, -, -⟩
  · exact absurd hle hlow
  · exact ⟨hw.state, hw, .inl rfl⟩
  · exact absurd hcan hread
  · have hsent : bufferReadPtr (x.writeClient e).c.clientBuf = [] := by
      refine (writeToSock_readPtr e.send x.c.clientBuf).trans ?_
      rw [hw.replied]
      exact List.drop_nil
    exact ⟨hw.state, ⟨hw.state, hw.unread, hw.start, hw.limit, hsent⟩, .inr ⟨_, rfl⟩⟩
  · exact absurd hfd.symm hne

section
variable {st : Socks5State} {msg : List UInt8} {m : Message} {os δ : List Obs}
  (hmsg : decode st msg = some (m, [])) (hinv : Inv s)
  (hw : Collecting st (reads os).flatten c) (hc : s.heap id = some c)
  (hδ : history id s'.w.log = history id s.w.log ++ δ) (hcut : Cut msg (os ++ δ))
include hmsg hinv hw hc hδ hcut

theorem Collecting.read {i : FdInterest} (hhit : Hit s id c fd i) (hi : i.read = true)
    (hs : s' = s.run id (stmHandlerRead e fd)) :
    bytesOf .replied δ = [] ∧
      ∃ c', s'.heap id = some c' ∧ Collecting st (reads (os ++ δ)).flatten c' := by
  obtain ⟨mask, hheld⟩ := hhit.held
  cases hr : stmHandlerRead e fd ⟨id, c, s.w⟩ with
  | error f =>
    rw [hs, run_error hc hr] at hδ ⊢
    have hnil : δ = [] := List.self_eq_append_right.mp hδ
    rw [hnil, List.append_nil]
    exact ⟨rfl, c, hc, hw⟩
  | ok o =>
    rw [hs, run_ok hc hr] at hδ ⊢
    dsimp only at hδ
    obtain ⟨st', r, hh⟩ := stmHandlerRead_handling (x := ⟨id, c, s.w⟩) (hhit.ctl hinv) hheld hi hr
    have hhand := decode_state (by rw [hmsg]; simp)
    obtain ⟨rfl, hwy, hfd⟩ := hw.handling hhand hheld hh
    obtain ⟨hyid, hyw⟩ := handleFirst_same ⟨id, c, s.w⟩
    generalize handleFirst ⟨id, c, s.w⟩ = y at hh hwy hfd hyid hyw
    have hone : history id [.recvClient id (e.read.bytes (readSize y.c.originBuf))] =
        [.recvClient id (e.read.bytes (readSize y.c.originBuf))] := by
      rw [history_singleton]
      exact if_pos rfl
    -- what the read delivers is the next piece of the message
    have hcut1 : Cut msg (os ++ [.recvClient id (e.read.bytes (readSize y.c.originBuf))]) := by
      obtain ⟨rest, hrest⟩ := hh.read_first hhand
      rw [hrest, hyw, hyid, history_append, history_append, hone] at hδ
      rw [← List.append_cancel_left hδ, ← List.append_assoc] at hcut
      exact hcut.left
    have hreads : (reads (os ++ [.recvClient id (e.read.bytes (readSize y.c.originBuf))])).flatten =
        (reads os).flatten ++ e.read.bytes (readSize y.c.originBuf) := by
      rw [reads_append, List.flatten_append]
      exact congrArg _ (List.append_nil _)
    have hheldy : y.held e = _ := (Ctx.held_eq y e).trans (by rw [hwy.unread, ← hreads])
    obtain ⟨z, hz, hcur, rfl⟩ := hh.awaits hmsg hfd
      (hcut1.nonempty _ (by rw [reads_append]; exact List.mem_append_right _ List.mem_cons_self))
      (by rw [hheldy]; exact hcut1.part) (by rw [hheldy]; exact hcut1.short)
    have hlast : δ = [.recvClient id (e.read.bytes (readSize y.c.originBuf))] := by
      have hlog :
          z.w.log = y.w.log ++ [.recvClient y.id (e.read.bytes (readSize y.c.originBuf))] := by
        rw [hz.world]
        rfl
      rw [hlog, hyw, hyid, history_append, hone] at hδ
      exact (List.append_cancel_left hδ).symm
    rw [hlast, hreads]
    exact ⟨rfl, z.c, Function.update_self .., hwy.awaits hz hcur⟩

theorem Collecting.write {i : FdInterest} (hhit : Hit s id c fd i) (hi : i.write = true)
    (hs : s' = s.run id (stmHandlerWrite e fd)) :
    bytesOf .replied δ = [] ∧
      ∃ c', s'.heap id = some c' ∧ Collecting st (reads (os ++ δ)).flatten c' := by
  obtain ⟨mask, hheld⟩ := hhit.held
  have hquiet : reads δ = [] → (reads (os ++ δ)).flatten = (reads os).flatten := by
    intro h
    rw [reads_append, h, List.append_nil]
  cases hr : stmHandlerWrite e fd ⟨id, c, s.w⟩ with
  | error f =>
    rw [hs, run_error hc hr] at hδ ⊢
    have hnil : δ = [] := List.self_eq_append_right.mp hδ
    rw [hnil, List.append_nil]
    exact ⟨rfl, c, hc, hw⟩
  | ok o =>
    rw [hs, run_ok hc hr] at hδ ⊢
    dsimp only at hδ
    obtain ⟨st', r, hh⟩ := stmHandlerWrite_handling (x := ⟨id, c, s.w⟩) (hhit.ctl hinv) hheld hi
      hinv.cap hr
    have hhand := decode_state (by rw [hmsg]; simp)
    obtain ⟨rfl, hwy, hfd⟩ := hw.handling hhand hheld hh
    obtain ⟨hyid, hyw⟩ := handleFirst_same ⟨id, c, s.w⟩
    generalize handleFirst ⟨id, c, s.w⟩ = y at hh hwy hfd hyid hyw
    obtain ⟨handler, hready, hres⟩ := hh.result
    obtain rfl : handler = Socks5d.handleProxyWrite := by
      rcases hhand with rfl | rfl | rfl
      · cases hready
      · exact (Option.some.inj hready).symm
      · exact (Option.some.inj hready).symm
    obtain ⟨hr2, hwr, hlog⟩ := hwy.handleProxyWrite hhand hfd hres
    have hcur : r.1.c.current = some r.2 := by rw [hh.quiet.current_eq, hh.current, hr2]
    obtain rfl : o = ⟨r.1.w, some r.1.c⟩ := by
      rcases jump_cases hh.jump with ⟨-, ho⟩ | ⟨hno, -⟩
      · exact ho
      · exact absurd hcur hno
    have hδ' : δ = [] ∨ ∃ bs, δ = [.sentClient id bs] := by
      rcases hlog with hlog | ⟨bs, hlog⟩
      · rw [hlog, hyw] at hδ
        exact .inl (List.self_eq_append_right.mp hδ)
      · rw [hlog, hyw, hyid, history_append, history_singleton, if_pos (by rfl)] at hδ
        exact .inr ⟨bs, (List.append_cancel_left hδ).symm⟩
    have hboth : bytesOf .replied δ = [] ∧ reads δ = [] := by
      rcases hδ' with rfl | ⟨bs, rfl⟩ <;> exact ⟨rfl, rfl⟩
    rw [hquiet hboth.2]
    exact ⟨hboth.1, r.1.c, Function.update_self .., hwr⟩

/-- While the message is incomplete, whatever happens in the server. -/
theorem Collecting.touch {okw : Server → ClientId → Client → ℤ → Env → Prop}
    (ht : Touch okw s id c s') :
    bytesOf .replied δ = [] ∧
      ∃ c', s'.heap id = some c' ∧ Collecting st (reads (os ++ δ)).flatten c' := by
  have hstill : history id s'.w.log = history id s.w.log → δ = [] := by
    intro h
    rw [h] at hδ
    exact List.self_eq_append_right.mp hδ
  cases ht with
  | none hc' hh =>
    rw [hstill hh, List.append_nil]
    exact ⟨rfl, c, hc', hw⟩
  | resolved addrs hc' hh =>
    rw [hstill hh, List.append_nil]
    exact ⟨rfl, _, hc', hw.state, hw.unread, hw.start, hw.limit, hw.replied⟩
  | read fd i e hhit hi hs => exact hw.read hmsg hinv hc hδ hcut hhit hi hs
  | write fd i e hhit hi _ hs => exact hw.write hmsg hinv hc hδ hcut hhit hi hs
  | block jobs hs =>
    -- no client of the handshake has a resolver
    have herr : ∀ o, stmHandlerBlock ⟨id, c, { s.w with resolutionJobs := jobs }⟩ ≠ .ok o := by
      intro o ho
      obtain ⟨hcur, -⟩ := stmHandlerBlock_cases ho
      have hres := stmState_of_current hcur
      rw [hw.state] at hres
      rw [hres] at hmsg
      cases hmsg
    cases hr : stmHandlerBlock ⟨id, c, { s.w with resolutionJobs := jobs }⟩ with
    | ok o => exact absurd hr (herr o)
    | error f =>
      rw [run_error (s := { s with w := { s.w with resolutionJobs := jobs } }) hc hr] at hs
      rw [hstill (by rw [hs]; rfl), List.append_nil, hs]
      exact ⟨rfl, c, hc, hw⟩

end

/-! ## Runs -/

/-- Since its history was `past`, client `id` has sent part of `msg`. -/
def Gathers (id : ClientId) (st : Socks5State) (msg : List UInt8) (past : List Obs)
    (s : Server) : Prop :=
  ∃ os, history id s.w.log = past ++ os ∧ (Cut msg os →
    bytesOf .replied os = [] ∧ ∃ c, s.heap id = some c ∧ Collecting st (reads os).flatten c)

theorem Gathers.move {okw : Server → ClientId → Client → ℤ → Env → Prop} {st : Socks5State}
    {msg : List UInt8} {m : Message} {past : List Obs} (hmsg : decode st msg = some (m, []))
    (hinv : Inv s) (hm : Move okw s s') (h : Gathers id st msg past s) :
    Gathers id st msg past s' := by
  obtain ⟨os, hos, hgood⟩ := h
  obtain ⟨δ, hδ⟩ := hm.history hinv id
  refine ⟨os ++ δ, by rw [hδ, hos, List.append_assoc], ?_⟩
  intro hcut
  obtain ⟨hrep, c, hc, hw⟩ := hgood hcut.left
  obtain ⟨hrep', hw'⟩ := hw.touch hmsg hinv hc hδ hcut (hm.touch hinv hc)
  exact ⟨by rw [bytesOf_append, hrep, hrep', List.append_nil], hw'⟩

theorem Gathers.exec {st : Socks5State} {msg : List UInt8} {m : Message} {past : List Obs}
    (hmsg : decode st msg = some (m, [])) (hinv : Inv s) (h : Gathers id st msg past s)
    (evs : List Event) : Gathers id st msg past (exec step s evs) := by
  refine (exec_invariant (P := fun t => Inv t ∧ Gathers id st msg past t) ⟨hinv, h⟩ ?_).2
  rintro t ev ⟨hinv, h⟩
  obtain ⟨t', hm, hm'⟩ := step_moves hinv ev (along_anyWrite t [ev]).1
  have hinv' := hinv.move hm
  exact ⟨hinv'.move hm', Gathers.move hmsg hinv' hm' (h.move hmsg hinv hm)⟩

/-- The longest message, of credentials, fills the smallest buffer. -/
theorem decode_length_le {st : Socks5State} {msg : List UInt8} {m : Message}
    (h : decode st msg = some (m, [])) : msg.length ≤ minSocksBuffsize + 1 := by
  have hbyte : ∀ n : UInt8, n.toNat ≤ 255 := fun n => Nat.lt_succ_iff.mp n.toNat_lt
  unfold minSocksBuffsize
  cases st with
  | authMethod =>
    obtain ⟨version, n, methods, rfl, hn, -⟩ := greetingReader_eq_some h
    simp only [List.length_cons, List.length_append, List.length_nil]
    have := hbyte n
    omega
  | plainAuth =>
    obtain ⟨version, n, user, k, pass, rfl, hn, hk, -⟩ := credentialsReader_eq_some h
    simp only [List.length_cons, List.length_append, List.length_nil]
    have := hbyte n
    have := hbyte k
    omega
  | request =>
    obtain ⟨version, cmd, rsv, atyp, d, addr, q, hs, rfl, -⟩ := requestReader_eq_some h
    simp only [List.length_cons, List.length_append, List.length_nil]
    cases hs with
    | ipv4 hlen | ipv6 hlen => omega
    | domainName hlen =>
      rename_i n name
      have := hbyte n
      simp only [List.length_cons]
      omega
  | resolving | connecting | proxy | done | writeRemaining => cases h

theorem Cut.length_lt {msg : List UInt8} {os : List Obs} (h : Cut msg os) :
    (reads os).flatten.length < msg.length := by
  have hle := h.part.length_le
  rcases Nat.lt_or_ge (reads os).flatten.length msg.length with hlt | hge
  · exact hlt
  · exact absurd (h.part.eq_of_length_le hge) h.short

theorem Collecting.readSize_pos {st : Socks5State} {msg : List UInt8} {m : Message} {os : List Obs}
    (hmsg : decode st msg = some (m, [])) (hcut : Cut msg os)
    (hw : Collecting st (reads os).flatten c) : 0 < readSize c.originBuf := by
  have hlt := hcut.length_lt
  have hle := decode_length_le hmsg
  have hroom : 0 < bufferWritePtr c.originBuf := by
    have hl := hw.limit
    rw [bufferWritePtr, hw.start]
    omega
  exact Nat.lt_min.mpr ⟨hroom, by decide⟩

theorem Intact.room {st : Socks5State} {h : List Obs} (hi : Intact st c h)
    (hst : st = .authMethod ∨ st = .plainAuth ∨ st = .request) :
    c.clientBuf.write + 2 ≤ c.clientBuf.limit := by
  obtain ⟨n, hn, hle⟩ : ∃ n, replyBound st = some n ∧ n ≤ 4 := by
    rcases hst with rfl | rfl | rfl
    · exact ⟨0, rfl, by decide⟩
    · exact ⟨2, rfl, by decide⟩
    · exact ⟨4, rfl, by decide⟩
  have hl := (hi.early n hn).limit
  have hw := (hi.early n hn).write
  unfold minSocksBuffsize at hl
  omega

/-- A client of the handshake that has received all replies and sent nothing yet
(`c`, after the run `evs`) sends `msg`, and the pieces read so far (in `os`, during
`evs'`) do not complete it. Then the server waits, with room for more; and a read
that completes the message consumes it whole and acts on the decision of the
reference decoder. -/
theorem handshake_decoded_in_any_cut (users : UserTable) (masters monitors : List ℤ)
    (evs evs' : List Event) (id : ClientId) (c : Client) (msg : List UInt8) (m : Message)
    (os : List Obs)
    (hc : (exec step (boot users masters monitors) evs).heap id = some c)
    (hunread : bufferReadPtr c.originBuf = []) (hreplied : bufferReadPtr c.clientBuf = [])
    (hmsg : decode (stmState c) msg = some (m, []))
    (hos : history id (exec step (boot users masters monitors) (evs ++ evs')).w.log =
      history id (exec step (boot users masters monitors) evs).w.log ++ os)
    (hcut : Cut msg os) :
    let s := exec step (boot users masters monitors) (evs ++ evs')
    msg.length = m.size ∧ bytesOf .replied os = [] ∧
    ∃ c', s.heap id = some c' ∧ stmState c' = stmState c ∧
      bufferReadPtr c'.originBuf = (reads os).flatten ∧ bufferReadPtr c'.clientBuf = [] ∧
      0 < readSize c'.originBuf ∧
      ∀ e handler, onReadReady (stmState c) = some handler →
        (reads os).flatten ++ e.read.bytes (readSize c'.originBuf) = msg →
        ∃ y, Took (handleFirst ⟨id, c', s.w⟩) e msg [] y ∧
          Obeys e y (handler e c'.clientSock (handleFirst ⟨id, c', s.w⟩))
            (m.decision s.w.users) := by
  intro s
  have hfit : Fit c.originBuf := (inbox.reachable users masters monitors evs).live id c hc
  have hlen : c.originBuf.write - c.originBuf.read = 0 := by
    rw [← bufferReadPtr_length, hunread, List.length_nil]
  -- before the message nothing is collected
  have hstart : Collecting (stmState c) [] c := by
    refine ⟨rfl, hunread, hfit.empty ?_, hfit.limit, hreplied⟩
    have hle := c.originBuf.read_le_write
    omega
  have hgather : Gathers id (stmState c) msg
      (history id (exec step (boot users masters monitors) evs).w.log)
      (exec step (boot users masters monitors) evs) :=
    ⟨[], (List.append_nil _).symm, fun _ => ⟨rfl, c, hc, hstart⟩⟩
  have hrun := hgather.exec hmsg (reachable_inv users masters monitors evs) evs'
  rw [← exec_append] at hrun
  obtain ⟨os', hos', hgood⟩ := hrun
  obtain rfl : os' = os := List.append_cancel_left (hos'.symm.trans hos)
  obtain ⟨hrep, c', hc', hw⟩ := hgood hcut
  refine ⟨decode_size hmsg, hrep, c', hc', hw.state, hw.unread, hw.replied,
    hw.readSize_pos hmsg hcut, ?_⟩
  intro e handler hready hall
  obtain ⟨hyo, hyc, hys⟩ := handleFirst_buffers ⟨id, c', s.w⟩
  obtain ⟨-, hyw⟩ := handleFirst_same ⟨id, c', s.w⟩
  -- the piece that is still to come completes the message
  have hheld : (handleFirst ⟨id, c', s.w⟩).held e = msg := by
    rw [Ctx.held_eq, hyo, ← hall]
    exact congrArg (· ++ _) hw.unread
  have hok : (handleFirst ⟨id, c', s.w⟩).eof e = false := by
    apply eof_of_bytes
    rw [hyo]
    intro hnil
    apply hcut.short
    rw [← hall]
    rw [show e.read.bytes (readSize c'.originBuf) = [] from hnil, List.append_nil]
  have hroom : Roomy (handleFirst ⟨id, c', s.w⟩) := by
    have hlive := (intact.reachable users masters monitors (evs ++ evs')).live id c' hc'
    unfold Roomy
    rw [hyc]
    exact hlive.room (by rw [hw.state]; exact decode_state (by rw [hmsg]; simp))
  obtain ⟨msg', y, hmsg', htook, hobeys⟩ := handshake_decides (hheld ▸ hmsg) hready hys hok hroom
  obtain rfl : msg' = msg := by rw [← hheld, hmsg', List.append_nil]
  rw [hyw] at hobeys
  exact ⟨y, htook, hobeys⟩

/-- A greeting in two pieces: after the first byte the server waits. -/
theorem greeting_cut_after_one_byte :
    ∃ c', (exec step (boot [] [] [])
        ([readable 0 (.fine [] 3)] ++ [readable 3 (.fine [0x5] 3)])).heap 0 = some c' ∧
      stmState c' = .authMethod ∧ bufferReadPtr c'.originBuf = [0x5] ∧
      0 < readSize c'.originBuf := by
  have hrun : ((exec step (boot [] [] []) [readable 0 (.fine [] 3)]).heap 0).map (fun c =>
      (stmState c, bufferReadPtr c.originBuf, bufferReadPtr c.clientBuf)) =
        some (.authMethod, [], []) := by decide
  obtain ⟨c, hc, hall⟩ := Option.map_eq_some_iff.mp hrun
  simp only [Prod.mk.injEq] at hall
  obtain ⟨hst, hunread, hreplied⟩ := hall
  have hcut : Cut [0x5, 0x1, 0x0] [.recvClient 0 [0x5]] := by
    refine ⟨by simp [reads], ?_, by decide⟩
    exact ⟨[0x1, 0x0], rfl⟩
  obtain ⟨-, -, c', hc', hst', hunread', -, hpos, -⟩ := handshake_decoded_in_any_cut [] [] []
    [readable 0 (.fine [] 3)] [readable 3 (.fine [0x5] 3)] 0 c [0x5, 0x1, 0x0]
    (.greeting 0x5 [0x0]) [.recvClient 0 [0x5]] hc hunread hreplied (by rw [hst]; decide)
    (by decide) hcut
  exact ⟨c', hc', hst'.trans hst, hunread', hpos⟩

end Socks5d
