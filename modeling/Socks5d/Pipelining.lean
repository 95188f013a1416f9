import Socks5d.Cuts

/-! # Messages that arrive together

Each read event handles at most one message, and the next message is looked at on
the next read event only. The buffer is compacted when it is empty and at no other
time, so unread bytes can also leave no room for a read. This module says exactly
when a client of the handshake is left waiting for bytes that it has sent. -/

namespace Socks5d
open EventRun Wire

variable {x y : Ctx} {e : Env} {fd : ℤ} {r : Ctx × Socks5State} {c : Client} {id : ClientId}
  {s : Server} {st : Socks5State} {o : Outcome}

/-- The state of the handshake in which the server expects the next message. -/
def Decision.next (users : UserTable) : Decision → Option Socks5State
  | .method m => some m.next
  | .check user pass =>
    if tryCredentials users (cString user) (cString pass) then some .request else none
  | .noMethod | .badVersion | .resolve _ _ | .connect _ | .unsupported => none

/-- `bs` begins with a message for state `st` and then has a whole message for the
state to which the first one leads. -/
def Pipelined (st : Socks5State) (users : UserTable) (bs : List UInt8) : Prop :=
  ∃ m rest st', decode st bs = some (m, rest) ∧ (m.decision users).next users = some st' ∧
    decode st' rest ≠ none

/-! ## What a handler leaves unread -/

/-- The unread bytes hold no message for the state the handler ends in. -/
def Drained (r : Ctx × Socks5State) : Prop := decode r.2 (bufferReadPtr r.1.c.originBuf) = none

theorem drained_close (hends : x.c.activeEnds = clientEnds) :
    Drained (closeClient x clientReadEnd) := by
  unfold Drained
  rw [hangup_state hends]
  rfl

theorem drained_refuse {reply : ServerReplyType} (hends : x.c.activeEnds = clientEnds)
    (h : replyAndClose x reply = .ok r) : Drained r := by
  obtain ⟨-, rfl⟩ := replyAndClose_ok h
  exact drained_close (x := failReply x reply) hends

/-- After a message the decision tells where the machine goes. -/
theorem Obeys.drained_iff {d : Decision} (h : Obeys e y (.ok r) d)
    (hends : y.c.activeEnds = clientEnds) :
    Drained r ↔ ∀ st', d.next y.w.users = some st' →
    decode st' (bufferReadPtr y.c.originBuf) = none := by
  have hstop : ∀ {d : Decision}, d.next y.w.users = none → Drained r →
      (Drained r ↔ ∀ st', d.next y.w.users = some st' →
        decode st' (bufferReadPtr y.c.originBuf) = none) := by
    intro d hnone hr
    refine ⟨fun _ st' hst' => ?_, fun _ => hr⟩
    rw [hnone] at hst'
    cases hst'
  have hgo : ∀ {z : Ctx} {st : Socks5State} {bs : List UInt8} {d : Decision}, Replies y bs z →
      d.next y.w.users = some st → (Drained (z, st) ↔ ∀ st', d.next y.w.users = some st' →
        decode st' (bufferReadPtr y.c.originBuf) = none) := by
    intro z st bs d hz hd
    unfold Drained
    dsimp only
    rw [hz.originBuf, hd]
    exact ⟨fun h st' hst' => by rwa [← Option.some.inj hst'], fun h => h st rfl⟩
  cases d with
  | method m =>
    obtain ⟨z, hz, hr⟩ := h
    cases hr
    exact hgo hz rfl
  | noMethod =>
    obtain ⟨z, hz, hr⟩ := h
    cases hr
    exact hstop rfl (drained_close (hz.ends.trans hends))
  | badVersion =>
    obtain ⟨z, hz, hr⟩ := h
    cases hr
    exact hstop rfl (drained_close (hz.ends.trans hends))
  | check user pass =>
    obtain ⟨z, -, h⟩ := h
    by_cases ht : tryCredentials y.w.users (cString user) (cString pass) = true
    · rw [if_pos ht] at h
      obtain ⟨hz, hr⟩ := h
      cases hr
      exact hgo hz (if_pos ht)
    · rw [if_neg ht] at h
      obtain ⟨hz, hr⟩ := h
      cases hr
      exact hstop (if_neg ht) (drained_close (hz.ends.trans hends))
  | resolve name port =>
    obtain ⟨z, hz, h⟩ := h
    refine hstop rfl ?_
    split at h
    · obtain ⟨-, -, hr⟩ := h
      cases hr
      exact rfl
    · exact drained_refuse (hz.ends.trans hends) h.symm
  | connect a =>
    obtain ⟨z, hz, h⟩ := h
    refine hstop rfl ?_
    split at h
    · obtain ⟨-, hr⟩ := h
      cases hr
      exact rfl
    · exact drained_refuse (hz.ends.trans hends) h.symm
  | unsupported => exact hstop rfl (drained_refuse hends h.symm)

section
variable {handler : Env → ℤ → Ctx → Except Fault (Ctx × Socks5State)}
  (hh : onReadReady st = some handler) (hst : st = .authMethod ∨ st = .plainAuth ∨ st = .request)
  (hends : y.c.activeEnds = clientEnds) (hr : handler e fd y = .ok r)
include hh hst hends hr

theorem drained_eof (heof : y.eof e = true) : Drained r := by
  have hclose : Drained (closeClient (y.readClient e) clientReadEnd) := drained_close hends
  unfold Ctx.eof at heof
  rcases hst with rfl | rfl | rfl
  · cases hh
    unfold readAuthMethod at hr
    dsimp only at hr
    rw [heof, if_pos rfl] at hr
    split at hr
    · cases hr
    · cases hr
      exact hclose
  · cases hh
    unfold readPlainAuth at hr
    dsimp only at hr
    rw [heof, if_pos rfl] at hr
    split at hr
    · cases hr
    · cases hr
      exact hclose
  · cases hh
    unfold readProxyRequest at hr
    dsimp only at hr
    rw [heof, if_pos rfl] at hr
    split at hr
    · cases hr
    · exact drained_refuse (by exact hends) hr

/-- A handler that finds no message stays in its state, or hangs up. -/
theorem drained_none (hfd : y.c.clientSock = fd) (hok : y.eof e = false)
    (hcur : y.c.current = some st) (hnone : decode st (y.held e) = none) : Drained r := by
  have hstay : ∀ z : Ctx, z.c.originBuf = (y.readClient e).c.originBuf →
      Drained (z, stmState y.c) := by
    intro z hz
    unfold Drained
    dsimp only
    rw [hz, stmState_of_current hcur]
    exact hnone
  rcases hst with rfl | rfl | rfl
  · cases hh
    rcases readAuthMethod_reads hfd hok with ⟨-, hw⟩ | ⟨version, methods, rest, n, hn, hsome, -, -⟩
    · cases hr.symm.trans hw
      exact hstay _ rfl
    · rw [hnone] at hsome
      cases hsome
  · cases hh
    rcases readPlainAuth_reads hfd hok with
      ⟨-, hw⟩ | ⟨version, user, pass, rest, n, hn, hsome, -, -⟩
    · cases hr.symm.trans hw
      exact hstay _ rfl
    · rw [hnone] at hsome
      cases hsome
  · cases hh
    rcases readProxyRequest_reads hfd hok with
      ⟨-, -, a, hw⟩ | ⟨version, cmd, rsv, atyp, tail, -, -, hw⟩ |
      ⟨version, cmd, rsv, atyp, d, addr, q, rest, n, hn, hs, hbs, -, -⟩
    · cases hr.symm.trans hw
      exact hstay _ rfl
    · exact drained_refuse (by exact hends) (hw.symm.trans hr)
    · rw [hbs] at hnone
      cases hnone.symm.trans (requestReader_cons hs)

theorem drained_iff (hfd : y.c.clientSock = fd) (hcur : y.c.current = some st) (hroom : Roomy y) :
    Drained r ↔ (y.eof e = false → ¬ Pipelined st y.w.users (y.held e)) := by
  cases heof : y.eof e with
  | true => simp [drained_eof hh hst hends hr heof]
  | false =>
    cases hdec : decode st (y.held e) with
    | none =>
      refine ⟨fun _ _ => ?_, fun _ => drained_none hh hst hends hr hfd heof hcur hdec⟩
      rintro ⟨m, rest, st', hsome, -⟩
      cases hdec.symm.trans hsome
    | some p =>
      obtain ⟨m, rest⟩ := p
      obtain ⟨msg, z, -, htook, hobeys⟩ := handshake_decides hdec hh hfd heof hroom
      rw [hr] at hobeys
      rw [hobeys.drained_iff (htook.ends.trans hends), htook.users, htook.unread]
      constructor
      · rintro hall - ⟨m', rest', st', hsome, hnext, hmore⟩
        cases hdec.symm.trans hsome
        exact hmore (hall st' hnext)
      · intro hno st' hnext
        by_contra hmore
        exact hno rfl ⟨m, rest, st', hdec, hnext, hmore⟩

end

/-! ## Events -/

/-- The read half of the event for descriptor `i` runs a handler of the handshake. -/
structure HandshakeRead (s : Server) (i : ℕ) (r : Bool) (id : ClientId) (c : Client) : Prop where
  running : s.halted = none
  used : itemUsed (s.w.selector.fds i) = true
  ready : r = true
  interest : (s.w.selector.fds i).interest.read = true
  data : (s.w.selector.fds i).data = some (.socks5 id)
  heap : s.heap id = some c
  state : stmState c = .authMethod ∨ stmState c = .plainAuth ∨ stmState c = .request

/-- After the event no whole message is left unread, and if the handler took its
end-of-file exit, then the peer has closed or the connection has failed. -/
def Attentive (s : Server) : Event → Prop
  | .dispatch i r _ er _ => ∀ id c, HandshakeRead s i r id c →
    (∀ c', (readHalf i r er s).halted = none → (readHalf i r er s).heap id = some c' →
      decode (stmState c') (bufferReadPtr c'.originBuf) = none) ∧
    (Ctx.eof ⟨id, c, s.w⟩ er = true → er.read = .data [] ∨ er.read = .error)
  | _ => True

/-- There is room for the bytes that have arrived, and they do not complete two
messages at once. -/
def Unhurried (s : Server) : Event → Prop
  | .dispatch i r _ er _ => ∀ id c, HandshakeRead s i r id c → er.read ≠ .data [] →
    er.read ≠ .error →
    (er.read ≠ .again → bufferCanWrite c.originBuf = true) ∧
    ¬ Pipelined (stmState c) s.w.users
      (bufferReadPtr c.originBuf ++ er.read.bytes (readSize c.originBuf))
  | _ => True

theorem eof_iff (x : Ctx) (e : Env) : x.eof e = true ↔ e.read = .data [] ∨ e.read = .error ∨
    (e.read ≠ .again ∧ bufferCanWrite x.c.originBuf = false) := by
  have hle := x.c.originBuf.write_le_limit
  have hroom : bufferCanWrite x.c.originBuf = false ↔ readSize x.c.originBuf = 0 := by
    simp only [bufferCanWrite, decide_eq_false_iff_not, readSize, bufferWritePtr, socketBuffsize]
    omega
  rw [hroom]
  change checkEOF (e.read.count (readSize x.c.originBuf)) e.read.isAgain = true ↔ _
  generalize readSize x.c.originBuf = n
  cases e.read with
  | data bs =>
    cases bs with
    | nil => simp [ReadResult.count, checkEOF]
    | cons b bs =>
      cases n with
      | zero => simp [ReadResult.count, checkEOF]
      | succ n =>
        have hlen : 0 < ((b :: bs).take (n + 1)).length := by simp
        have hpos : ¬ (((b :: bs).take (n + 1)).length : ℤ) = 0 := by omega
        have hneg : ¬ (((b :: bs).take (n + 1)).length : ℤ) < 0 := by omega
        simp only [ReadResult.count, checkEOF, hpos, hneg, decide_false, Bool.false_and,
          Bool.or_self]
        simp
  | again => simp [ReadResult.count, checkEOF, ReadResult.isAgain]
  | error => simp [ReadResult.count, checkEOF, ReadResult.isAgain]

theorem readHalf_handshake (hinv : Inv s) {i : ℕ} {b : Bool} (h : HandshakeRead s i b id c) :
    readHalf i b e s = s.run id (stmHandlerRead e (s.w.selector.fds i).fd) ∧
      Hit s id c (s.w.selector.fds i).fd (s.w.selector.fds i).interest := by
  obtain ⟨hit, -⟩ := hinv.selector.item?_of_used h.used
  obtain ⟨c', hhit⟩ := hinv.hit hit h.data
  obtain rfl : c' = c := Option.some.inj (hhit.heap.symm.trans h.heap)
  refine ⟨?_, hhit⟩
  unfold readHalf
  simp only [h.ready, h.interest, Bool.and_self, ↓reduceIte, handleRead, h.data]

theorem drained_jump (h : jump r = .ok o) :
    Drained r ↔ ∀ c', o.c = some c' → decode (stmState c') (bufferReadPtr c'.originBuf) = none := by
  by_cases hdone : r.2 = .done
  · have hdr : Drained r := by
      unfold Drained
      rw [hdone]
      rfl
    refine ⟨fun _ c' hc' => ?_, fun _ => hdr⟩
    rcases jump_cases h with ⟨hcur, rfl⟩ | ⟨-, ha⟩
    · cases hc'
      rw [stmState_of_current hcur, hdone]
      rfl
    · rw [hdone] at ha
      rw [clientDestroy_ok ha] at hc'
      cases hc'
  · rw [jump_client h hdone]
    constructor
    · intro hr c' heq
      cases heq
      exact hr
    · intro hall
      exact hall _ rfl

/-- No message follows a request. -/
theorem not_pipelined_request {users : UserTable} {bs : List UInt8} :
    ¬ Pipelined .request users bs := by
  rintro ⟨m, rest, st', hdec, hnext, -⟩
  obtain ⟨version, cmd, rsv, atyp, d, addr, q, -, -, rfl⟩ := requestReader_eq_some hdec
  change (if cmd = 0x01 then d.decision q else .unsupported).next users = some st' at hnext
  split_ifs at hnext
  · cases d <;> cases hnext
  · cases hnext

/-- One read event of the handshake, as the state machine engine runs it. -/
theorem stmHandlerRead_drained {i m : FdInterest} (hctl : Ctl x.id x.c x.w.selector x.c.current)
    (hheld : Held (.socks5 x.id) x.w.selector fd i m)
    (hst : stmState x.c = .authMethod ∨ stmState x.c = .plainAuth ∨ stmState x.c = .request)
    (hroom : Roomy x) :
    (∀ o c', stmHandlerRead e fd x = .ok o → o.c = some c' →
      decode (stmState c') (bufferReadPtr c'.originBuf) = none) ↔
    (x.eof e = false → ¬ Pipelined (stmState x.c) x.w.users (x.held e)) := by
  obtain ⟨st, hcur⟩ := handleFirst_current x
  have hctly := handleFirst_ctl hctl hheld hcur
  obtain ⟨hyo, hyc, hys⟩ := handleFirst_buffers x
  obtain ⟨hyid, hyw⟩ := handleFirst_same x
  have hsty : stmState x.c = st := by rw [← handleFirst_state, stmState_of_current hcur]
  rw [hsty] at hst ⊢
  obtain ⟨handler, hh⟩ : ∃ handler, onReadReady st = some handler := by
    rcases hst with rfl | rfl | rfl <;> exact ⟨_, rfl⟩
  have hrun : stmHandlerRead e fd x = (handler e fd (handleFirst x)).bind jump :=
    stmHandlerRead_eq (stmState_of_current hcur) hh
  have heofy : (handleFirst x).eof e = x.eof e := by
    unfold Ctx.eof Ctx.readClientCount
    rw [hyo]
  have hheldy : (handleFirst x).held e = x.held e := by rw [Ctx.held_eq, Ctx.held_eq, hyo]
  have hroomy : Roomy (handleFirst x) := by
    unfold Roomy
    rw [hyc]
    exact hroom
  rw [← heofy, ← hheldy, ← hyw, hrun]
  generalize handleFirst x = y at hcur hctly hyid hyw hroomy
  have hfd : y.c.clientSock = fd := hctly.handshake_fd hst (by rw [hyid, hyw]; exact hheld)
  have hends : y.c.activeEnds = clientEnds := by
    rcases hst with rfl | rfl | rfl
    · exact (show Alone y.id y.c y.w.selector opRead opRead from hctly).ends
    · exact (show Alone y.id y.c y.w.selector ⟨true, true⟩ opRead from hctly).ends
    · exact (show Alone y.id y.c y.w.selector ⟨true, true⟩ opRead from hctly).ends
  cases hr : handler e fd y with
  | error f =>
    -- only a request can fail, and no message follows a request
    refine ⟨fun _ _ => ?_, fun _ o c' ho => by cases ho⟩
    rcases hst with rfl | rfl | rfl
    · cases hh
      exact absurd hr (readAuthMethod_error hfd.symm)
    · cases hh
      exact absurd hr (readPlainAuth_error hfd.symm)
    · exact not_pipelined_request
  | ok r =>
    change (∀ o c', jump r = .ok o → o.c = some c' →
      decode (stmState c') (bufferReadPtr c'.originBuf) = none) ↔ _
    rw [← drained_iff hh hst hends hr hfd hcur hroomy]
    cases hj : jump r with
    | error f =>
      refine ⟨fun _ => ?_, fun _ o c' ho => by cases ho⟩
      unfold Drained
      rw [(jump_fails hj).1]
      rfl
    | ok o =>
      rw [drained_jump hj]
      exact ⟨fun h c' hc' => h o c' rfl hc', fun h o' c' ho' hc' => h c' (by cases ho'; exact hc')⟩

theorem attentive_iff (hinv : Inv s) (htold : intact.Told s) (ev : Event) :
    Attentive s ev ↔ Unhurried s ev := by
  cases ev with
  | dispatch i b w er ew =>
    refine forall_congr' fun id => forall_congr' fun c => forall_congr' fun h => ?_
    obtain ⟨hhalf, hhit⟩ := readHalf_handshake (e := er) hinv h
    obtain ⟨m, hheld⟩ := hhit.held
    have hiff := stmHandlerRead_drained (x := ⟨id, c, s.w⟩) (e := er) (hhit.ctl hinv) hheld h.state
      ((htold.live id c h.heap).room h.state)
    have hfirst : (∀ c', (readHalf i b er s).halted = none → (readHalf i b er s).heap id = some c' →
          decode (stmState c') (bufferReadPtr c'.originBuf) = none) ↔
        (∀ o c', stmHandlerRead er (s.w.selector.fds i).fd ⟨id, c, s.w⟩ = .ok o → o.c = some c' →
          decode (stmState c') (bufferReadPtr c'.originBuf) = none) := by
      rw [hhalf]
      cases hr : stmHandlerRead er (s.w.selector.fds i).fd ⟨id, c, s.w⟩ with
      | error f =>
        rw [run_error h.heap hr]
        exact ⟨fun _ o c' ho => (by cases ho), fun _ c' hh => (by cases hh)⟩
      | ok o =>
        rw [run_ok h.heap hr]
        refine ⟨fun hall o' c' ho' hc' => ?_, fun hall c' _ hc' => ?_⟩
        · cases ho'
          exact hall c' h.running (by dsimp only; rw [Function.update_self]; exact hc')
        · dsimp only at hc'
          rw [Function.update_self] at hc'
          exact hall o c' rfl hc'
    rw [hfirst, hiff, Ctx.held_eq]
    have heof := eof_iff ⟨id, c, s.w⟩ er
    cases hcan : bufferCanWrite c.originBuf <;> simp only [hcan] at heof <;>
      cases he : Ctx.eof ⟨id, c, s.w⟩ er <;> simp only [he] at heof <;> simp <;> tauto
  | resolved | notify | addUser | setBuffsize | setDissector | mgmtClose => exact Iff.rfl

/-! ## Runs -/

/-- A run leaves no client of the handshake waiting for bytes that it has sent, and
takes none for closed that is not, if and only if at every read event of the
handshake there is room in the buffer and no second message is complete. -/
theorem handshake_attentive_iff (users : UserTable) (masters monitors : List ℤ) (evs : List Event) :
    Along step Attentive (boot users masters monitors) evs ↔
      Along step Unhurried (boot users masters monitors) evs := by
  refine along_congr (P := fun s => ∃ pre, s = exec step (boot users masters monitors) pre)
    ⟨[], rfl⟩ ?_ ?_
  · rintro s ev ⟨pre, rfl⟩
    exact ⟨pre ++ [ev], by rw [exec_append]; rfl⟩
  · rintro s ev ⟨pre, rfl⟩
    exact attentive_iff (reachable_inv users masters monitors pre)
      (intact.reachable users masters monitors pre) ev

/-- A greeting and a request in one segment: the request is complete, and the server
waits for more. -/
theorem greeting_with_request_waits :
    ¬ Along step Attentive (boot [] [] [])
      [readable 0 (.fine [] 3), readable 3 (.fine ([0x5, 0x1, 0x0] ++ connectRequest) 3)] := by
  intro h
  have hheap : ((step (boot [] [] []) (readable 0 (.fine [] 3))).heap 0).map stmState =
      some .authMethod := by decide
  obtain ⟨c, hc, hst⟩ := Option.map_eq_some_iff.mp hheap
  have hread : HandshakeRead (step (boot [] [] []) (readable 0 (.fine [] 3))) 3 true 0 c :=
    ⟨by decide, by decide, rfl, by decide, by decide, hc, .inl hst⟩
  have hafter : ((readHalf 3 true (.fine ([0x5, 0x1, 0x0] ++ connectRequest) 3)
      (step (boot [] [] []) (readable 0 (.fine [] 3)))).heap 0).map (fun c =>
        (decode (stmState c) (bufferReadPtr c.originBuf)).isSome) = some true := by decide
  obtain ⟨c', hc', hsome⟩ := Option.map_eq_some_iff.mp hafter
  rw [(h.2.1 0 c hread).1 c' (by decide) hc'] at hsome
  cases hsome

end Socks5d
