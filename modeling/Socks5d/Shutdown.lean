import Socks5d.Replies

/-! # The orderly end of a relay

Both directions of a relay end by themselves: a direction is closed for writing when
its reading side has ended and its buffer is empty. But `CLIENT_WRITE` takes the other
direction with it. -/

namespace Socks5d
open EventRun

variable {x : Ctx} {e : Env} {fd : ℤ} {r : Ctx × Socks5State} {c : Client} {h : List Obs}
  {st : Socks5State}

/-- Whatever was read on one socket has been sent on the other. -/
def Delivered (h : List Obs) : Prop :=
  bytesOf .recvClient h = bytesOf .consumed h ++ bytesOf .sentOrigin h ∧
  bytesOf .sentClient h = bytesOf .replied h ++ bytesOf .recvOrigin h

/-- No `send` for client `id` fails. -/
def SendsFine (id : ClientId) : Server → ClientId → Client → ℤ → Env → Prop :=
  fun _ j _ _ e => j = id → e.send ≠ .error

/-- When the socket of client `id` is writable, nothing is left to be sent on it and the
origin has ended, then nothing waits for the origin either. -/
def UploadSent (id : ClientId) : Server → ClientId → Client → ℤ → Env → Prop :=
  fun _ j c fd _ => j = id → fd = c.clientSock → bufferCanRead c.clientBuf = false →
    c.activeEnds.originRead = false → c.activeEnds.originWrite = true →
    bufferCanRead c.originBuf = false

/-! ## One event -/

theorem readPtr_eq_nil {b : Buffer} : bufferReadPtr b = [] ↔ bufferCanRead b = false := by
  rw [← Bool.not_eq_true, bufferCanRead_iff, not_not]

/-- Bytes wait for the origin only while it can be written to. -/
def Flushed (c : Client) : Prop := c.activeEnds.originWrite = false → bufferReadPtr c.originBuf = []

/-- What a handler of the relay leaves. -/
structure Orderly (r : Ctx × Socks5State) : Prop where
  flushed : Flushed r.1.c
  delivered : r.2 = .done → Delivered r.1.past

theorem Orderly.stay (hst : st ≠ .done) (hf : Flushed x.c) : Orderly (x, st) :=
  ⟨hf, fun h => absurd h hst⟩

theorem closeState_orderly (hst : stmState x.c ≠ .done) (hf : Flushed x.c) :
    Orderly (closeState x) := by
  unfold closeState
  split
  · refine .stay hst ?_
    rw [enableWrite_c]
    exact hf
  · exact .stay (by decide) hf

section
variable (hcw : x.c.activeEnds.clientWrite = true) (hst : stmState x.c ≠ .done)
include hcw hst

/-- A reading end closes. -/
theorem closeClient_reading {level : SocketEnds} (h1 : level.clientWrite = false)
    (h2 : level.originWrite = false) (hf : Flushed x.c) : Orderly (closeClient x level) := by
  have hl1 : (level &&& x.c.activeEnds).clientWrite = false := by simp [h1]
  have hl2 : (level &&& x.c.activeEnds).originWrite = false := by simp [h2]
  rw [closeClient_last hcw hl1 hl2]
  apply closeState_orderly
  · rw [stmState_closes .closeEnds]
    exact hst
  · intro how
    rw [closeEnds_c] at how ⊢
    apply hf
    simpa [h2] using how

/-- `ORIGIN_WRITE` closes once the upload has ended and is sent. -/
theorem closeClient_uploaded (hbuf : bufferReadPtr x.c.originBuf = []) :
    Orderly (closeClient x originWriteEnd) := by
  by_cases how : x.c.activeEnds.originWrite = true
  · rw [closeClient_originWrite how]
    apply closeClient_reading
    · simpa [originWriteEnd] using hcw
    · rw [stmState_closes .closeEnds]
      exact hst
    · rfl
    · rfl
    · intro _
      rw [closeEnds_c]
      exact hbuf
  · have hnone : (originWriteEnd &&& x.c.activeEnds).any = false := by
      simp [SocketEnds.any, originWriteEnd, how]
    rw [closeClient_last hcw (by simp [originWriteEnd]) (by simp [originWriteEnd, how]),
      closeEnds_none hnone]
    exact closeState_orderly hst fun _ => hbuf

end

/-- `CLIENT_WRITE` closes and everything else with it. -/
theorem closeClient_delivered (hc : Conserved x.c x.past)
    (hclient : bufferReadPtr x.c.clientBuf = []) (horigin : bufferReadPtr x.c.originBuf = []) :
    Orderly (closeClient x clientWriteEnd) := by
  have hi := Idle.closes (closeClient_closes x clientWriteEnd)
  have hbuf : (closeClient x clientWriteEnd).1.c.originBuf = x.c.originBuf := by
    rw [(closeClient_closes x clientWriteEnd).c_eq]
  refine ⟨fun _ => by rw [hbuf]; exact horigin, fun _ => ⟨?_, ?_⟩⟩
  · rw [hi.bytes, hi.bytes, hi.bytes, ← hc.toOrigin, horigin, List.append_nil]
  · rw [hi.bytes, hi.bytes, hi.bytes, ← hc.toClient, hclient, List.append_nil]

theorem handleProxyRead_orderly {i m : FdInterest} (hrel : Relaying x.id x.c x.w.selector)
    (hcur : x.c.current = some .proxy) (hheld : Held (.socks5 x.id) x.w.selector fd i m)
    (hi : i.read = true) (hf : Flushed x.c) (hr : handleProxyRead e fd x = .ok r) : Orderly r := by
  have hst : stmState x.c ≠ .done := by
    rw [stmState_of_current hcur]
    decide
  rcases handleProxyRead_cases hr with ⟨hfd, hcases⟩ | ⟨-, -, ⟨-, rfl⟩ | rfl | ⟨p, rfl⟩⟩
  · -- the client is only read from while the origin can be written to
    have how : x.c.activeEnds.originWrite = true := by
      rcases hrel.fd_cases hheld with ⟨-, rfl⟩ | ⟨hfd', -⟩
      · exact hrel.originWrite hi
      · exact absurd (hfd.symm.trans hfd') hrel.joined.ne
    have hread : Flushed (x.readClient e).c := by
      intro hno
      have hno' : x.c.activeEnds.originWrite = false := hno
      rw [how] at hno'
      cases hno'
    rcases hcases with ⟨-, rfl⟩ | rfl | ⟨p, rfl⟩
    · exact .stay hst hf
    · exact closeClient_reading (by exact hrel.clientWrite) (by exact hst) rfl rfl hread
    · exact .stay hst hread
  · exact .stay hst hf
  · exact closeClient_reading (by exact hrel.clientWrite) (by exact hst) rfl rfl hf
  · exact .stay hst hf

theorem handleProxyWrite_orderly (hcw : x.c.activeEnds.clientWrite = true)
    (hst : stmState x.c ≠ .done) (hc : Conserved x.c x.past) (hf : Flushed x.c)
    (hsend : e.send ≠ .error)
    (hup : fd = x.c.clientSock → bufferCanRead x.c.clientBuf = false →
      x.c.activeEnds.originRead = false → x.c.activeEnds.originWrite = true →
      bufferCanRead x.c.originBuf = false)
    (hr : handleProxyWrite e fd x = .ok r) : Orderly r := by
  rcases handleProxyWrite_cases hr with
    ⟨hfd, ⟨hbuf, hor, -, rfl⟩ | ⟨-, -, rfl⟩ | ⟨-, herr, -⟩ | ⟨n, -, rfl⟩⟩ |
    ⟨-, -, ⟨hbuf, -, rfl⟩ | ⟨-, -, rfl⟩ | ⟨-, herr, -⟩ | ⟨n, -, rfl⟩⟩
  · refine closeClient_delivered hc (readPtr_eq_nil.mpr hbuf) ?_
    by_cases how : x.c.activeEnds.originWrite = true
    · exact readPtr_eq_nil.mpr (hup hfd hbuf hor how)
    · exact hf (by simpa using how)
  · exact .stay hst hf
  · exact absurd herr hsend
  · exact .stay hst hf
  · exact closeClient_uploaded hcw hst (readPtr_eq_nil.mpr hbuf)
  · exact .stay hst hf
  · exact absurd herr hsend
  · refine .stay hst ?_
    intro how
    have hb : bufferReadPtr (x.writeOrigin e).c.originBuf = _ :=
      writeToSock_readPtr e.send x.c.originBuf
    have hnil : bufferReadPtr x.c.originBuf = [] := hf how
    rw [hnil, List.drop_nil] at hb
    exact hb

/-! ## Events in every state -/

theorem Stage.opened (hs : Stage st h) (ho : Opened (bytesOf .replied h)) :
    st = .proxy ∨ st = .writeRemaining ∨ st = .done := by
  cases st with
  | authMethod => exact absurd ho (not_opened_short (by rw [hs.1]; decide))
  | plainAuth => exact absurd ho (not_opened_short (by rw [hs.1]; decide))
  | request | resolving | connecting => exact absurd ho (not_opened_short hs.1.length_lt)
  | proxy => exact .inl rfl
  | writeRemaining => exact .inr (.inl rfl)
  | done => exact .inr (.inr rfl)

section
variable {handler : Env → ℤ → Ctx → Except Fault (Ctx × Socks5State)} {i m : FdInterest}
  (hctl : Ctl x.id x.c x.w.selector (some st)) (hcur : x.c.current = some st)
  (hs : Stage st x.past) (hf : Opened (bytesOf .replied x.past) → Flushed x.c)
  (ho : Opened (bytesOf .replied r.1.past))
include hctl hcur hs hf ho

theorem read_orderly (hheld : Held (.socks5 x.id) x.w.selector fd i m) (hi : i.read = true)
    (hh : onReadReady st = some handler) (hr : handler e fd x = .ok r) : Orderly r := by
  have hopen := (read_speaks hctl hcur hh hs hr).opened.mp ho
  rcases hs.opened hopen with rfl | rfl | rfl
  · cases hh
    exact handleProxyRead_orderly hctl hcur hheld hi (hf hopen) hr
  · cases hh
  · cases hh

theorem write_orderly (hc : Conserved x.c x.past) (hsend : e.send ≠ .error)
    (hup : fd = x.c.clientSock → bufferCanRead x.c.clientBuf = false →
      x.c.activeEnds.originRead = false → x.c.activeEnds.originWrite = true →
      bufferCanRead x.c.originBuf = false)
    (hh : onWriteReady st = some handler) (hr : handler e fd x = .ok r) : Orderly r := by
  have hst := stmState_of_current hcur
  rcases write_speaks hctl hcur hh hs hr with hsp | ⟨hproxy, how, -⟩
  · have hopen := hsp.opened.mp ho
    rcases hs.opened hopen with rfl | rfl | rfl
    · cases hh
      exact handleProxyWrite_orderly (Relaying.clientWrite hctl) (by rw [hst]; decide) hc (hf hopen)
        hsend hup hr
    · cases hh
      have hcw : x.c.activeEnds.clientWrite = true := by
        rcases hctl with ⟨hends, -⟩ | ⟨hends, -⟩ <;> rw [hends] <;> rfl
      exact handleProxyWrite_orderly hcw (by rw [hst]; decide) hc (hf hopen) hsend hup hr
    · cases hh
  · -- the relay begins with every end open
    refine ⟨fun hno => ?_, fun hdone => ?_⟩
    · rw [how] at hno
      cases hno
    · rw [hproxy] at hdone
      cases hdone

end

/-! ## Runs -/

/-- Client `id`, if a success was reported to it. -/
structure Winding (id : ClientId) (s : Server) : Prop where
  live : ∀ c, s.heap id = some c → Opened (s.replied id) → Flushed c
  gone : s.heap id = none → Opened (s.replied id) → Delivered (history id s.w.log)

section
variable {s s' : Server} {id : ClientId} {o : Outcome}

theorem Delivered.congr {h' : List Obs} (hd : Delivered h) (hb : ∀ k, bytesOf k h' = bytesOf k h) :
    Delivered h' := by
  unfold Delivered
  rw [hb, hb, hb, hb, hb, hb]
  exact hd

theorem jump_orderly (hj : jump r = .ok o)
    (h : Opened (bytesOf .replied r.1.past) → Orderly r)
    (ho : Opened (bytesOf .replied (history r.1.id o.w.log))) :
    (∀ c, o.c = some c → Flushed c) ∧ (o.c = none → Delivered (history r.1.id o.w.log)) := by
  have hord := h (by rw [jump_bytes hj] at ho; exact ho)
  rcases jump_cases hj with ⟨-, rfl⟩ | ⟨-, ha⟩
  · exact ⟨fun c hc => Option.some.inj hc ▸ hord.flushed, fun hnone => by cases hnone⟩
  by_cases hdone : r.2 = .done
  · rw [hdone] at ha
    have hgone := (hord.delivered hdone).congr fun k => jump_bytes hj k
    refine ⟨?_, fun _ => hgone⟩
    intro c hc
    rw [clientDestroy_ok ha] at hc
    cases hc
  · rw [jump_client hj hdone]
    refine ⟨?_, ?_⟩
    · intro c hc
      cases hc
      exact hord.flushed
    · intro hnone
      cases hnone

/-- Both conditions on the write events of client `id`. -/
def OrderlyWrite (id : ClientId) (s : Server) (j : ClientId) (c : Client) (fd : ℤ)
    (e : Env) : Prop :=
  SendsFine id s j c fd e ∧ UploadSent id s j c fd e

theorem handleFirst_client (x : Ctx) : ∃ cur, (handleFirst x).c = { x.c with current := cur } := by
  rcases handleFirst_cases x with ⟨-, hx⟩ | ⟨-, hx⟩
  · exact ⟨some .authMethod, by rw [hx]; rfl⟩
  · exact ⟨x.c.current, by rw [hx]⟩

theorem Winding.run {handler : Ctx → Except Fault Outcome} (hw : Winding id s)
    (hc : s.heap id = some c)
    (hown : ∀ o, handler ⟨id, c, s.w⟩ = .ok o → Opened (bytesOf .replied (history id o.w.log)) →
      (∀ c, o.c = some c → Flushed c) ∧ (o.c = none → Delivered (history id o.w.log))) :
    Winding id (s.run id handler) := by
  cases hr : handler ⟨id, c, s.w⟩ with
  | error f =>
    rw [run_error hc hr]
    exact ⟨hw.live, hw.gone⟩
  | ok o =>
    rw [run_ok hc hr]
    refine ⟨fun c' hc' ho => ?_, fun hnone ho => ?_⟩
    · dsimp only at hc'
      rw [Function.update_self] at hc'
      exact (hown o hr ho).1 c' hc'
    · dsimp only at hnone
      rw [Function.update_self] at hnone
      exact (hown o hr ho).2 hnone

section
variable {i m : FdInterest} (hctl : Ctl x.id x.c x.w.selector x.c.current)
  (hheld : Held (.socks5 x.id) x.w.selector fd i m) (hs : Stage (stmState x.c) x.past)
  (hf : Opened (bytesOf .replied x.past) → Flushed x.c)
  (hopen : Opened (bytesOf .replied (history x.id o.w.log)))
include hctl hheld hs hf hopen

theorem stmHandlerRead_orderly (hi : i.read = true) (ho : stmHandlerRead e fd x = .ok o) :
    (∀ c, o.c = some c → Flushed c) ∧ (o.c = none → Delivered (history x.id o.w.log)) := by
  obtain ⟨hid, hw⟩ := handleFirst_same x
  obtain ⟨cur, hc⟩ := handleFirst_client x
  obtain ⟨st, r, hh⟩ := stmHandlerRead_handling hctl hheld hi ho
  obtain ⟨handler, hready, hr⟩ := hh.result
  have hrid : r.1.id = x.id := hh.quiet.id_eq.trans hid
  have hstage := Story.handleFirst_live (S := replies) hs hh.current
  have hflush : Opened (bytesOf .replied (handleFirst x).past) → Flushed (handleFirst x).c := by
    rw [Ctx.past, hid, hw, hc]
    exact hf
  rw [← hrid] at hopen ⊢
  refine jump_orderly hh.jump (fun ho' => ?_) hopen
  exact read_orderly hh.ctl hh.current hstage hflush ho' (by rw [hid, hw]; exact hheld) hi hready hr

theorem stmHandlerWrite_orderly (hi : i.write = true) (hcap : itemsMaxSize ≤ x.w.selector.fdSize)
    (hcons : Conserved x.c x.past) (hsend : e.send ≠ .error)
    (hup : fd = x.c.clientSock → bufferCanRead x.c.clientBuf = false →
      x.c.activeEnds.originRead = false → x.c.activeEnds.originWrite = true →
      bufferCanRead x.c.originBuf = false)
    (ho : stmHandlerWrite e fd x = .ok o) :
    (∀ c, o.c = some c → Flushed c) ∧ (o.c = none → Delivered (history x.id o.w.log)) := by
  obtain ⟨hid, hw⟩ := handleFirst_same x
  obtain ⟨cur, hc⟩ := handleFirst_client x
  obtain ⟨st, r, hh⟩ := stmHandlerWrite_handling hctl hheld hi hcap ho
  obtain ⟨handler, hready, hr⟩ := hh.result
  have hrid : r.1.id = x.id := hh.quiet.id_eq.trans hid
  have hstage := Story.handleFirst_live (S := replies) hs hh.current
  have hflush : Opened (bytesOf .replied (handleFirst x).past) → Flushed (handleFirst x).c := by
    rw [Ctx.past, hid, hw, hc]
    exact hf
  have hcons' : Conserved (handleFirst x).c (handleFirst x).past := by
    rw [Ctx.past, hid, hw, hc]
    exact ⟨hcons.toOrigin, hcons.toClient⟩
  rw [← hrid] at hopen ⊢
  refine jump_orderly hh.jump (fun ho' => ?_) hopen
  exact write_orderly hh.ctl hh.current hstage hflush ho' hcons' hsend (by rw [hc]; exact hup)
    hready hr

end

theorem Winding.same (hw : Winding id s) (hc : s.heap id = some c) {c' : Client}
    (hc' : s'.heap id = some c') (hends : c'.activeEnds = c.activeEnds)
    (hbuf : c'.originBuf = c.originBuf) (hh : history id s'.w.log = history id s.w.log) :
    Winding id s' := by
  refine ⟨?_, ?_⟩
  · intro c'' hc'' ho
    rw [hc', Option.some.injEq] at hc''
    rw [Server.replied, hh] at ho
    unfold Flushed
    rw [← hc'', hends, hbuf]
    exact hw.live c hc ho
  · intro hnone
    rw [hc'] at hnone
    cases hnone

theorem Winding.move (hinv : Inv s) (hit : intact.Told s) (hrt : replies.Told s)
    (hw : Winding id s) (hm : Move (OrderlyWrite id) s s') : Winding id s' := by
  cases hc : s.heap id with
  | none =>
    rcases hm.absent hinv hc with ⟨hnone, hh⟩ | ⟨-, k, hh⟩
    · refine ⟨?_, ?_⟩
      · intro c hc'
        rw [hnone] at hc'
        cases hc'
      · intro _ ho
        rw [Server.replied, hh] at ho
        rw [hh]
        exact hw.gone hc ho
    · have hno : ¬ Opened (s'.replied id) := by
        rw [Server.replied, hh]
        exact not_opened_short (Nat.zero_lt_succ 11)
      exact ⟨fun _ _ ho => absurd ho hno, fun _ ho => absurd ho hno⟩
  | some c =>
    cases hm.touch hinv hc with
    | none hc' hh => exact hw.same hc hc' rfl rfl hh
    | resolved addrs hc' hh => exact hw.same hc hc' rfl rfl hh
    | read fd i e hhit hi heq =>
      obtain ⟨m, hheld⟩ := hhit.held
      rw [heq]
      refine hw.run hc fun o ho hopen => ?_
      exact stmHandlerRead_orderly (x := ⟨id, c, s.w⟩) (hhit.ctl hinv) hheld (hrt.live id c hc)
        (hw.live c hc) hopen hi ho
    | write fd i e hhit hi hok heq =>
      obtain ⟨m, hheld⟩ := hhit.held
      rw [heq]
      refine hw.run hc fun o ho hopen => ?_
      exact stmHandlerWrite_orderly (x := ⟨id, c, s.w⟩) (hhit.ctl hinv) hheld (hrt.live id c hc)
        (hw.live c hc) hopen hi hinv.cap (hit.live id c hc).conserved (hok.1 rfl) (hok.2 rfl) ho
    | block jobs heq =>
      rw [heq]
      refine Winding.run (s := { s with w := { s.w with resolutionJobs := jobs } })
        ⟨hw.live, hw.gone⟩ hc fun o ho hopen => ?_
      obtain ⟨hcur, hj⟩ := stmHandlerBlock_cases ho
      have hstage := hrt.live id c hc
      rw [stmState_of_current hcur] at hstage
      rw [jump_bytes hj] at hopen
      rcases (show Stage .resolving _ from hstage).opened hopen with hst | hst | hst <;> cases hst

/-- The success stays reported. -/
theorem opened_persists (hinv : Inv s) (hrt : replies.Told s) (evs : List Event)
    (ho : Opened (s.replied id)) : Opened ((exec step s evs).replied id) := by
  refine (exec_invariant (P := fun t => Inv t ∧ replies.Told t ∧ Opened (t.replied id))
    ⟨hinv, hrt, ho⟩ ?_).2.2
  rintro t ev ⟨hinv, hrt, ho⟩
  obtain ⟨t', hm, hm'⟩ := step_moves hinv ev (along_anyWrite t [ev]).1
  have hinv' := hinv.move hm
  refine ⟨hinv'.move hm', (hrt.move hinv hm).move hinv' hm', ?_⟩
  rcases step_opens hinv hrt ev id with hiff | ⟨-, hopen, -⟩
  · exact hiff.mpr ho
  · exact hopen

end

theorem along_orderly {s : Server} {id : ClientId} {evs : List Event}
    (hsend : Along step (WriteOk (SendsFine id)) s evs)
    (hup : Along step (WriteOk (UploadSent id)) s evs) :
    Along step (WriteOk (OrderlyWrite id)) s evs := by
  refine along_mono ?_ (along_and hsend hup)
  rintro t ev ⟨h, h'⟩
  cases ev with
  | dispatch i r w er ew =>
    intro j c hh hd hh' hw hi hc
    exact ⟨h j c hh hd hh' hw hi hc, h' j c hh hd hh' hw hi hc⟩
  | resolved | notify | addUser | setBuffsize | setDissector | mgmtClose => trivial

theorem boot_winding (users : UserTable) (masters monitors : List ℤ) (id : ClientId) :
    Winding id (boot users masters monitors) := by
  refine ⟨?_, ?_⟩
  · intro c hc
    cases hc
  · intro _ ho
    exact absurd ho (not_opened_short (Nat.zero_lt_succ 11))

/-- A client that relayed and is gone lost nothing, if its upload was through whenever its
own socket was served after the end of the download. -/
theorem shutdown_delivers (users : UserTable) (masters monitors : List ℤ) (evs evs' : List Event)
    (id : ClientId) (c : Client)
    (hc : (exec step (boot users masters monitors) evs).heap id = some c)
    (hst : stmState c = .proxy)
    (hsend : Along step (WriteOk (SendsFine id)) (boot users masters monitors) (evs ++ evs'))
    (hup : Along step (WriteOk (UploadSent id)) (boot users masters monitors) (evs ++ evs'))
    (hgone : (exec step (boot users masters monitors) (evs ++ evs')).heap id = none) :
    Delivered (history id (exec step (boot users masters monitors) (evs ++ evs')).w.log) := by
  have hinv := reachable_inv users masters monitors evs
  have hrt := replies.reachable users masters monitors evs
  have hstage := hrt.live id c hc
  rw [hst] at hstage
  have hopen := opened_persists hinv hrt evs' hstage
  rw [← exec_append] at hopen
  have hrun := run_invariant (P := fun s => (intact.Told s ∧ replies.Told s) ∧ Winding id s)
    ⟨⟨intact.reachable users masters monitors [], replies.reachable users masters monitors []⟩,
      boot_winding users masters monitors id⟩
    (fun s s' hinv hm ⟨⟨hit, hrt⟩, hw⟩ =>
      ⟨⟨hit.move hinv hm, hrt.move hinv hm⟩, hw.move hinv hit hrt hm⟩)
    (along_orderly hsend hup)
  exact hrun.2.2.gone hgone hopen

theorem along_sendsFine {s : Server} {id : ClientId} {evs : List Event}
    (h : ∀ ev ∈ evs, match ev with
      | .dispatch _ _ _ _ ew => ew.send ≠ .error
      | _ => True) : Along step (WriteOk (SendsFine id)) s evs := by
  refine along_writeOk (p := fun e => e.send ≠ .error) ?_ h
  intro s j c fd e he _
  exact he

/-- A test that is enough for `UploadSent`. -/
def uploadTest (id : ClientId) (s : Server) : Event → Bool
  | .dispatch i r _ er _ => ((readHalf i r er s).heap id).all fun c =>
    c.activeEnds.originRead || !c.activeEnds.originWrite || !bufferCanRead c.originBuf
  | _ => true

theorem uploadTest_sent {id : ClientId} {s : Server} {ev : Event} (h : uploadTest id s ev = true) :
    WriteOk (UploadSent id) s ev := by
  cases ev with
  | dispatch i r w er ew =>
    rintro j c - - - - - hc rfl - - hor how
    simpa [uploadTest, hc, hor, how] using h
  | resolved | notify | addUser | setBuffsize | setDissector | mgmtClose => trivial

/-- The upload is sent before the origin ends. -/
theorem shutdown_delivers_upload :
    let evs := greet 3 ++ join 3 4
    let evs' := [readable 3 (.fine [1, 2, 3] 5), writable 4 (.fine [] 5), readable 4 (.fine [] 5),
      writable 3 (.fine [] 5), writable 3 (.fine [] 5)]
    let s := exec step (boot [] [] []) (evs ++ evs')
    s.heap 0 = none ∧ bytesOf .sentOrigin (history 0 s.w.log) = [1, 2, 3] ∧
      Delivered (history 0 s.w.log) := by
  intro evs evs' s
  have hrun : ((exec step (boot [] [] []) evs).heap 0).map stmState = some .proxy := by decide
  obtain ⟨c, hc, hst⟩ := Option.map_eq_some_iff.mp hrun
  have hsend : Along step (WriteOk (SendsFine 0)) (boot [] [] []) (evs ++ evs') :=
    along_sendsFine (by simp [evs, evs', greet, join, readable, writable, Env.fine])
  have htest : Along step (fun s ev => uploadTest 0 s ev = true) (boot [] [] []) (evs ++ evs') := by
    decide
  have hgone : s.heap 0 = none := by
    have hnone : (s.heap 0).isNone = true := by decide
    simpa using hnone
  have hsent : bytesOf .sentOrigin (history 0 s.w.log) = [1, 2, 3] := by decide
  exact ⟨hgone, hsent, shutdown_delivers [] [] [] evs evs' 0 c hc hst hsend
    (along_mono (fun _ _ => uploadTest_sent) htest) hgone⟩

/-- The origin ends while three bytes wait for it. The client socket has the lower
descriptor and is served first: there is nothing left to send on it, and everything is
closed. -/
theorem origin_eof_drops_upload :
    let evs := greet 3 ++ join 3 4 ++ [writable 3 (.fine [] 5)]
    let evs' := [readable 3 (.fine [1, 2, 3] 5), readable 4 (.fine [] 5), writable 3 (.fine [] 5)]
    let s := exec step (boot [] [] []) (evs ++ evs')
    ((exec step (boot [] [] []) evs).heap 0).map stmState = some .proxy ∧
      Along step (WriteOk (SendsFine 0)) (boot [] [] []) (evs ++ evs') ∧
      (s.heap 0).isNone = true ∧ ¬ Delivered (history 0 s.w.log) := by
  intro evs evs' s
  refine ⟨by decide, ?_, by decide, ?_⟩
  · exact along_sendsFine (by simp [evs, evs', greet, join, readable, writable, Env.fine])
  · rintro ⟨hup, -⟩
    revert hup
    decide

end Socks5d
