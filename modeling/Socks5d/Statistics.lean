import Socks5d.Accounting

/-! # The bytes that were transferred

`handle_proxy_write` takes the result of `write_to_sock` from the number of bytes it offered.
That result is what is left after `send`, but -1 when `send` fails, and after `EAGAIN` the
handler goes on: it then counts one byte more than it offered, and nothing was sent. -/

namespace Socks5d
open EventRun

variable {x : Ctx} {e : Env} {fd : ℤ} {r : Ctx × Socks5State} {o : Outcome} {s : Server}
    {id : ClientId}

/-- The bytes that `handle_proxy_write` offers to `send`. -/
def offered (fd : ℤ) (x : Ctx) : ℕ :=
  if x.c.clientSock = fd then x.c.clientBuf.write - x.c.clientBuf.read
  else if x.c.originSock = fd then x.c.originBuf.write - x.c.originBuf.read
  else 0

/-- The client for which the write half of an entry calls `handle_proxy_write` in `PROXY`. -/
def writeCall (i : ℕ) (key : Option Handler) (w : Bool) (s : Server) : Option Ctx :=
  let item := s.w.selector.fds i
  if s.halted.isNone && w && item.interest.write then
    match item.data, key with
    | some (.socks5 _), some (.socks5 id) =>
      (s.heap id).bind fun c => if c.current = some .proxy then some ⟨id, c, s.w⟩ else none
    | _, _ => none
  else none

/-- The call of `handle_proxy_write` for a client in `PROXY` that an event makes, if any. -/
def proxyCall (s : Server) : Event → Option (Env × ℤ × Ctx)
  | .dispatch i r w er ew =>
    let item := s.w.selector.fds i
    if s.halted.isSome || !itemUsed item then none
    else (writeCall i item.data w (readHalf i r er s)).map fun x => (ew, item.fd, x)
  | _ => none

/-- The bytes that `send` accepts in that call. -/
def acceptedBytes (s : Server) (ev : Event) : ℕ :=
  match proxyCall s ev with
  | some (e, fd, x) => e.send.accepted (offered fd x)
  | none => 0

def totalAccepted : Server → List Event → ℕ
  | _, [] => 0
  | s, ev :: evs => acceptedBytes s ev + totalAccepted (step s ev) evs

/-- The call does not get `EAGAIN` for bytes that it offers. -/
def Unblocked (e : Env) (fd : ℤ) (x : Ctx) : Prop := e.send = .again → offered fd x = 0

instance : Decidable (Unblocked e fd x) := inferInstanceAs (Decidable (_ → _))

def SendsThrough (s : Server) (ev : Event) : Prop :=
  ∀ p ∈ proxyCall s ev, Unblocked p.1 p.2.1 p.2.2

instance {ev : Event} : Decidable (SendsThrough s ev) := inferInstanceAs (Decidable (∀ _ ∈ _, _))

/-! ## Handlers -/

theorem ofInt_natCast (n : ℕ) : UInt64.ofInt n = UInt64.ofNat n := by
  have hmod : (n : ℤ) % 2 ^ 64 = ((n % 2 ^ 64 : ℕ) : ℤ) := by omega
  rw [UInt64.ofInt, hmod, Int.toNat_natCast, UInt64.ofNat_mod_size]

/-- What is counted for a write that does not fail. -/
theorem counted_eq {send : SendResult} (b : Buffer) (hagain : send ≠ .again)
    (herr : send ≠ .error) :
    UInt64.ofInt (((b.write - b.read : ℕ) : ℤ) - (writeToSock send b).2) =
      UInt64.ofNat (send.accepted (b.write - b.read)) := by
  cases send with
  | again => exact absurd rfl hagain
  | error => exact absurd rfl herr
  | sent n =>
    rw [← ofInt_natCast]
    congr 1
    simp only [writeToSock]
    omega

/-- Nothing is offered, or `send` fails: the bytes stay as they are. -/
theorem uncounted {w w' : World} {n : ℕ} (h : w'.figures = w.figures) (hn : n = 0) :
    w'.transferredBytes = w.transferredBytes + UInt64.ofNat n := by
  have hbytes : w'.transferredBytes = w.transferredBytes := congrArg Prod.snd h
  rw [hbytes, hn]
  exact (UInt64.add_zero _).symm

theorem empty_of_not_canRead {b : Buffer} (h : bufferCanRead b = false) :
    b.write - b.read = 0 := by
  simp only [bufferCanRead, decide_eq_false_iff_not] at h
  omega

theorem accepted_zero (send : SendResult) : send.accepted 0 = 0 :=
  Nat.le_zero.mp (accepted_le send 0)

theorem accepted_error (n : ℕ) : SendResult.error.accepted n = 0 := rfl

/-- The last lines of `handle_proxy_write` after a write out of `b` that did not fail. -/
theorem countBytes_transferred {y : Ctx} {b : Buffer} {send : SendResult}
    (hy : y.w.figures = x.w.figures) (hst : stmState y.c = .proxy)
    (hr : bufferCanRead b = true) (hs : send ≠ .error)
    (hu : send = .again → b.write - b.read = 0) :
    (countBytes (b.write - b.read) (writeToSock send b).2 y).1.w.transferredBytes =
      x.w.transferredBytes + UInt64.ofNat (send.accepted (b.write - b.read)) := by
  have hagain : send ≠ .again := by
    intro hbad
    have hzero := hu hbad
    simp only [bufferCanRead, decide_eq_true_eq] at hr
    omega
  have hbytes : y.w.transferredBytes = x.w.transferredBytes := congrArg Prod.snd hy
  rw [countBytes, if_pos hst, ← counted_eq b hagain hs, ← hbytes]
  rfl

/-- What `handle_proxy_write` counts: nothing, when `send` accepts nothing, or else a write out
of one of the two buffers. -/
theorem handleProxyWrite_counts (h : handleProxyWrite e fd x = .ok r) :
    (r.1.w.figures = x.w.figures ∧ e.send.accepted (offered fd x) = 0) ∨
    ∃ y b, offered fd x = b.write - b.read ∧ bufferCanRead b = true ∧ e.send ≠ .error ∧
      y.w.figures = x.w.figures ∧ y.c.current = x.c.current ∧
      r = countBytes (b.write - b.read) (writeToSock e.send b).2 y := by
  unfold handleProxyWrite at h
  dsimp only at h
  rw [Ctx.writeClientLeft, Ctx.writeOriginLeft] at h
  simp only [write_failed_iff] at h
  split at h
  · rename_i hc
    have hoff : offered fd x = x.c.clientBuf.write - x.c.clientBuf.read := if_pos hc
    split at h
    · rename_i hr
      have hempty := empty_of_not_canRead (b := x.c.clientBuf) (by simpa using hr)
      refine .inl ⟨?_, by rw [hoff, hempty, accepted_zero]⟩
      split at h
      · rw [← Except.ok.inj h]
        exact closeClient_figures
      · rw [← Except.ok.inj h]
        rfl
    · rename_i hr
      split at h
      · rename_i hs
        refine .inl ⟨?_, by rw [hs, accepted_error]⟩
        rw [← Except.ok.inj h]
        exact closeClient_figures.trans (writeClient_figures x e)
      · rename_i hs
        refine .inr ⟨_, _, hoff, by simpa using hr, hs, ?_, ?_, (Except.ok.inj h).symm⟩
        · simp
        · rfl
  · rename_i hc
    split at h
    · rename_i ho
      have hoff : offered fd x = x.c.originBuf.write - x.c.originBuf.read := by
        rw [offered, if_neg hc, if_pos ho]
      split at h
      · rename_i hr
        have hempty := empty_of_not_canRead (b := x.c.originBuf) (by simpa using hr)
        refine .inl ⟨?_, by rw [hoff, hempty, accepted_zero]⟩
        split at h
        · rw [← Except.ok.inj h]
          exact closeClient_figures
        · rw [← Except.ok.inj h]
          rfl
      · rename_i hr
        split at h
        · rename_i hs
          refine .inl ⟨?_, by rw [hs, accepted_error]⟩
          rw [← Except.ok.inj h]
          exact closeClient_figures.trans (writeOrigin_figures x e)
        · rename_i hs
          refine .inr ⟨_, _, hoff, by simpa using hr, hs, ?_, ?_, (Except.ok.inj h).symm⟩
          · simp
          · rfl
    · cases h

theorem handleProxyWrite_transferred (h : handleProxyWrite e fd x = .ok r)
    (hst : stmState x.c = .proxy) (hu : Unblocked e fd x) :
    r.1.w.transferredBytes = x.w.transferredBytes +
      UInt64.ofNat (e.send.accepted (offered fd x)) := by
  rcases handleProxyWrite_counts h with ⟨hsame, hzero⟩ | ⟨y, b, hoff, hr, hs, hy, hcur, rfl⟩
  · exact uncounted hsame hzero
  · have hsty : stmState y.c = stmState x.c := by rw [stmState, hcur, stmState]
    unfold Unblocked at hu
    rw [hoff] at hu ⊢
    exact countBytes_transferred hy (hsty.trans hst) hr hs hu

/-- In any other state nothing is counted. -/
theorem handleProxyWrite_uncounted (h : handleProxyWrite e fd x = .ok r)
    (hst : stmState x.c ≠ .proxy) :
    r.1.w.transferredBytes = x.w.transferredBytes := by
  rcases handleProxyWrite_counts h with ⟨hsame, -⟩ | ⟨y, b, -, -, -, hy, hcur, rfl⟩
  · exact congrArg Prod.snd hsame
  · have hsty : stmState y.c = stmState x.c := by rw [stmState, hcur, stmState]
    rw [countBytes, hsty, if_neg hst]
    exact congrArg Prod.snd hy

/-! ## Events -/

theorem jump_transferred (h : jump r = .ok o) : o.w.transferredBytes = r.1.w.transferredBytes := by
  rcases jump_cases h with ⟨-, rfl⟩ | ⟨-, ha⟩
  · rfl
  obtain ⟨y, st⟩ := r
  cases st with
  | authMethod | plainAuth | request | proxy | connecting | resolving =>
    cases ha
    rfl
  | writeRemaining =>
    cases ha
    exact congrArg Prod.snd enableWrite_figures
  | done =>
    rw [clientDestroy_ok ha]
    rfl

theorem stmHandlerRead_transferred (h : stmHandlerRead e fd x = .ok o) :
    o.w.transferredBytes = x.w.transferredBytes := by
  obtain ⟨st, handler, r, -, hready, hr, hj⟩ := stmHandlerRead_cases h
  have hsame : r.1.w.figures = (handleFirst x).w.figures := by
    cases st with
    | authMethod => cases hready; exact readAuthMethod_figures hr
    | plainAuth => cases hready; exact readPlainAuth_figures hr
    | request => cases hready; exact readProxyRequest_figures hr
    | proxy => cases hready; exact handleProxyRead_figures hr
    | resolving | connecting | done | writeRemaining => cases hready
  rw [(handleFirst_same x).2] at hsame
  exact (jump_transferred hj).trans (congrArg Prod.snd hsame)

theorem stmHandlerBlock_transferred (h : stmHandlerBlock x = .ok o) :
    o.w.transferredBytes = x.w.transferredBytes :=
  jump_transferred (r := handleFinishedResolution x) (stmHandlerBlock_cases h).2

/-- A client that is not in `PROXY`. -/
theorem stmHandlerWrite_uncounted (h : stmHandlerWrite e fd x = .ok o)
    (hst : x.c.current ≠ some .proxy) :
    o.w.transferredBytes = x.w.transferredBytes := by
  obtain ⟨st, handler, r, hcur, hready, hr, hj⟩ := stmHandlerWrite_cases h
  have hfirst := (handleFirst_same x).2
  have hsame : r.1.w.transferredBytes = (handleFirst x).w.transferredBytes := by
    cases st with
    | plainAuth | request | resolving | writeRemaining =>
      cases hready
      exact handleProxyWrite_uncounted hr (by rw [stmState_of_current hcur]; decide)
    | proxy =>
      rw [handleFirst_of_ne hcur (by decide)] at hcur
      exact absurd hcur hst
    | connecting => cases hready; exact congrArg Prod.snd (originCheckConnection_figures hr)
    | authMethod | done => cases hready
  rw [jump_transferred hj, hsame, hfirst]

/-- One in `PROXY`. A handler that fails has sent nothing. -/
theorem stmHandlerWrite_proxy (hst : x.c.current = some .proxy) (hu : Unblocked e fd x) :
    (∀ o, stmHandlerWrite e fd x = .ok o → o.w.transferredBytes =
      x.w.transferredBytes + UInt64.ofNat (e.send.accepted (offered fd x))) ∧
    ∀ f, stmHandlerWrite e fd x = .error f → e.send.accepted (offered fd x) = 0 := by
  have hfirst : handleFirst x = x := handleFirst_of_current hst
  have hproxy : stmState x.c = .proxy := stmState_of_current hst
  have hready : onWriteReady .proxy = some handleProxyWrite := rfl
  have hstm : stmHandlerWrite e fd x = (handleProxyWrite e fd (handleFirst x)).bind jump :=
    stmHandlerWrite_eq (by rw [hfirst, hproxy]) hready
  rw [hstm, hfirst]
  cases hr : handleProxyWrite e fd x with
  | error f =>
    refine ⟨fun o ho => by (cases ho), fun f' _ => ?_⟩
    -- the descriptor is neither of the two sockets
    have hzero : offered fd x = 0 := by
      unfold handleProxyWrite at hr
      dsimp only at hr
      split at hr
      · split at hr <;> split at hr <;> cases hr
      · rename_i hc
        split at hr
        · split at hr <;> split at hr <;> cases hr
        · rename_i ho
          rw [offered, if_neg hc, if_neg ho]
    rw [hzero, accepted_zero]
  | ok r =>
    refine ⟨fun o ho => (jump_transferred ho).trans (handleProxyWrite_transferred hr hproxy hu),
      fun f hf => ?_⟩
    -- a client that stays in this state cannot fail to jump
    have hstays : ∀ y : Ctx, y.c.current = some .proxy → jump (y, .proxy) ≠ .error f := by
      intro y hy hbad
      have hmax : ¬ maxState < Socks5State.proxy.toNat := by decide
      rw [jump, if_neg hmax, if_pos hy] at hbad
      cases hbad
    rcases handleProxyWrite_counts hr with ⟨-, hzero⟩ | ⟨y, b, -, -, -, -, hcur, rfl⟩
    · exact hzero
    · obtain ⟨n, hn⟩ := countBytes_eq (b.write - b.read) (writeToSock e.send b).2 y
      rw [hn, stmState_of_current (hcur.trans hst)] at hf
      exact absurd hf (hstays _ (hcur.trans hst))

/-- A handler that counts nothing. -/
theorem run_transferred {handler : Ctx → Except Fault Outcome}
    (h : ∀ c o, handler ⟨id, c, s.w⟩ = .ok o → o.w.transferredBytes = s.w.transferredBytes) :
    (s.run id handler).w.transferredBytes = s.w.transferredBytes := by
  unfold Server.run
  split
  · rfl
  · split
    · rfl
    · rename_i c _ _ o ho
      exact h c o ho

theorem readHalf_transferred {i : ℕ} {r : Bool} :
    (readHalf i r e s).w.transferredBytes = s.w.transferredBytes := by
  unfold readHalf
  dsimp only
  split_ifs
  · unfold handleRead
    split
    · exact run_transferred fun c o ho => stmHandlerRead_transferred ho
    · exact (masterReadHandler_keeps e s).2
    · exact (mgmtMasterReadHandler_keeps e s).2
    · rfl
    · rfl
  · rfl

/-- The only registrations whose write half reaches a handler of a client. -/
theorem handleWrite_other {it key : Option Handler}
    (h : ∀ id' id, it = some (.socks5 id') → key ≠ some (.socks5 id)) :
    (handleWrite it key fd e s).w = s.w := by
  unfold handleWrite
  split
  · exact absurd rfl (h _ _ rfl)
  · rfl
  · rfl
  · rfl

theorem writeCall_other {i : ℕ} {key : Option Handler} {w : Bool}
    (h : ∀ id' id, (s.w.selector.fds i).data = some (.socks5 id') → key ≠ some (.socks5 id)) :
    writeCall i key w s = none := by
  unfold writeCall
  dsimp only
  split_ifs
  · split
    · rename_i hdata
      exact absurd rfl (h _ _ hdata)
    · rfl
  · rfl

theorem handleWrite_transferred {i : ℕ} {key : Option Handler} {w : Bool}
    (hcond : (s.halted.isNone && w && (s.w.selector.fds i).interest.write) = true)
    (hu : ∀ x ∈ writeCall i key w s, Unblocked e fd x) :
    (handleWrite (s.w.selector.fds i).data key fd e s).w.transferredBytes =
      s.w.transferredBytes + UInt64.ofNat
        ((writeCall i key w s).elim 0 fun x => e.send.accepted (offered fd x)) := by
  have hnone : s.w.transferredBytes = s.w.transferredBytes + UInt64.ofNat 0 :=
    (UInt64.add_zero _).symm
  -- a call that counts is one of a client that is there and is in `PROXY`
  by_cases hother : ∀ id' id, (s.w.selector.fds i).data = some (.socks5 id') →
    key ≠ some (.socks5 id)
  · rw [handleWrite_other hother, writeCall_other hother]
    exact hnone
  push Not at hother
  obtain ⟨id', id, hdata, rfl⟩ := hother
  unfold writeCall at hu ⊢
  dsimp only at hu ⊢
  rw [if_pos hcond, hdata] at hu ⊢
  dsimp only [handleWrite] at hu ⊢
  rw [Server.run]
  cases hc : s.heap id with
  | none => exact hnone
  | some c =>
    rw [hc] at hu
    by_cases hst : c.current = some .proxy
    · simp only [Option.bind_some, if_pos hst] at hu ⊢
      obtain ⟨hok, hbad⟩ := stmHandlerWrite_proxy hst (hu _ rfl)
      split
      · rename_i f hf
        simp only [Option.elim_some, hbad f hf]
        exact hnone
      · rename_i o ho
        exact hok o ho
    · simp only [Option.bind_some, if_neg hst, Option.elim_none]
      split
      · exact hnone
      · rename_i o ho
        exact (stmHandlerWrite_uncounted ho hst).trans hnone

/-- The write half counts what `send` accepts in its call. -/
theorem writeHalf_transferred {i : ℕ} {key : Option Handler} {w : Bool}
    (hu : ∀ x ∈ writeCall i key w s, Unblocked e fd x) :
    (writeHalf i fd key w e s).w.transferredBytes = s.w.transferredBytes + UInt64.ofNat
      ((writeCall i key w s).elim 0 fun x => e.send.accepted (offered fd x)) := by
  rw [writeHalf]
  split_ifs with hcond
  · exact handleWrite_transferred hcond hu
  · have hcall : writeCall i key w s = none := if_neg hcond
    rw [hcall]
    exact (UInt64.add_zero _).symm

theorem step_transferred {ev : Event} (hu : SendsThrough s ev) :
    (step s ev).w.transferredBytes = s.w.transferredBytes + UInt64.ofNat (acceptedBytes s ev) := by
  have hnone : ∀ {t : Server}, t.w.transferredBytes = s.w.transferredBytes → proxyCall s ev = none →
      t.w.transferredBytes = s.w.transferredBytes + UInt64.ofNat (acceptedBytes s ev) := by
    intro t ht hcall
    rw [acceptedBytes, hcall, ht]
    exact (UInt64.add_zero _).symm
  by_cases hh : s.halted.isSome = true
  · rw [step.eq_def, if_pos hh]
    refine hnone rfl ?_
    cases ev with
    | dispatch i r w er ew => rw [proxyCall, hh]; rfl
    | resolved | notify | addUser | setBuffsize | setDissector | mgmtClose => rfl
  rw [step.eq_def, if_neg hh]
  cases ev with
  | dispatch i r w er ew =>
    dsimp only [dispatch]
    by_cases hused : (!itemUsed (s.w.selector.fds i)) = true
    · rw [if_pos hused]
      exact hnone rfl (by rw [proxyCall, hused, Bool.or_true]; rfl)
    rw [if_neg hused]
    -- the call of the write half is made in the state after the read half
    have hcall : proxyCall s (.dispatch i r w er ew) =
        (writeCall i (s.w.selector.fds i).data w (readHalf i r er s)).map
          fun x => (ew, (s.w.selector.fds i).fd, x) := by
      rw [proxyCall]
      exact if_neg (by rw [Bool.or_eq_true]; exact not_or.mpr ⟨hh, hused⟩)
    rw [SendsThrough, hcall] at hu
    rw [writeHalf_transferred fun x hx => hu _ (Option.mem_map_of_mem _ hx), readHalf_transferred,
      acceptedBytes, hcall]
    cases writeCall i (s.w.selector.fds i).data w (readHalf i r er s) <;> rfl
  | resolved id addrs =>
    refine hnone ?_ rfl
    dsimp only [threadNameResolution]
    split
    · rfl
    · split <;> rfl
  | notify =>
    refine hnone ?_ rfl
    dsimp only [handleBlockNotifications]
    split
    · rfl
    · split
      · rfl
      · split
        · exact run_transferred fun c o ho => stmHandlerBlock_transferred ho
        · rfl
  | addUser | setDissector => exact hnone rfl rfl
  | setBuffsize size =>
    refine hnone ?_ rfl
    dsimp only
    split_ifs <;> rfl
  | mgmtClose fd =>
    refine hnone ?_ rfl
    dsimp only [mgmtClose]
    split
    · split_ifs <;> rfl
    · rfl

/-! ## Runs -/

theorem bytes_of_sendsThrough (evs : List Event) (h : Along step SendsThrough s evs) :
    (exec step s evs).w.transferredBytes = s.w.transferredBytes +
      UInt64.ofNat (totalAccepted s evs) := by
  induction evs generalizing s with
  | nil => exact (UInt64.add_zero _).symm
  | cons ev evs ih =>
    rw [exec_cons, ih h.2, step_transferred h.1, totalAccepted, UInt64.ofNat_add, UInt64.add_assoc]

/-- In a run where no send of a client in `PROXY` is refused with `EAGAIN`, the statistic is the
number of bytes that were accepted. -/
theorem transferred_bytes_exact (users : UserTable) (masters monitors : List ℤ) (evs : List Event)
    (h : Along step SendsThrough (boot users masters monitors) evs) :
    (exec step (boot users masters monitors) evs).w.transferredBytes =
      UInt64.ofNat (totalAccepted (boot users masters monitors) evs) := by
  rw [bytes_of_sendsThrough evs h]
  exact UInt64.zero_add _

/-- A client in `PROXY` is sent its reply, ten bytes. -/
def sendReply (send : SendResult) : List Event :=
  greet 3 ++ join 3 4 ++ [writable 3 { Env.fine [] 3 with send := send }]

theorem four_bytes_are_transferred :
    Along step SendsThrough (boot [] [] []) (sendReply (.sent 4)) ∧
      (exec step (boot [] [] []) (sendReply (.sent 4))).w.transferredBytes = 4 := by
  have hall : Along step SendsThrough (boot [] [] []) (sendReply (.sent 4)) := by decide +kernel
  have htotal : totalAccepted (boot [] [] []) (sendReply (.sent 4)) = 4 := by decide +kernel
  refine ⟨hall, ?_⟩
  rw [transferred_bytes_exact [] [] [] _ hall, htotal]
  rfl

/-- After `EAGAIN` eleven bytes are counted, and none was accepted. -/
theorem eagain_is_counted :
    (exec step (boot [] [] []) (sendReply .again)).halted = none ∧
      totalAccepted (boot [] [] []) (sendReply .again) = 0 ∧
      (exec step (boot [] [] []) (sendReply .again)).w.transferredBytes = 11 ∧
      (exec step (boot [] [] []) (sendReply .again)).w.transferredBytes ≠
        UInt64.ofNat (totalAccepted (boot [] [] []) (sendReply .again)) := by
  decide +kernel

end Socks5d
