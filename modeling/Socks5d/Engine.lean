import Socks5d.Progress

/-! # The state machine engine

What `stm_handler_read`, `stm_handler_write` and `stm_handler_block` do to a
client whose state and registrations agree. -/

namespace Socks5d

variable {x : Ctx} {e : Env} {fd : ℤ} {r : Ctx × Socks5State} {o : Outcome} {f : Fault}
  {i m : FdInterest}

/-! ## Jumps -/

/-- After an event the client agrees with its registrations, or it is gone and has
none. -/
def Settled (id : ClientId) (o : Outcome) : Prop :=
  match o.c with
  | some c => Ctl id c o.w.selector c.current
  | none => OnlyAt (.socks5 id) o.w.selector []

theorem clientDestroy_ok (h : clientDestroy x = .ok o) :
    o = ⟨{ (x.log (.destroyed x.id)).w with
      proxyClientCount := x.w.proxyClientCount - 1 }, none⟩ := by
  unfold clientDestroy at h
  split_ifs at h
  exact (Except.ok.inj h).symm

/-- The three ways a jump can end. -/
theorem jump_cases (h : jump r = .ok o) :
    (r.1.c.current = some r.2 ∧ o = ⟨r.1.w, some r.1.c⟩) ∨
    (r.1.c.current ≠ some r.2 ∧
      onArrival r.2 (r.1.setCurrent r.2) = .ok o) := by
  unfold jump at h
  split_ifs at h with h1 h2
  · exact .inl ⟨h2, (Except.ok.inj h).symm⟩
  · exact .inr ⟨h2, h⟩

theorem enableWrite_draining (h : Draining x.id x.c x.w.selector fun fd =>
      ∃ w m, Held (.socks5 x.id) x.w.selector fd ⟨false, w⟩ m) :
    Draining x.id x.c (enableWrite x).w.selector fun fd =>
      Held (.socks5 x.id) (enableWrite x).w.selector fd opWrite opWrite := by
  have hi : ∀ w, (⟨false, w⟩ ||| opWrite : FdInterest) = opWrite := by
    intro w
    simp [HOr.hOr, OrOp.or, opWrite]
  have hm : ∀ m : FdInterest, opWrite ≤ m ||| opWrite := by
    intro m
    simp [FdInterest.le_def]
  rcases h with ⟨he, hon, w, m, hc⟩ | ⟨he, hne, hon, ⟨w, m, hc⟩, w', m', ho⟩
  · refine .inl ⟨he, hon.enableWrite, ?_⟩
    have hcl := hc.enableWrite_client (by rw [he]; rfl) (by rw [he]; simp [clientWriteEnd])
    rw [hi] at hcl
    exact hcl.mono (hm m)
  · refine .inr ⟨he, hne, hon.enableWrite, ?_, ?_⟩
    · have hcl := hc.enableWrite_client (by rw [he]; rfl) fun _ => hne
      rw [hi] at hcl
      exact hcl.mono (hm m)
    · have hor := ho.enableWrite_origin hne (by rw [he]; rfl)
      rw [hi] at hor
      exact hor.mono (hm m')

theorem Ctl.settled (st : Socks5State) {w : World} (h : Ctl x.id x.c w.selector (some st)) :
    Settled x.id ⟨w, some (x.setCurrent st).c⟩ :=
  h.same ⟨rfl, rfl, rfl, rfl, rfl⟩

theorem jump_settled (h : Next r) (hj : jump r = .ok o) : Settled r.1.id o := by
  rcases jump_cases hj with ⟨hcur, rfl⟩ | ⟨hcur, ha⟩
  · rcases h with ⟨-, hctl⟩ | ⟨hne, -⟩
    · change Ctl r.1.id r.1.c r.1.w.selector r.1.c.current
      rw [hcur]
      exact hctl
    · exact absurd hcur hne
  rcases h with ⟨heq, -⟩ | ⟨-, hready⟩
  · exact absurd heq hcur
  obtain ⟨y, st⟩ := r
  cases st with
  | authMethod => cases ha; exact Ctl.settled .authMethod hready
  | plainAuth => cases ha; exact Ctl.settled .plainAuth hready
  | request => cases ha; exact Ctl.settled .request hready
  | proxy => cases ha; exact Ctl.settled .proxy hready
  | resolving => cases ha; exact Ctl.settled .resolving hready
  | connecting =>
    cases ha
    have hal : Alone y.id y.c y.w.selector opWrite opRead := hready
    refine .inl ⟨hal.ends, hal.origin, ?_, hal.held.addInterest⟩
    exact hal.only.updateItem (fun _ => rfl) (fun _ => rfl)
  | writeRemaining =>
    cases ha
    have hd := enableWrite_draining (x := y.setCurrent .writeRemaining) hready
    change Ctl _ (enableWrite _).c _ (enableWrite _).c.current
    rw [enableWrite_c]
    exact hd
  | done =>
    rw [clientDestroy_ok ha]
    exact hready

theorem Draining.owns (h : Draining x.id x.c x.w.selector fun fd =>
    ∃ w m, Held (.socks5 x.id) x.w.selector fd ⟨false, w⟩ m) : Owns x := by
  rcases h with ⟨he, -, w, m, hc⟩ | ⟨-, -, -, ⟨w, m, hc⟩, w', m', ho⟩
  · exact ⟨hc.ownFd, by rw [he]; simp [clientWriteEnd]⟩
  · exact ⟨hc.ownFd, fun _ => ho.ownFd⟩

theorem jump_local (h : Next r) (hj : jump r = .ok o) : Local r.1.id r.1.w o.w := by
  rcases jump_cases hj with ⟨-, rfl⟩ | ⟨hcur, ha⟩
  · exact .refl _ _
  rcases h with ⟨heq, -⟩ | ⟨-, hready⟩
  · exact absurd heq hcur
  obtain ⟨y, st⟩ := r
  cases st with
  | authMethod | plainAuth | request | proxy => cases ha; exact .refl _ _
  | resolving =>
    cases ha
    refine (Local.log (x := y) (o := .resolving y.id) rfl).trans ?_
    refine ⟨.refl, fun h => h, rfl, fun _ _ => rfl, rfl, rfl, rfl, ?_, fun h => h,
      fun _ _ _ _ _ => rfl⟩
    intro j hj
    exact List.count_cons_of_ne (Ne.symm hj)
  | connecting =>
    cases ha
    have hal : Alone y.id y.c y.w.selector opWrite opRead := hready
    exact (Quiet.addInterest (x := y) hal.held.ownFd).world
  | writeRemaining =>
    cases ha
    exact (enableWrite_quiet (x := y.setCurrent .writeRemaining) (Draining.owns hready)).world
  | done =>
    rw [clientDestroy_ok ha]
    refine (Local.log (x := y) (o := .destroyed y.id) rfl).trans ?_
    exact ⟨.refl, fun h => h, rfl, fun _ _ => rfl, rfl, rfl, rfl, fun _ _ => rfl, fun h => h,
      fun _ _ _ _ _ => rfl⟩

/-! ## How handlers fail

A client that agrees with its registrations makes no handler hit an assertion or
an `abort`. -/

/-- The faults a socket event could cause by reaching the wrong handler. -/
def Fault.misrouted : Fault → Bool
  | .noReadReady _ | .noWriteReady _ | .badState | .foreignFd | .assertion | .staleEvent => true
  | _ => false

/-- What can go wrong in a handler that is rightly called: it reads or frees memory
that it must not. -/
def Fault.isMemory : Fault → Bool
  | .logAccessInfo | .badAddress | .doubleFree => true
  | _ => false

theorem Fault.routed (h : f.isMemory = true) : f.misrouted = false := by
  cases f <;> first | rfl | cases h

theorem logAccessInfo_error {c : Client} (h : logAccessInfo c = .error f) : f = .logAccessInfo := by
  unfold logAccessInfo at h
  split_ifs at h <;> exact (Except.error.inj h).symm

theorem replyAndClose_error {reply : ServerReplyType} (h : replyAndClose x reply = .error f) :
    f = .logAccessInfo := by
  unfold replyAndClose serverReply at h
  cases hl : logAccessInfo x.c with
  | error g =>
    rw [hl] at h
    cases h
    exact logAccessInfo_error hl
  | ok u =>
    rw [hl] at h
    cases h

theorem readAuthMethod_error (hfd : fd = x.c.clientSock) : readAuthMethod e fd x ≠ .error f := by
  intro h
  unfold readAuthMethod at h
  dsimp only at h
  rw [if_neg (by simp [hfd])] at h
  split_ifs at h

theorem readPlainAuth_error (hfd : fd = x.c.clientSock) : readPlainAuth e fd x ≠ .error f := by
  intro h
  unfold readPlainAuth at h
  dsimp only at h
  rw [if_neg (by simp [hfd])] at h
  split_ifs at h

theorem startRequest_error {b : Buffer} {a : UInt8} {n : ℕ}
    (h : startRequest e b a n x = .error f) :
    f = .logAccessInfo := by
  unfold startRequest at h
  dsimp only at h
  split at h
  · split at h
    · exact replyAndClose_error h
    · cases h
  split at h
  · exact replyAndClose_error h
  split at h
  · exact replyAndClose_error h
  · cases h

theorem readProxyRequest_error (hfd : fd = x.c.clientSock)
    (h : readProxyRequest e fd x = .error f) :
    f = .logAccessInfo := by
  unfold readProxyRequest at h
  dsimp only at h
  rw [if_neg (by simp [hfd])] at h
  split at h
  · exact replyAndClose_error h
  split at h
  · cases h
  split at h
  · exact replyAndClose_error h
  split at h
  · cases h
  split at h
  · exact replyAndClose_error h
  · exact startRequest_error h

theorem connectTo_error (h : connectTo e fd x = .error f) : f = .logAccessInfo := by
  unfold connectTo at h
  dsimp only at h
  split at h
  · exact replyAndClose_error h
  split at h
  · exact replyAndClose_error h
  · cases h

theorem tryConnect_error (ha : x.c.currAddr ≠ .null) (h : tryConnect e x = .error f) :
    f = .logAccessInfo ∨ f = .badAddress := by
  unfold tryConnect at h
  split at h
  · rename_i hn
    exact absurd hn ha
  · exact .inr (Except.error.inj h).symm
  split at h
  · exact .inl (replyAndClose_error h)
  · exact .inl (connectTo_error h)

theorem enterProxy_error {a : AddrInfo} (h : enterProxy e a x = .error f) : f = .logAccessInfo := by
  unfold enterProxy serverReply at h
  dsimp only at h
  cases hl : logAccessInfo (joinOrigin x).c with
  | error g =>
    rw [hl] at h
    cases h
    exact logAccessInfo_error hl
  | ok u =>
    rw [hl] at h
    cases h

theorem originCheckConnection_error (h : originCheckConnection e fd x = .error f) :
    f = .logAccessInfo ∨ f = .badAddress := by
  have hnext : ∀ {err next}, nextAddress e err next x = .error f →
      f = .logAccessInfo ∨ f = .badAddress := by
    intro err next hn
    unfold nextAddress at hn
    dsimp only at hn
    split at hn
    · exact tryConnect_error (by simp [Ctx.setAddr]) hn
    · exact .inl (replyAndClose_error hn)
  unfold originCheckConnection at h
  dsimp only at h
  split at h
  · split at h
    · exact .inl (replyAndClose_error h)
    · rename_i hnull
      exact tryConnect_error hnull h
  split at h
  · exact .inr (Except.error.inj h).symm
  · exact .inr (Except.error.inj h).symm
  · exact .inl (enterProxy_error h)
  · exact .inl (enterProxy_error h)
  · exact hnext h
  · exact hnext h

theorem sniff_error (h : sniff x = .error f) : f = .badAddress := by
  unfold sniff at h
  split at h
  · cases h
  dsimp only at h
  split at h
  · cases h
  split at h
  · split at h
    · rename_i hs
      unfold logSnifferInfo at hs
      split_ifs at hs
      all_goals
        cases hs
        cases h
        rfl
    · cases h
  · cases h

theorem handleProxyRead_error (hfd : fd = x.c.clientSock ∨ fd = x.c.originSock)
    (h : handleProxyRead e fd x = .error f) : f = .badAddress := by
  unfold handleProxyRead at h
  dsimp only at h
  split at h
  · split at h
    · cases h
    split at h
    · cases h
    split at h
    · rename_i hs
      cases h
      exact sniff_error hs
    · cases h
  split at h
  · split at h
    · cases h
    split at h <;> cases h
  · rename_i hc ho
    rcases hfd with rfl | rfl
    · exact absurd rfl hc
    · exact absurd rfl ho

theorem handleProxyWrite_error (hfd : fd = x.c.clientSock ∨ fd = x.c.originSock) :
    handleProxyWrite e fd x ≠ .error f := by
  intro h
  unfold handleProxyWrite at h
  dsimp only at h
  split at h
  · split at h
    · split at h <;> cases h
    · split at h <;> cases h
  split at h
  · split at h
    · split at h <;> cases h
    · split at h <;> cases h
  · rename_i hc ho
    rcases hfd with rfl | rfl
    · exact absurd rfl hc
    · exact absurd rfl ho

/-- The machine fails only when it frees the client. -/
theorem jump_fails (h : jump r = .error f) : r.2 = .done ∧ f = .doubleFree := by
  unfold jump at h
  rw [if_neg (by cases r.2 <;> decide)] at h
  split at h
  · cases h
  obtain ⟨y, st⟩ := r
  cases st with
  | done =>
    simp only [onArrival, clientDestroy] at h
    split_ifs at h
    exact ⟨rfl, (Except.error.inj h).symm⟩
  | authMethod | plainAuth | request | proxy | resolving | connecting | writeRemaining => cases h

theorem jump_error (h : jump r = .error f) : f = .doubleFree := (jump_fails h).2

/-! ## The handler of an event -/

theorem Held.same_interest {d : Handler} {s : FdSelector Handler} {i' m' : FdInterest}
    (h : Held d s fd i m) (h' : Held d s fd i' m') : i = i' := by
  obtain ⟨it, hit, -, hi, -⟩ := h
  exact hi.symm.trans (h'.interest_eq hit)

theorem Alone.fd_eq {i' m' : FdInterest} (h : Alone x.id x.c x.w.selector i' m')
    (hheld : Held (.socks5 x.id) x.w.selector fd i m) : fd = x.c.clientSock ∧ i = i' := by
  obtain rfl : fd = x.c.clientSock := by simpa using hheld.mem h.only
  exact ⟨rfl, hheld.same_interest h.held⟩

theorem Alone.owns (h : Alone x.id x.c x.w.selector i m) : Owns x :=
  ⟨h.held.ownFd, by rw [h.ends]; simp [clientEnds]⟩

theorem Relaying.owns (h : Relaying x.id x.c x.w.selector) : Owns x :=
  ⟨h.joined.client.ownFd, fun _ => h.joined.origin.ownFd⟩

/-- What is known of the handler that an event selects. -/
structure Served (x : Ctx) (res : Except Fault (Ctx × Socks5State)) : Prop where
  ok : ∀ r, res = .ok r → Next r ∧ Quiet x r.1
  error : ∀ f, res = .error f → f.isMemory = true

theorem onReadReady_served {st : Socks5State} (h : Ctl x.id x.c x.w.selector (some st))
    (hcur : x.c.current = some st) (hheld : Held (.socks5 x.id) x.w.selector fd i m)
    (hi : i.read = true) : ∃ handler, onReadReady st = some handler ∧
    Served x (handler e fd x) := by
  cases st with
  | authMethod =>
    have ha : Alone x.id x.c x.w.selector opRead opRead := h
    obtain ⟨hfd, -⟩ := ha.fd_eq hheld
    exact ⟨_, rfl, fun r hr => ⟨readAuthMethod_next ha hcur hr, readAuthMethod_quiet ha.owns hr⟩,
      fun f hf => absurd hf (readAuthMethod_error hfd)⟩
  | plainAuth =>
    have ha : Alone x.id x.c x.w.selector ⟨true, true⟩ opRead := h
    obtain ⟨hfd, -⟩ := ha.fd_eq hheld
    exact ⟨_, rfl, fun r hr => ⟨readPlainAuth_next ha hcur hr, readPlainAuth_quiet ha.owns hr⟩,
      fun f hf => absurd hf (readPlainAuth_error hfd)⟩
  | request =>
    have ha : Alone x.id x.c x.w.selector ⟨true, true⟩ opRead := h
    obtain ⟨hfd, -⟩ := ha.fd_eq hheld
    refine ⟨_, rfl, fun r hr => ⟨readProxyRequest_next ha hcur hr,
      readProxyRequest_quiet ha.owns hr⟩, fun f hf => ?_⟩
    rw [readProxyRequest_error hfd hf]
    rfl
  | resolving =>
    have ha : Alone x.id x.c x.w.selector opWrite opRead := h
    rw [(ha.fd_eq hheld).2] at hi
    cases hi
  | connecting =>
    rcases h with ha | ⟨-, hj⟩
    · rw [(ha.fd_eq hheld).2] at hi
      cases hi
    · have hmem := hheld.mem hj.only
      simp only [List.mem_cons, List.not_mem_nil, or_false] at hmem
      rcases hmem with rfl | rfl
      · rw [hheld.same_interest hj.client] at hi
        cases hi
      · rw [hheld.same_interest hj.origin] at hi
        cases hi
  | proxy =>
    have hr : Relaying x.id x.c x.w.selector := h
    refine ⟨_, rfl, fun r hr' => ⟨handleProxyRead_next hr hcur hheld hi hr',
      handleProxyRead_quiet hr.owns hheld.ownFd hr'⟩, fun f hf => ?_⟩
    rw [handleProxyRead_error ((hr.fd_cases hheld).imp And.left And.left) hf]
    rfl
  | writeRemaining =>
    rcases h with ⟨-, hon, hc⟩ | ⟨-, -, hon, hc, ho⟩
    · obtain rfl : fd = x.c.clientSock := by simpa using hheld.mem hon
      rw [hheld.same_interest hc] at hi
      cases hi
    · have hmem := hheld.mem hon
      simp only [List.mem_cons, List.not_mem_nil, or_false] at hmem
      rcases hmem with rfl | rfl
      · rw [hheld.same_interest hc] at hi
        cases hi
      · rw [hheld.same_interest ho] at hi
        cases hi
  | done => exact h.elim

theorem onWriteReady_served {st : Socks5State} (h : Ctl x.id x.c x.w.selector (some st))
    (hcur : x.c.current = some st) (hheld : Held (.socks5 x.id) x.w.selector fd i m)
    (hi : i.write = true) (hcap : itemsMaxSize ≤ x.w.selector.fdSize) :
    ∃ handler, onWriteReady st = some handler ∧ Served x (handler e fd x) := by
  have handshake : ∀ {i'}, Alone x.id x.c x.w.selector i' opRead →
      (st = .plainAuth ∨ st = .request ∨ st = .resolving) →
      (∀ c s, Alone x.id c s i' opRead → Ctl x.id c s (some st)) →
      Served x (handleProxyWrite e fd x) := by
    intro i' ha hst hctl
    exact ⟨fun r hr => ⟨handleProxyWrite_handshake ha hcur hst hctl hheld hr,
      handleProxyWrite_quiet ha.owns hheld.ownFd hr⟩,
      fun f hf => absurd hf (handleProxyWrite_error (.inl (ha.fd_eq hheld).1))⟩
  cases st with
  | authMethod =>
    have ha : Alone x.id x.c x.w.selector opRead opRead := h
    rw [(ha.fd_eq hheld).2] at hi
    cases hi
  | plainAuth => exact ⟨_, rfl, handshake h (.inl rfl) fun _ _ h => h⟩
  | request => exact ⟨_, rfl, handshake h (.inr (.inl rfl)) fun _ _ h => h⟩
  | resolving => exact ⟨_, rfl, handshake h (.inr (.inr rfl)) fun _ _ h => h⟩
  | connecting =>
    have hc : Connecting x.id x.c x.w.selector := h
    have hown : x.c.activeEnds = clientEnds ∧
        OwnFd (.socks5 x.id) x.w.selector x.c.clientSock ∧
        (fd ≠ x.c.clientSock → OwnFd (.socks5 x.id) x.w.selector x.c.originSock) := by
      rcases hc with ha | ⟨hends, hj⟩
      · exact ⟨ha.ends, ha.held.ownFd, fun hne => absurd (ha.fd_eq hheld).1 hne⟩
      · exact ⟨hends, hj.client.ownFd, fun _ => hj.origin.ownFd⟩
    refine ⟨_, rfl, fun r hr => ⟨originCheckConnection_next hc hcur hcap ⟨i, m, hheld, hi⟩ hr,
      originCheckConnection_quiet hcap hown.2.1 hown.1 hown.2.2 hr⟩, fun f hf => ?_⟩
    rcases originCheckConnection_error hf with rfl | rfl <;> rfl
  | proxy =>
    have hr : Relaying x.id x.c x.w.selector := h
    exact ⟨_, rfl, fun r hr' => ⟨handleProxyWrite_proxy hr hcur hheld hi hr',
      handleProxyWrite_quiet hr.owns hheld.ownFd hr'⟩, fun f hf =>
      absurd hf (handleProxyWrite_error ((hr.fd_cases hheld).imp And.left And.left))⟩
  | writeRemaining =>
    have hd : Draining x.id x.c x.w.selector fun fd =>
      Held (.socks5 x.id) x.w.selector fd opWrite opWrite := h
    have howns : Owns x := by
      rcases hd with ⟨he, -, hc⟩ | ⟨-, -, -, hc, ho⟩
      · exact ⟨hc.ownFd, by rw [he]; simp [clientWriteEnd]⟩
      · exact ⟨hc.ownFd, fun _ => ho.ownFd⟩
    have hfd : fd = x.c.clientSock ∨ fd = x.c.originSock := by
      rcases hd with ⟨-, hon, -⟩ | ⟨-, -, hon, -⟩
      · exact .inl (by simpa using hheld.mem hon)
      · simpa using hheld.mem hon
    exact ⟨_, rfl, fun r hr => ⟨handleProxyWrite_remaining hd hcur hheld hr,
      handleProxyWrite_quiet howns hheld.ownFd hr⟩,
      fun f hf => absurd hf (handleProxyWrite_error hfd)⟩
  | done => exact h.elim

/-! ## Events -/

theorem handleFirst_current (x : Ctx) : ∃ st, (handleFirst x).c.current = some st := by
  unfold handleFirst
  split_ifs with h
  · exact ⟨.authMethod, rfl⟩
  · exact Option.ne_none_iff_exists'.mp h

/-- `handle_first` only starts the machine. -/
theorem handleFirst_cases (x : Ctx) :
    (x.c.current = none ∧ handleFirst x = x.setCurrent .authMethod) ∨
    (x.c.current ≠ none ∧ handleFirst x = x) := by
  by_cases h : x.c.current = none
  · exact .inl ⟨h, if_pos h⟩
  · exact .inr ⟨h, if_neg h⟩

/-- A machine that has started goes on where it is. -/
theorem handleFirst_of_current {st : Socks5State} (h : x.c.current = some st) :
    handleFirst x = x := if_neg (by rw [h]; simp)

theorem handleFirst_of_ne {st : Socks5State} (h : (handleFirst x).c.current = some st)
    (hne : st ≠ .authMethod) : handleFirst x = x := by
  rcases handleFirst_cases x with ⟨-, hx⟩ | ⟨-, hx⟩
  · rw [hx] at h
    exact absurd (Option.some.inj h).symm hne
  · exact hx

theorem stmState_of_current {c : Client} {st : Socks5State} (h : c.current = some st) :
    stmState c = st := by
  rw [stmState, h]
  rfl

theorem stmHandlerRead_cases (h : stmHandlerRead e fd x = .ok o) :
    ∃ st handler r, (handleFirst x).c.current = some st ∧ onReadReady st = some handler ∧
      handler e fd (handleFirst x) = .ok r ∧ jump r = .ok o := by
  obtain ⟨st, hst⟩ := handleFirst_current x
  rcases stmHandlerRead_runs (stmState_of_current hst) with
    ⟨-, heq⟩ | ⟨handler, hh, ⟨f, -, heq⟩ | ⟨r, hr, heq⟩⟩
  · rw [heq] at h
    cases h
  · rw [heq] at h
    cases h
  · rw [heq] at h
    exact ⟨st, handler, r, hst, hh, hr, h⟩

theorem stmHandlerWrite_cases (h : stmHandlerWrite e fd x = .ok o) :
    ∃ st handler r, (handleFirst x).c.current = some st ∧ onWriteReady st = some handler ∧
      handler e fd (handleFirst x) = .ok r ∧ jump r = .ok o := by
  obtain ⟨st, hst⟩ := handleFirst_current x
  rcases stmHandlerWrite_runs (stmState_of_current hst) with
    ⟨-, heq⟩ | ⟨handler, hh, ⟨f, -, heq⟩ | ⟨r, hr, heq⟩⟩
  · rw [heq] at h
    cases h
  · rw [heq] at h
    cases h
  · rw [heq] at h
    exact ⟨st, handler, r, hst, hh, hr, h⟩

theorem stmHandlerBlock_cases (h : stmHandlerBlock x = .ok o) :
    x.c.current = some .resolving ∧ jump (handleFinishedResolution x) = .ok o := by
  obtain ⟨st, hst⟩ := handleFirst_current x
  unfold stmHandlerBlock at h
  dsimp only at h
  rw [stmState_of_current hst] at h
  rcases handleFirst_cases x with ⟨-, hx⟩ | ⟨-, hx⟩
  · rw [hx] at hst
    cases hst
    cases h
  · rw [hx] at hst h
    cases st <;> first | exact ⟨hst, h⟩ | cases h

/-- A registered client whose machine has not started is in its first state. -/
theorem handleFirst_ctl (h : Ctl x.id x.c x.w.selector x.c.current)
    (hheld : Held (.socks5 x.id) x.w.selector fd i m) {st : Socks5State}
    (hst : (handleFirst x).c.current = some st) :
    Ctl (handleFirst x).id (handleFirst x).c (handleFirst x).w.selector (some st) := by
  rcases handleFirst_cases x with ⟨hnone, hx⟩ | ⟨-, hx⟩
  · rw [hx] at hst ⊢
    cases hst
    rw [hnone] at h
    have ha : Accepted x.id x.c x.w.selector := h
    obtain rfl : fd = x.c.clientSock := by simpa using hheld.mem ha.only
    refine ⟨ha.ends, ha.origin, ha.only, ?_⟩
    rcases ha.held with hh | hinv
    · exact hh
    · rw [hheld.valid] at hinv
      cases hinv
  · rw [hx] at hst ⊢
    rw [← hst]
    exact h

theorem handleFirst_same (x : Ctx) : (handleFirst x).id = x.id ∧ (handleFirst x).w = x.w := by
  rcases handleFirst_cases x with ⟨-, hx⟩ | ⟨-, hx⟩ <;> rw [hx] <;> exact ⟨rfl, rfl⟩

/-- Everything an event can do: settle its client without touching others, or
fail otherwise than by reaching a wrong handler. -/
structure Kept (x : Ctx) (res : Except Fault Outcome) : Prop where
  ok : ∀ o, res = .ok o → Settled x.id o ∧ Local x.id x.w o.w
  error : ∀ f, res = .error f → f.misrouted = false

theorem stmHandlerRead_error (h : Ctl x.id x.c x.w.selector x.c.current)
    (hheld : Held (.socks5 x.id) x.w.selector fd i m) (hi : i.read = true)
    (hf : stmHandlerRead e fd x = .error f) : f.isMemory = true := by
  obtain ⟨hid, hw⟩ := handleFirst_same x
  obtain ⟨st, hst⟩ := handleFirst_current x
  obtain ⟨handler, hh, hs⟩ := onReadReady_served (e := e) (handleFirst_ctl h hheld hst) hst
    (by rw [hid, hw]; exact hheld) hi
  rw [stmHandlerRead_eq (stmState_of_current hst) hh] at hf
  cases hr : handler e fd (handleFirst x) with
  | error g =>
    rw [hr] at hf
    cases hf
    exact hs.error _ hr
  | ok r =>
    rw [hr] at hf
    rw [jump_error (r := r) hf]
    rfl

theorem stmHandlerWrite_error (h : Ctl x.id x.c x.w.selector x.c.current)
    (hheld : Held (.socks5 x.id) x.w.selector fd i m) (hi : i.write = true)
    (hcap : itemsMaxSize ≤ x.w.selector.fdSize) (hf : stmHandlerWrite e fd x = .error f) :
    f.isMemory = true := by
  obtain ⟨hid, hw⟩ := handleFirst_same x
  obtain ⟨st, hst⟩ := handleFirst_current x
  obtain ⟨handler, hh, hs⟩ := onWriteReady_served (e := e) (handleFirst_ctl h hheld hst) hst
    (by rw [hid, hw]; exact hheld) hi (by rw [hw]; exact hcap)
  rw [stmHandlerWrite_eq (stmState_of_current hst) hh] at hf
  cases hr : handler e fd (handleFirst x) with
  | error g =>
    rw [hr] at hf
    cases hf
    exact hs.error _ hr
  | ok r =>
    rw [hr] at hf
    rw [jump_error (r := r) hf]
    rfl

/-- How the event of a client `y` in state `st` was handled: by the function that the
table `ready` names, and then by a jump. -/
structure Handling
    (ready : Socks5State → Option (Env → ℤ → Ctx → Except Fault (Ctx × Socks5State)))
    (e : Env) (fd : ℤ) (y : Ctx) (st : Socks5State) (r : Ctx × Socks5State) (o : Outcome) :
    Prop where
  current : y.c.current = some st
  ctl : Ctl y.id y.c y.w.selector (some st)
  result : ∃ handler, ready st = some handler ∧ handler e fd y = .ok r
  next : Next r
  quiet : Quiet y r.1
  jump : jump r = .ok o

theorem stmHandlerRead_handling (h : Ctl x.id x.c x.w.selector x.c.current)
    (hheld : Held (.socks5 x.id) x.w.selector fd i m) (hi : i.read = true)
    (ho : stmHandlerRead e fd x = .ok o) :
    ∃ st r, Handling onReadReady e fd (handleFirst x) st r o := by
  obtain ⟨hid, hw⟩ := handleFirst_same x
  obtain ⟨st, handler, r, hst, hh, hr, hj⟩ := stmHandlerRead_cases ho
  have hctl := handleFirst_ctl h hheld hst
  obtain ⟨handler', hh', hs⟩ :=
    onReadReady_served (e := e) hctl hst (by rw [hid, hw]; exact hheld) hi
  obtain rfl : handler = handler' := Option.some.inj (hh.symm.trans hh')
  obtain ⟨hnext, hquiet⟩ := hs.ok r hr
  exact ⟨st, r, hst, hctl, ⟨handler, hh, hr⟩, hnext, hquiet, hj⟩

theorem stmHandlerWrite_handling (h : Ctl x.id x.c x.w.selector x.c.current)
    (hheld : Held (.socks5 x.id) x.w.selector fd i m) (hi : i.write = true)
    (hcap : itemsMaxSize ≤ x.w.selector.fdSize) (ho : stmHandlerWrite e fd x = .ok o) :
    ∃ st r, Handling onWriteReady e fd (handleFirst x) st r o := by
  obtain ⟨hid, hw⟩ := handleFirst_same x
  obtain ⟨st, handler, r, hst, hh, hr, hj⟩ := stmHandlerWrite_cases ho
  have hctl := handleFirst_ctl h hheld hst
  obtain ⟨handler', hh', hs⟩ := onWriteReady_served (e := e) hctl hst (by rw [hid, hw]; exact hheld)
    hi (by rw [hw]; exact hcap)
  obtain rfl : handler = handler' := Option.some.inj (hh.symm.trans hh')
  obtain ⟨hnext, hquiet⟩ := hs.ok r hr
  exact ⟨st, r, hst, hctl, ⟨handler, hh, hr⟩, hnext, hquiet, hj⟩

theorem Handling.kept
    {ready : Socks5State → Option (Env → ℤ → Ctx → Except Fault (Ctx × Socks5State))}
    {st : Socks5State} (h : Handling ready e fd (handleFirst x) st r o) :
    Settled x.id o ∧ Local x.id x.w o.w := by
  obtain ⟨hid, hw⟩ := handleFirst_same x
  have hid' : r.1.id = x.id := h.quiet.id_eq.trans hid
  rw [← hid']
  refine ⟨jump_settled h.next h.jump, ?_⟩
  have hloc := h.quiet.world
  rw [hid, hw] at hloc
  rw [hid']
  exact hloc.trans (hid' ▸ jump_local h.next h.jump)

theorem stmHandlerRead_kept (h : Ctl x.id x.c x.w.selector x.c.current)
    (hheld : Held (.socks5 x.id) x.w.selector fd i m) (hi : i.read = true) :
    Kept x (stmHandlerRead e fd x) := by
  refine ⟨?_, fun f hf => Fault.routed (stmHandlerRead_error h hheld hi hf)⟩
  intro o ho
  obtain ⟨st, r, hh⟩ := stmHandlerRead_handling h hheld hi ho
  exact hh.kept

theorem stmHandlerWrite_kept (h : Ctl x.id x.c x.w.selector x.c.current)
    (hheld : Held (.socks5 x.id) x.w.selector fd i m) (hi : i.write = true)
    (hcap : itemsMaxSize ≤ x.w.selector.fdSize) : Kept x (stmHandlerWrite e fd x) := by
  refine ⟨?_, fun f hf => Fault.routed (stmHandlerWrite_error h hheld hi hcap hf)⟩
  intro o ho
  obtain ⟨st, r, hh⟩ := stmHandlerWrite_handling h hheld hi hcap ho
  exact hh.kept

theorem stmHandlerBlock_kept (h : Ctl x.id x.c x.w.selector x.c.current) :
    Kept x (stmHandlerBlock x) := by
  refine ⟨?_, ?_⟩
  · intro o ho
    obtain ⟨hcur, hj⟩ := stmHandlerBlock_cases ho
    rw [hcur] at h
    have hs : Still x (handleFinishedResolution x).1 := .setAddr
    have hnext : Next (handleFinishedResolution x) := by
      refine .inr ⟨?_, hs.alone h⟩
      rw [hs.current_eq, hcur]
      exact fun heq => by cases heq
    exact ⟨jump_settled hnext hj, (Quiet.setAddr (x := x)).world.trans (jump_local hnext hj)⟩
  · intro f hf
    unfold stmHandlerBlock at hf
    dsimp only at hf
    split at hf
    · cases hf
      rfl
    · rw [jump_error hf]
      rfl

end Socks5d
