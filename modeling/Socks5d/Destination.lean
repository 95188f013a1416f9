import Socks5d.Story

/-! # The destination a reply is logged with

`log_access_info` reads `dest_fqdn` when `atyp` says that the destination is a
name, and else `curr_addr`. The two are set at different times. -/

namespace Socks5d
open EventRun

variable {x x' : Ctx} {e : Env} {fd : ℤ} {r : Ctx × Socks5State} {c : Client} {f : Fault}
  {id : ClientId} {s : Server}

theorem logAccessInfo_ok_iff :
    logAccessInfo c = .ok () ↔
      (c.atyp = atypDomainName → c.destFqdn ≠ none) ∧
      (c.atyp ≠ atypDomainName → c.currAddr ≠ .freed) := by
  unfold logAccessInfo
  split_ifs <;> simp_all

/-- What is known of the destination in each state. -/
def Dest (st : Socks5State) (c : Client) : Prop :=
  match st with
  | .authMethod | .plainAuth | .request => c.destFqdn = none ∧ c.currAddr = .null
  | .resolving => c.atyp = atypDomainName ∧ c.destFqdn ≠ none
  | .connecting => logAccessInfo c = .ok ()
  | .proxy | .done | .writeRemaining => True

/-! ## Handlers keep it -/

/-- A step that leaves the destination alone. -/
structure SameDest (x x' : Ctx) : Prop where
  atyp : x'.c.atyp = x.c.atyp
  fqdn : x'.c.destFqdn = x.c.destFqdn
  addr : x'.c.currAddr = x.c.currAddr

theorem SameDest.closes (h : Closes x x') : SameDest x x' := by
  refine ⟨?_, ?_, ?_⟩ <;> rw [h.c_eq]

theorem SameDest.trans {x'' : Ctx} (h : SameDest x x') (h' : SameDest x' x'') : SameDest x x'' :=
  ⟨h'.atyp.trans h.atyp, h'.fqdn.trans h.fqdn, h'.addr.trans h.addr⟩

theorem SameDest.log (h : SameDest x x') : logAccessInfo x'.c = logAccessInfo x.c := by
  unfold logAccessInfo
  rw [h.atyp, h.fqdn, h.addr]

theorem SameDest.dest {st : Socks5State} (h : SameDest x x') (hd : Dest st x.c) : Dest st x'.c := by
  unfold Dest at hd ⊢
  rw [h.log, h.atyp, h.fqdn, h.addr]
  exact hd

theorem Dest.close {level : SocketEnds} (hs : SameDest x x') (hst : stmState x'.c = stmState x.c)
    (hd : Dest (stmState x.c) x.c) : Dest (closeClient x' level).2 (closeClient x' level).1.c := by
  have hc := hs.trans (.closes (closeClient_closes x' level))
  rcases closeClient_state x' level with h | h | h
  · rw [h, hst]
    exact hc.dest hd
  · rw [h]
    trivial
  · rw [h]
    trivial

/-- After an error exit only the client's own socket drains. -/
theorem Dest.hangup (hends : x.c.activeEnds = clientEnds) :
    Dest (closeClient x clientReadEnd).2 (closeClient x clientReadEnd).1.c := by
  rw [hangup_state hends]
  trivial

theorem readAuthMethod_dest (hends : x.c.activeEnds = clientEnds)
    (hcur : x.c.current = some .authMethod) (hd : Dest .authMethod x.c)
    (hr : readAuthMethod e fd x = .ok r) : Dest r.2 r.1.c := by
  have hst := stmState_of_current hcur
  rcases readAuthMethod_cases hr with rfl | rfl | ⟨n, hn, v, ms, rfl⟩
  · exact .close (x := x) ⟨rfl, rfl, rfl⟩ rfl (hst ▸ hd)
  · rw [hst]
    exact hd
  rcases answerGreeting_cases ((x.readClient e).consume n hn) v ms with
    ha | ⟨-, -, -, ha⟩ | ⟨-, -, ha⟩
  · rw [ha]
    exact .hangup hends
  · rw [ha]
    exact hd
  · rw [ha]
    exact hd

theorem readPlainAuth_dest (hends : x.c.activeEnds = clientEnds)
    (hcur : x.c.current = some .plainAuth) (hd : Dest .plainAuth x.c)
    (hr : readPlainAuth e fd x = .ok r) : Dest r.2 r.1.c := by
  have hst := stmState_of_current hcur
  rcases readPlainAuth_cases hr with rfl | rfl | ⟨n, hn, v, user, pass, rfl⟩
  · exact .close (x := x) ⟨rfl, rfl, rfl⟩ rfl (hst ▸ hd)
  · rw [hst]
    exact hd
  rcases answerCredentials_cases ((x.readClient e).consume n hn) v user pass with
    ha | ⟨-, ha⟩ | ⟨-, ha⟩
  · rw [ha]
    exact .hangup hends
  · rw [ha]
    exact hd
  · rw [ha]
    exact .hangup hends

theorem readProxyRequest_dest (hends : x.c.activeEnds = clientEnds)
    (hcur : x.c.current = some .request) (hd : Dest .request x.c)
    (hr : readProxyRequest e fd x = .ok r) : Dest r.2 r.1.c := by
  have hst := stmState_of_current hcur
  rcases readProxyRequest_cases hr with ⟨a, rfl⟩ | ⟨a, reply, -, rfl⟩ | ⟨a, n, hn, reply, -, rfl⟩ |
    ⟨a, n, k, hn, hs⟩
  · rw [hst]
    exact hd
  · exact .hangup hends
  · exact .hangup hends
  · rcases startRequest_cases hs with ⟨addr, -, -, rfl⟩ | ⟨fqdn, port, ha, rfl⟩ | ⟨addr, ha, rfl⟩
    · exact .hangup hends
    · exact ⟨ha, by simp [Ctx.setDest]⟩
    · exact logAccessInfo_ok_iff.mpr ⟨fun h => absurd h ha, fun _ => by simp [Ctx.setAddr]⟩

theorem tryConnect_dest (hends : x.c.activeEnds = clientEnds) (hd : logAccessInfo x.c = .ok ())
    (hr : tryConnect e x = .ok r) : Dest r.2 r.1.c := by
  obtain ⟨-, -, ⟨-, -, rfl⟩ | ⟨fd, -, hc⟩⟩ := tryConnect_cases hr
  · exact .hangup hends
  rcases connectTo_cases hc with ⟨err, -, -, rfl⟩ | ⟨-, -, -, rfl⟩ | ⟨-, -, rfl⟩
  · exact .hangup hends
  · exact .hangup (by simp only [failReply, putReply, Ctx.log, close_c]; exact hends)
  · exact hd

/-- The next address of a resolution. -/
theorem logAccessInfo_next (hd : logAccessInfo x.c = .ok ()) (a : AddrInfo) (rest : List AddrInfo) :
    logAccessInfo (x.setAddr (.resolved a rest)).c = .ok () := by
  rw [logAccessInfo_ok_iff] at hd ⊢
  exact ⟨hd.1, fun _ => by simp [Ctx.setAddr]⟩

theorem originCheckConnection_dest (hends : x.c.activeEnds = clientEnds)
    (hd : logAccessInfo x.c = .ok ()) (hr : originCheckConnection e fd x = .ok r) :
    Dest r.2 r.1.c := by
  rcases originCheckConnection_cases hr with ⟨-, -, -, rfl⟩ | ⟨-, ht⟩ | ⟨-, -, a, ht⟩ |
    ⟨-, err, next, -, ht⟩
  · exact .hangup hends
  · exact tryConnect_dest (by exact hends) (by exact hd) ht
  · obtain ⟨-, p, rfl⟩ := enterProxy_ok ht
    trivial
  · rcases nextAddress_cases ht with ⟨a, rest, ht⟩ | ⟨reply, -, rfl⟩
    · refine tryConnect_dest (by exact hends) ?_ ht
      exact logAccessInfo_next (by exact hd) a rest
    · exact .hangup hends

theorem handleProxyWrite_dest {st : Socks5State} (hcur : x.c.current = some st) (hd : Dest st x.c)
    (hr : handleProxyWrite e fd x = .ok r) : Dest r.2 r.1.c := by
  have hst := stmState_of_current hcur
  rw [← hst] at hd
  rcases handleProxyWrite_cases hr with
    ⟨-, ⟨-, -, -, rfl⟩ | ⟨-, -, rfl⟩ | ⟨-, -, rfl⟩ | ⟨n, -, rfl⟩⟩ |
    ⟨-, -, ⟨-, -, rfl⟩ | ⟨-, -, rfl⟩ | ⟨-, -, rfl⟩ | ⟨n, -, rfl⟩⟩
  · exact .close (x := x) ⟨rfl, rfl, rfl⟩ rfl hd
  · exact hd
  · exact .close (x := x) ⟨rfl, rfl, rfl⟩ rfl hd
  · exact hd
  · exact .close (x := x) ⟨rfl, rfl, rfl⟩ rfl hd
  · exact hd
  · exact .close (x := x) ⟨rfl, rfl, rfl⟩ rfl hd
  · exact hd

theorem handleProxyRead_dest (hcur : x.c.current = some .proxy)
    (hr : handleProxyRead e fd x = .ok r) : Dest r.2 r.1.c := by
  have hst := stmState_of_current hcur
  have hd : Dest (stmState x.c) x.c := by
    rw [hst]
    trivial
  rcases handleProxyRead_cases hr with ⟨-, ⟨-, rfl⟩ | rfl | ⟨p, rfl⟩⟩ |
    ⟨-, -, ⟨-, rfl⟩ | rfl | ⟨p, rfl⟩⟩
  · exact hd
  · exact .close (x := x) ⟨rfl, rfl, rfl⟩ rfl hd
  · exact hd
  · exact hd
  · exact .close (x := x) ⟨rfl, rfl, rfl⟩ rfl hd
  · exact hd

theorem handleFinishedResolution_dest (hd : Dest .resolving x.c) :
    Dest .connecting (handleFinishedResolution x).1.c :=
  logAccessInfo_ok_iff.mpr ⟨fun _ => hd.2, fun h => absurd hd.1 h⟩

def destined : Story where
  live _ st c _ := Dest st c
  gone _ _ := True
  current h := h
  born id fd n e k _ := ⟨rfl, rfl⟩
  read := by
    intro x e fd i m st handler r hctl hcur _ hh hr _ h
    cases st with
    | authMethod => cases hh; exact readAuthMethod_dest (Alone.ends hctl) hcur h hr
    | plainAuth => cases hh; exact readPlainAuth_dest (Alone.ends hctl) hcur h hr
    | request => cases hh; exact readProxyRequest_dest (Alone.ends hctl) hcur h hr
    | proxy => cases hh; exact handleProxyRead_dest hcur hr
    | resolving | connecting | done | writeRemaining => cases hh
  write := by
    intro x e fd i m st handler r hctl hcur _ hh hr _ h
    cases st with
    | plainAuth | request | resolving | proxy | writeRemaining =>
      cases hh
      exact handleProxyWrite_dest hcur h hr
    | connecting => cases hh; exact originCheckConnection_dest (Connecting.ends hctl) h hr
    | authMethod | done => cases hh
  resolved _ h := h
  block h := handleFinishedResolution_dest h
  resolving h := h
  done _ := trivial

/-! ## Requests whose reply is not safe -/

/-- The client in `REQUEST` has announced a name, and is answered before the name
is stored: it hangs up, its command is not CONNECT, or there is no memory. Or
there is no memory for the address itself, which is then freed. -/
def ReplyFaults (e : Env) (c : Client) : Prop :=
  let b := (readFromSock e.read c.originBuf).1
  let atyp := bufferPeek b 3
  if checkEOF (readFromSock e.read c.originBuf).2 e.read.isAgain then c.atyp = atypDomainName
  else ∃ addrLen, 5 ≤ b.write - b.read ∧ requestAddrLen b atyp = some addrLen ∧
    6 + addrLen ≤ b.write - b.read ∧
    if atyp = atypDomainName then bufferPeek b 1 ≠ cmdConnect ∨ e.mallocFqdn = false
    else bufferPeek b 1 = cmdConnect ∧ e.mallocAddrinfo = true ∧ e.mallocSockaddr = false

theorem replyAndClose_faults {reply : ServerReplyType} :
    replyAndClose x reply = .error .logAccessInfo ↔ logAccessInfo x.c ≠ .ok () := by
  unfold replyAndClose serverReply logAccessInfo
  split_ifs <;> simp

/-- Before a destination is stored, only a name is missed. -/
theorem logAccessInfo_blank (hd : Dest .request c) :
    logAccessInfo c ≠ .ok () ↔ c.atyp = atypDomainName := by
  unfold logAccessInfo
  rw [hd.1, hd.2]
  by_cases ha : c.atyp = atypDomainName <;> simp [ha]

theorem startRequest_faults {b : Buffer} {atyp : UInt8} {n : ℕ} (hd : Dest .request x.c)
    (ha : x.c.atyp = atyp) :
    startRequest e b atyp n x = .error .logAccessInfo ↔
      if atyp = atypDomainName then e.mallocFqdn = false
      else e.mallocAddrinfo = true ∧ e.mallocSockaddr = false := by
  unfold startRequest
  dsimp only
  by_cases hn : atyp = atypDomainName
  · rw [if_pos hn, if_pos hn]
    cases hm : e.mallocFqdn with
    | false =>
      simp only [Bool.not_false, ↓reduceIte, replyAndClose_faults, iff_true]
      exact (logAccessInfo_blank hd).mpr (ha.trans hn)
    | true => simp
  · rw [if_neg hn, if_neg hn]
    have hnull : logAccessInfo ((x.sel (selectorRemoveInterest x.w.selector x.c.clientSock
        opRead)).setAddr .null).c = .ok () :=
      logAccessInfo_ok_iff.mpr ⟨fun h => absurd (ha.symm.trans h) hn,
        fun _ => by simp [Ctx.setAddr]⟩
    have hfreed : logAccessInfo ((x.sel (selectorRemoveInterest x.w.selector x.c.clientSock
        opRead)).setAddr .freed).c ≠ .ok () := fun h =>
      (logAccessInfo_ok_iff.mp h).2 (fun h' => hn (ha.symm.trans h')) rfl
    cases h1 : e.mallocAddrinfo with
    | false =>
      simp only [Bool.not_false, ↓reduceIte, replyAndClose_faults, Bool.false_eq_true, false_and,
        iff_false, not_not]
      exact hnull
    | true =>
      cases h2 : e.mallocSockaddr with
      | false =>
        simp only [Bool.not_true, Bool.false_eq_true, Bool.not_false, ↓reduceIte,
          replyAndClose_faults, and_self, iff_true]
        exact hfreed
      | true => simp

theorem readProxyRequest_faults (hfd : fd = x.c.clientSock) (hd : Dest .request x.c) :
    readProxyRequest e fd x = .error .logAccessInfo ↔ ReplyFaults e x.c := by
  unfold readProxyRequest ReplyFaults
  dsimp only
  rw [if_neg (not_not.mpr hfd.symm)]
  have hcount : x.readClientCount e = (readFromSock e.read x.c.originBuf).2 := rfl
  rw [hcount]
  split
  · rw [replyAndClose_faults]
    exact logAccessInfo_blank hd
  generalize hb : (readFromSock e.read x.c.originBuf).1 = b
  have hbuf : (x.readClient e).c.originBuf = b := hb
  have havail : (x.readClient e).available = b.write - b.read := by rw [Ctx.available, hbuf]
  rw [hbuf, havail]
  split
  · rename_i h5
    simp only [reduceCtorEq, false_iff, not_exists, not_and]
    intro n h5'
    omega
  rename_i h5
  have hblank : Dest .request ((x.readClient e).setAtyp (bufferPeek b 3)).c := hd
  split
  · rename_i hnone
    rw [replyAndClose_faults, hnone]
    simp only [reduceCtorEq, false_and, and_false, exists_false, iff_false, not_not]
    by_contra hno
    have hname := (logAccessInfo_blank hblank).mp hno
    have hname' : bufferPeek b 3 = atypDomainName := hname
    rw [requestAddrLen, hname'] at hnone
    cases hnone
  rename_i addrLen hlen
  have hlen' :
      ∀ P : ℕ → Prop, (∃ n, 5 ≤ b.write - b.read ∧ requestAddrLen b (bufferPeek b 3) = some n ∧
      6 + n ≤ b.write - b.read ∧ P n) ↔ 6 + addrLen ≤ b.write - b.read ∧ P addrLen := by
    intro P
    rw [hlen]
    constructor
    · rintro ⟨n, -, hn, h6, hP⟩
      cases hn
      exact ⟨h6, hP⟩
    · rintro ⟨h6, hP⟩
      exact ⟨addrLen, by omega, rfl, h6, hP⟩
  rw [hlen' fun _ => _]
  split
  · rename_i h6
    have h6' : b.write - b.read < 6 + addrLen := by
      rw [← havail]
      exact h6
    simp only [reduceCtorEq, false_iff, not_and]
    intro h
    omega
  rename_i h6
  have h6' : 6 + addrLen ≤ b.write - b.read := by
    rw [← havail]
    exact Nat.not_lt.mp h6
  rw [and_iff_right h6']
  split
  · rename_i hcmd
    rw [replyAndClose_faults]
    have hiff := logAccessInfo_blank (c := (((x.readClient e).setAtyp (bufferPeek b 3)).consume
      (addrLen + 6) (by rw [Ctx.available] at h6; omega)).c) hd
    rw [hiff]
    change bufferPeek b 3 = atypDomainName ↔ _
    by_cases hname : bufferPeek b 3 = atypDomainName
    · simp [hname, hcmd]
    · simp [hname, hcmd]
  · rename_i hcmd
    refine (startRequest_faults ?_ ?_).trans ?_
    · exact hd
    · rfl
    · simp [not_not.mp hcmd]

/-! ## Nothing else is unsafe -/

theorem replyAndClose_safe {reply : ServerReplyType} (hd : logAccessInfo x.c = .ok ()) :
    replyAndClose x reply ≠ .error .logAccessInfo := fun h => replyAndClose_faults.mp h hd

theorem tryConnect_safe (hd : logAccessInfo x.c = .ok ()) :
    tryConnect e x ≠ .error .logAccessInfo := by
  unfold tryConnect
  split
  · simp
  · simp
  split
  · exact replyAndClose_safe hd
  · unfold connectTo
    dsimp only
    split
    · exact replyAndClose_safe hd
    · split_ifs
      · exact replyAndClose_safe (by rw [close_c]; exact hd)
      · simp

theorem enterProxy_safe {a : AddrInfo} (hd : logAccessInfo x.c = .ok ()) :
    enterProxy e a x ≠ .error .logAccessInfo := by
  have hj : logAccessInfo (joinOrigin x).c = .ok () := hd
  unfold enterProxy serverReply
  dsimp only
  rw [hj]
  simp

theorem originCheckConnection_safe (hd : logAccessInfo x.c = .ok ()) :
    originCheckConnection e fd x ≠ .error .logAccessInfo := by
  have hnext : ∀ {err next}, nextAddress e err next x ≠ .error .logAccessInfo := by
    intro err next
    unfold nextAddress
    dsimp only
    split
    · exact tryConnect_safe (logAccessInfo_next (by exact hd) _ _)
    · exact replyAndClose_safe hd
  unfold originCheckConnection
  dsimp only
  split
  · split
    · exact replyAndClose_safe hd
    · exact tryConnect_safe hd
  split
  · simp
  · simp
  · exact enterProxy_safe hd
  · exact enterProxy_safe hd
  · exact hnext
  · exact hnext

theorem handleProxyWrite_safe : handleProxyWrite e fd x ≠ .error .logAccessInfo := by
  unfold handleProxyWrite
  dsimp only
  split_ifs <;> simp

theorem jump_safe : jump r ≠ .error .logAccessInfo := fun h => by cases jump_error h

theorem stmHandlerWrite_safe (hd : Dest (stmState x.c) x.c) :
    stmHandlerWrite e fd x ≠ .error .logAccessInfo := by
  obtain ⟨st, hst⟩ := handleFirst_current x
  have hd' : Dest st (handleFirst x).c := by
    rcases handleFirst_cases x with ⟨hnone, hx⟩ | ⟨-, hx⟩
    · rw [hx] at hst ⊢
      cases hst
      rw [stmState, hnone] at hd
      exact hd
    · rw [hx] at hst ⊢
      rw [stmState_of_current hst] at hd
      exact hd
  rcases stmHandlerWrite_runs (stmState_of_current hst) with
    ⟨-, heq⟩ | ⟨handler, hh, ⟨f, hf, heq⟩ | ⟨r, -, heq⟩⟩
  · rw [heq]
    simp
  · rw [heq]
    rintro ⟨⟩
    cases st with
    | plainAuth | request | resolving | proxy | writeRemaining =>
      cases hh
      exact handleProxyWrite_safe hf
    | connecting =>
      cases hh
      exact originCheckConnection_safe hd' hf
    | authMethod | done => cases hh
  · rw [heq]
    exact jump_safe

theorem stmHandlerBlock_safe : stmHandlerBlock x ≠ .error .logAccessInfo := by
  unfold stmHandlerBlock
  dsimp only
  split
  · simp
  · exact jump_safe

theorem onReadReady_safe {st : Socks5State}
    {handler : Env → ℤ → Ctx → Except Fault (Ctx × Socks5State)} (hst : st ≠ .request)
    (hh : onReadReady st = some handler) : handler e fd x ≠ .error .logAccessInfo := by
  intro h
  cases st with
  | request => exact hst rfl
  | authMethod =>
    cases hh
    unfold readAuthMethod at h
    dsimp only at h
    split_ifs at h
    cases h
  | plainAuth =>
    cases hh
    unfold readPlainAuth at h
    dsimp only at h
    split_ifs at h
    cases h
  | proxy =>
    cases hh
    unfold handleProxyRead at h
    dsimp only at h
    split_ifs at h
    · split at h
      · rename_i f hf
        rw [sniff_error hf] at h
        cases h
      · cases h
    · cases h
  | resolving | connecting | done | writeRemaining => cases hh

/-- The one event that can be unsafe is a read in `REQUEST`. -/
theorem stmHandlerRead_faults (hd : Dest (stmState x.c) x.c)
    (hfd : x.c.current = some .request → fd = x.c.clientSock) :
    stmHandlerRead e fd x = .error .logAccessInfo ↔
      x.c.current = some .request ∧ ReplyFaults e x.c := by
  by_cases hreq : x.c.current = some .request
  · have hx : handleFirst x = x := handleFirst_of_current hreq
    rw [stmState_of_current hreq] at hd
    rw [← readProxyRequest_faults (hfd hreq) hd, and_iff_right hreq]
    have hready : onReadReady .request = some readProxyRequest := rfl
    have heq : stmHandlerRead e fd x = (readProxyRequest e fd (handleFirst x)).bind jump :=
      stmHandlerRead_eq (by rw [hx, stmState_of_current hreq]) hready
    rw [heq, hx]
    cases readProxyRequest e fd x with
    | error f =>
      change (Except.error f : Except Fault Outcome) = .error .logAccessInfo ↔ _
      rw [Except.error.injEq, Except.error.injEq]
    | ok r => exact iff_of_false jump_safe (by simp)
  · obtain ⟨st, hst⟩ := handleFirst_current x
    have hne : st ≠ .request := by
      rintro rfl
      rw [handleFirst_of_ne hst (by decide)] at hst
      exact hreq hst
    refine iff_of_false ?_ fun h => hreq h.1
    rcases stmHandlerRead_runs (stmState_of_current hst) with
      ⟨-, heq⟩ | ⟨handler, hh, ⟨f, hf, heq⟩ | ⟨r, -, heq⟩⟩
    · rw [heq]
      simp
    · rw [heq]
      rintro ⟨⟩
      exact onReadReady_safe hne hh hf
    · rw [heq]
      exact jump_safe

/-! ## Runs -/

/-- A read event of a client in `REQUEST` is not unsafe. -/
def RequestSafe (s : Server) : Event → Prop
  | .dispatch i r _ er _ => ∀ id c, s.halted = none → r = true →
    (s.w.selector.fds i).interest.read = true → (s.w.selector.fds i).data = some (.socks5 id) →
    s.heap id = some c → c.current = some .request → ¬ ReplyFaults er c
  | _ => True

theorem run_faults {handler : Ctx → Except Fault Outcome} (hh : s.halted = none) :
    (s.run id handler).halted = some .logAccessInfo ↔
      ∃ c, s.heap id = some c ∧ handler ⟨id, c, s.w⟩ = .error .logAccessInfo := by
  unfold Server.run
  split
  · rename_i hc
    simp [Server.fault, hc]
  · rename_i c hc
    split
    · rename_i f hf
      simp [Server.fault, hc, hf]
    · rename_i o ho
      simp [hh, hc, ho]

theorem masterReadHandler_halted (e : Env) (s : Server) :
    (masterReadHandler e s).halted = s.halted := by
  unfold masterReadHandler
  split
  · rfl
  · split
    · rfl
    · split_ifs <;> rfl

theorem mgmtMasterReadHandler_halted (e : Env) (s : Server) :
    (mgmtMasterReadHandler e s).halted = s.halted := by
  unfold mgmtMasterReadHandler
  split
  · rfl
  · split
    · rfl
    · split_ifs
      · rfl
      · dsimp only
        split_ifs <;> rfl

theorem readHalf_faults (hinv : Inv s) (htold : destined.Told s) (hh : s.halted = none) {i : ℕ}
    (hu : itemUsed (s.w.selector.fds i) = true) (r w : Bool) (er ew : Env) :
    (readHalf i r er s).halted = some .logAccessInfo ↔ ¬ RequestSafe s (.dispatch i r w er ew) := by
  obtain ⟨hit, -⟩ := hinv.selector.item?_of_used hu
  have hnone : s.halted ≠ some .logAccessInfo := by
    rw [hh]
    simp
  unfold readHalf RequestSafe
  dsimp only
  by_cases hr : (r && (s.w.selector.fds i).interest.read) = true
  swap
  · rw [if_neg hr]
    refine iff_of_false hnone (not_not.mpr ?_)
    intro id c _ hr' hi
    rw [Bool.and_eq_true] at hr
    exact absurd ⟨hr', hi⟩ hr
  rw [if_pos hr]
  rw [Bool.and_eq_true] at hr
  unfold handleRead
  split
  · rename_i id hdata
    rw [run_faults hh]
    have hiff : ∀ c, s.heap id = some c → (stmHandlerRead er (s.w.selector.fds i).fd ⟨id, c, s.w⟩ =
        .error .logAccessInfo ↔ c.current = some .request ∧ ReplyFaults er c) := by
      intro c hc
      refine stmHandlerRead_faults (x := ⟨id, c, s.w⟩) (htold.live id c hc) ?_
      intro hcur
      have hctl := hinv.live id c hc
      rw [show c.current = some .request from hcur] at hctl
      have ha : Alone id c s.w.selector ⟨true, true⟩ opRead := hctl
      have hheld : Held (.socks5 id) s.w.selector (s.w.selector.fds i).fd _ _ :=
        ⟨_, hit, hdata, rfl, FdInterest.le_refl _⟩
      exact (Alone.fd_eq (x := ⟨id, c, s.w⟩) ha hheld).1
    refine ⟨?_, ?_⟩
    · rintro ⟨c, hc, he⟩ hsafe
      obtain ⟨hcur, hun⟩ := (hiff c hc).mp he
      exact hsafe id c hh hr.1 hr.2 hdata hc hcur hun
    · intro hno
      by_contra hfine
      refine hno fun id' c _ _ _ hdata' hc hcur hun => hfine ⟨c, ?_⟩
      obtain rfl : id = id' := by simpa [hdata] using hdata'
      exact ⟨hc, (hiff c hc).mpr ⟨hcur, hun⟩⟩
  all_goals
    rename_i hdata
    refine iff_of_false ?_ (not_not.mpr fun id c _ _ _ hdata' => ?_)
  · rw [masterReadHandler_halted]
    exact hnone
  · rw [hdata] at hdata'
    cases hdata'
  · rw [mgmtMasterReadHandler_halted]
    exact hnone
  · rw [hdata] at hdata'
    cases hdata'
  · exact hnone
  · rw [hdata] at hdata'
    cases hdata'
  · simp [Server.fault]
  · rw [hdata] at hdata'
    cases hdata'

/-- The write half is never unsafe. -/
theorem writeHalf_safe (htold : destined.Told s) {i : ℕ} {fd : ℤ} {key : Option Handler}
    {w : Bool} :
    (writeHalf i fd key w e s).halted = some .logAccessInfo ↔ s.halted = some .logAccessInfo := by
  unfold writeHalf
  dsimp only
  split
  swap
  · rfl
  rename_i hcond
  rw [Bool.and_eq_true, Bool.and_eq_true, Option.isNone_iff_eq_none] at hcond
  have hh := hcond.1.1
  have hnone : s.halted ≠ some .logAccessInfo := by
    rw [hh]
    simp
  refine iff_of_false ?_ hnone
  unfold handleWrite
  split
  · rw [run_faults hh]
    rintro ⟨c, hc, he⟩
    exact stmHandlerWrite_safe (x := ⟨_, c, s.w⟩) (htold.live _ c hc) he
  · exact hnone
  · simp [Server.fault]
  · simp [Server.fault]

theorem step_faults (hinv : Inv s) (htold : destined.Told s) (hs : s.halted ≠ some .logAccessInfo)
    (ev : Event) : (step s ev).halted = some .logAccessInfo ↔ ¬ RequestSafe s ev := by
  unfold step
  by_cases hh : s.halted = none
  swap
  · rw [if_pos (by simpa [Option.isSome_iff_ne_none] using hh)]
    refine iff_of_false hs (not_not.mpr ?_)
    cases ev with
    | dispatch i r w er ew => exact fun id c hnone => absurd hnone hh
    | resolved | notify | addUser | setBuffsize | setDissector | mgmtClose => trivial
  rw [if_neg (by simp [hh])]
  have hfine : ∀ {s' : Server}, s'.halted = s.halted → s'.halted ≠ some .logAccessInfo := by
    intro s' h
    rw [h]
    exact hs
  cases ev with
  | dispatch i r w er ew =>
    dsimp only
    unfold dispatch
    dsimp only
    split
    · rename_i hu
      refine iff_of_false hs (not_not.mpr ?_)
      intro id c _ _ hi
      rw [hinv.selector.idle i (by simpa using hu)] at hi
      cases hi
    · rename_i hu
      have hu' : itemUsed (s.w.selector.fds i) = true := by simpa using hu
      have hm : Move anyWrite s (readHalf i r er s) := readHalf_move hinv hu' r er
      rw [writeHalf_safe (htold.move hinv hm)]
      exact readHalf_faults hinv htold hh hu' r w er ew
  | resolved id addrs =>
    refine iff_of_false ?_ (not_not.mpr trivial)
    dsimp only
    unfold threadNameResolution
    split
    · exact hs
    · split
      · simp [Server.fault]
      · exact hfine rfl
  | notify =>
    refine iff_of_false ?_ (not_not.mpr trivial)
    dsimp only
    unfold handleBlockNotifications
    split
    · exact hs
    · dsimp only
      split
      · exact hfine rfl
      · split
        · rw [run_faults (by exact hh)]
          rintro ⟨c, -, he⟩
          exact stmHandlerBlock_safe he
        · simp [Server.fault]
  | addUser userpass => exact iff_of_false (hfine rfl) (not_not.mpr trivial)
  | setBuffsize size =>
    refine iff_of_false ?_ (not_not.mpr trivial)
    dsimp only
    split
    · exact hfine rfl
    · exact hs
  | setDissector state => exact iff_of_false (hfine rfl) (not_not.mpr trivial)
  | mgmtClose fd =>
    refine iff_of_false ?_ (not_not.mpr trivial)
    dsimp only
    unfold Socks5d.mgmtClose
    split
    · split
      · exact hfine rfl
      · exact hs
    · exact hs

theorem exec_halted {f : Fault} (evs : List Event) (hs : s.halted = some f) :
    (exec step s evs).halted = some f := by
  refine exec_invariant (P := fun s : Server => s.halted = some f) hs ?_
  intro s ev h
  unfold step
  rw [if_pos (by simp [h])]
  exact h

end Socks5d
