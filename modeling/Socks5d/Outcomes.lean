import Socks5d.Closing

/-! # What each handler can do

One inversion lemma for each handler; the invariants of the later modules are
proved from these and never unfold a handler. -/

namespace Socks5d

variable {x x' : Ctx} {e : Env} {fd : ℤ} {r : Ctx × Socks5State}

/-! ## Replies -/

theorem serverReply_ok {reply : ServerReplyType} {atyp : Atyp} {addr : List UInt8} {port : Port}
    (h : serverReply x reply atyp addr port = .ok x') :
    logAccessInfo x.c = .ok () ∧ x' = putReply x reply atyp addr port := by
  unfold serverReply at h
  split at h
  · cases h
  · rename_i hl
    exact ⟨hl, (Except.ok.inj h).symm⟩

/-- The reply of an error exit. -/
def failReply (x : Ctx) (reply : ServerReplyType) : Ctx := putReply x reply .ipv4 emptyIp (0, 0)

theorem replyAndClose_ok {reply : ServerReplyType} (h : replyAndClose x reply = .ok r) :
    logAccessInfo x.c = .ok () ∧ r = closeClient (failReply x reply) clientReadEnd := by
  unfold replyAndClose at h
  split at h
  · cases h
  · rename_i hs
    obtain ⟨hl, rfl⟩ := serverReply_ok hs
    exact ⟨hl, (Except.ok.inj h).symm⟩

/-! ## The handshake -/

theorem readAuthMethod_cases (h : readAuthMethod e fd x = .ok r) :
    r = closeClient (x.readClient e) clientReadEnd ∨
    r = (x.readClient e, stmState x.c) ∨
    ∃ n hn v ms, r = answerGreeting ((x.readClient e).consume n hn) v ms := by
  unfold readAuthMethod at h
  dsimp only at h
  split_ifs at h
  · exact .inl (Except.ok.inj h).symm
  · exact .inr (.inl (Except.ok.inj h).symm)
  · exact .inr (.inr ⟨_, _, _, _, (Except.ok.inj h).symm⟩)

theorem readPlainAuth_cases (h : readPlainAuth e fd x = .ok r) :
    r = closeClient (x.readClient e) clientReadEnd ∨
    r = (x.readClient e, stmState x.c) ∨
    ∃ n hn v user pass, r = answerCredentials ((x.readClient e).consume n hn) v user pass := by
  unfold readPlainAuth at h
  dsimp only at h
  split_ifs at h
  · exact .inl (Except.ok.inj h).symm
  · exact .inr (.inl (Except.ok.inj h).symm)
  · exact .inr (.inl (Except.ok.inj h).symm)
  · exact .inr (.inr ⟨_, _, _, _, _, (Except.ok.inj h).symm⟩)

theorem chooseMethod_some {n : ℕ} {ms : List UInt8} {m : AuthMethod}
    (h : chooseMethod n ms = some m) :
    (m = .noAuth ∧ n = 0 ∧ 0x0 ∈ ms) ∨ (m = .userPass ∧ n ≠ 0) := by
  induction ms with
  | nil => cases h
  | cons a ms ih =>
    have hrec : chooseMethod n ms = some m →
        (m = .noAuth ∧ n = 0 ∧ 0x0 ∈ a :: ms) ∨ (m = .userPass ∧ n ≠ 0) := by
      intro h'
      exact (ih h').imp_left fun h => ⟨h.1, h.2.1, List.mem_cons_of_mem _ h.2.2⟩
    unfold chooseMethod at h
    split_ifs at h with h0 hn h2 hn'
    · exact hrec h
    · exact .inl ⟨(Option.some.inj h).symm, by simpa using hn, h0 ▸ List.mem_cons_self⟩
    · exact hrec h
    · exact .inr ⟨(Option.some.inj h).symm, hn'⟩
    · exact hrec h

/-- `selector_add_interest` for the reply just written. -/
def expectWrite (x : Ctx) : Ctx := x.sel (selectorAddInterest x.w.selector x.c.clientSock opWrite)

/-- The answers of `read_auth_method`; `y` has recorded the greeting. -/
theorem answerGreeting_cases (x : Ctx) (v : UInt8) (ms : List UInt8) :
    let y := x.log (.greeting x.id v ms x.w.users)
    let r := answerGreeting x v ms
    r = closeClient (simpleReply y serverVersion 0xFF) clientReadEnd ∨
    (v = serverVersion ∧ x.w.users = [] ∧ 0x0 ∈ ms ∧
      r = (expectWrite (simpleReply y serverVersion 0x0), .request)) ∨
    (v = serverVersion ∧ x.w.users ≠ [] ∧
      r = (expectWrite (simpleReply y serverVersion 0x2), .plainAuth)) := by
  intro y r
  by_cases hv : v = serverVersion
  swap
  · exact .inl (by simp only [r, answerGreeting, hv, ne_eq, not_false_eq_true, ↓reduceIte]; rfl)
  subst hv
  simp only [r, answerGreeting, ne_eq, not_true_eq_false, ↓reduceIte, Ctx.log]
  rcases hm : chooseMethod x.w.users.length ms with - | m
  · exact .inl rfl
  rcases chooseMethod_some hm with ⟨rfl, hn, h0⟩ | ⟨rfl, hn⟩
  · exact .inr (.inl ⟨trivial, List.length_eq_zero_iff.mp hn, h0, rfl⟩)
  · refine .inr (.inr ⟨trivial, ?_, rfl⟩)
    rintro hnil
    exact hn (by rw [hnil, List.length_nil])

theorem answerCredentials_cases (x : Ctx) (v : UInt8) (user pass : List UInt8) :
    let y :=
  (x.setUser (cString user)).log (.credentials x.id (cString user) (cString pass) x.w.users)
    let r := answerCredentials x v user pass
    r = closeClient (simpleReply x plainAuthVersion 0xFF) clientReadEnd ∨
    (tryCredentials x.w.users (cString user) (cString pass) = true ∧
      r = (expectWrite (simpleReply y plainAuthVersion 0x0), .request)) ∨
    (tryCredentials x.w.users (cString user) (cString pass) = false ∧
      r = closeClient (simpleReply y plainAuthVersion 0x1) clientReadEnd) := by
  intro y r
  by_cases hv : v = plainAuthVersion
  swap
  · exact .inl (by simp only [r, answerCredentials, hv, ne_eq, not_false_eq_true, ↓reduceIte])
  by_cases ht : tryCredentials x.w.users (cString user) (cString pass) = true
  · refine .inr (.inl ⟨ht, ?_⟩)
    simp only [r, answerCredentials, hv, ne_eq, not_true_eq_false, ↓reduceIte]
    exact if_pos ht
  · refine .inr (.inr ⟨by simpa using ht, ?_⟩)
    simp only [r, answerCredentials, hv, ne_eq, not_true_eq_false, ↓reduceIte]
    exact if_neg ht

theorem startRequest_cases {b : Buffer} {atyp : UInt8} {n : ℕ}
    (h : startRequest e b atyp n x = .ok r) :
    let y := x.sel (selectorRemoveInterest x.w.selector x.c.clientSock opRead)
    (∃ addr, logAccessInfo (y.setAddr addr).c = .ok () ∧
      (addr = x.c.currAddr ∨ addr = .null ∨ (addr = .freed ∧ atyp ≠ atypDomainName)) ∧
      r = closeClient (failReply (y.setAddr addr) .serverFailure) clientReadEnd) ∨
    (∃ fqdn port, atyp = atypDomainName ∧ r = (y.setDest fqdn port, .resolving)) ∨
    (∃ a, atyp ≠ atypDomainName ∧ r = (y.setAddr (.owned a), .connecting)) := by
  intro y
  unfold startRequest at h
  dsimp only at h
  by_cases ha : atyp = atypDomainName
  · rw [if_pos ha] at h
    split at h
    · obtain ⟨hl, hr⟩ := replyAndClose_ok h
      exact .inl ⟨x.c.currAddr, hl, .inl rfl, hr⟩
    · exact .inr (.inl ⟨_, _, ha, (Except.ok.inj h).symm⟩)
  · rw [if_neg ha] at h
    split at h
    · obtain ⟨hl, hr⟩ := replyAndClose_ok h
      exact .inl ⟨.null, hl, .inr (.inl rfl), hr⟩
    split at h
    · obtain ⟨hl, hr⟩ := replyAndClose_ok h
      exact .inl ⟨.freed, hl, .inr (.inr ⟨rfl, ha⟩), hr⟩
    · exact .inr (.inr ⟨_, ha, (Except.ok.inj h).symm⟩)

theorem readProxyRequest_cases (h : readProxyRequest e fd x = .ok r) :
    let y := x.readClient e
    (∃ a, r = (y.setAtyp a, stmState x.c)) ∨
    (∃ a reply, (logAccessInfo (y.setAtyp a).c = .ok () ∧ reply ≠ .succeeded) ∧
      r = closeClient (failReply (y.setAtyp a) reply) clientReadEnd) ∨
    (∃ a n hn reply, (logAccessInfo (y.setAtyp a).c = .ok () ∧ reply ≠ .succeeded) ∧
      r = closeClient (failReply ((y.setAtyp a).consume n hn) reply) clientReadEnd) ∨
    (∃ a n k hn, startRequest e y.c.originBuf a k ((y.setAtyp a).consume n hn) = .ok r) := by
  intro y
  unfold readProxyRequest at h
  dsimp only at h
  split at h
  · cases h
  split at h
  · obtain ⟨hl, hr⟩ := replyAndClose_ok h
    exact .inr (.inl ⟨y.c.atyp, _, ⟨hl, by decide⟩, hr⟩)
  split at h
  · exact .inl ⟨y.c.atyp, (Except.ok.inj h).symm⟩
  split at h
  · obtain ⟨hl, hr⟩ := replyAndClose_ok h
    exact .inr (.inl ⟨_, _, ⟨hl, by decide⟩, hr⟩)
  split at h
  · exact .inl ⟨_, (Except.ok.inj h).symm⟩
  split at h
  · obtain ⟨hl, hr⟩ := replyAndClose_ok h
    exact .inr (.inr (.inl ⟨_, _, _, _, ⟨hl, by decide⟩, hr⟩))
  · exact .inr (.inr (.inr ⟨_, _, _, _, h⟩))

/-! ## Connecting -/

theorem freshFd_some {w : World} {o : Option ℤ} (h : freshFd w o = some fd) :
    0 ≤ fd ∧ w.fdTable fd = none := by
  unfold freshFd at h
  split at h
  · split_ifs at h with hfd
    cases h
    exact hfd
  · cases h

theorem connectTo_cases (h : connectTo e fd x = .ok r) :
    let y := (x.setOrigin fd).openSock fd
    let reg := selectorRegister true x.w.selector fd opWrite (.socks5 x.id)
    (∃ err, e.connect = .failed err ∧ logAccessInfo x.c = .ok () ∧
      r = closeClient (failReply y (checkConnectionError err)) clientReadEnd) ∨
    ((∀ err, e.connect ≠ .failed err) ∧ reg.2 ≠ .success ∧ logAccessInfo x.c = .ok () ∧
      r = closeClient (failReply (y.close fd) .serverFailure) clientReadEnd) ∨
    ((∀ err, e.connect ≠ .failed err) ∧ reg.2 = .success ∧ r = (y.sel reg, .connecting)) := by
  intro y reg
  unfold connectTo at h
  dsimp only at h
  split at h
  · rename_i err herr
    obtain ⟨hl, hr⟩ := replyAndClose_ok h
    exact .inl ⟨err, herr, hl, hr⟩
  · rename_i hc
    split_ifs at h with hreg
    · obtain ⟨hl, hr⟩ := replyAndClose_ok h
      rw [close_c] at hl
      exact .inr (.inl ⟨hc, hreg, hl, hr⟩)
    · exact .inr (.inr ⟨hc, not_not.mp hreg, (Except.ok.inj h).symm⟩)

theorem tryConnect_cases (h : tryConnect e x = .ok r) :
    x.c.currAddr ≠ .null ∧ x.c.currAddr ≠ .freed ∧
    ((freshFd x.w e.socket = none ∧ logAccessInfo x.c = .ok () ∧
      r = closeClient (failReply (x.setOrigin (-1)) .serverFailure) clientReadEnd) ∨
    ∃ fd, freshFd x.w e.socket = some fd ∧ connectTo e fd x = .ok r) := by
  unfold tryConnect at h
  split at h
  · cases h
  · cases h
  · rename_i hn hf
    refine ⟨hn, hf, ?_⟩
    split at h
    · rename_i hfd
      obtain ⟨hl, hr⟩ := replyAndClose_ok h
      exact .inl ⟨hfd, hl, hr⟩
    · rename_i fd hfd
      exact .inr ⟨fd, hfd, h⟩

theorem enterProxy_ok {a : AddrInfo} (h : enterProxy e a x = .ok r) :
    logAccessInfo x.c = .ok () ∧ ∃ p,
      r = ((putReply (joinOrigin x) .succeeded a.family.atyp e.sockname.1 e.sockname.2).setParser p,
        .proxy) := by
  unfold enterProxy at h
  dsimp only at h
  split at h
  · cases h
  · rename_i x' hs
    obtain ⟨hl, rfl⟩ := serverReply_ok hs
    refine ⟨hl, ?_⟩
    rw [← Except.ok.inj h]
    split_ifs
    · exact ⟨_, rfl⟩
    · exact ⟨_, rfl⟩
    · exact ⟨x.c.pop3Parser, rfl⟩

theorem checkConnectionError_ne (err : Errno) : checkConnectionError err ≠ .succeeded := by
  cases err <;> decide

theorem nextAddress_cases {err : Errno} {next : List AddrInfo}
    (h : nextAddress e err next x = .ok r) :
    let y := x.sel (selectorUnregisterFd x.w.selector x.c.originSock)
    (∃ a rest, tryConnect e (y.setAddr (.resolved a rest)) = .ok r) ∨
    (∃ reply, (logAccessInfo x.c = .ok () ∧ reply ≠ .succeeded) ∧
      r = closeClient (failReply y reply) clientReadEnd) := by
  intro y
  unfold nextAddress at h
  dsimp only at h
  split at h
  · exact .inl ⟨_, _, h⟩
  · obtain ⟨hl, hr⟩ := replyAndClose_ok h
    exact .inr ⟨_, ⟨hl, checkConnectionError_ne err⟩, hr⟩

theorem originCheckConnection_cases (h : originCheckConnection e fd x = .ok r) :
    let y := x.sel (selectorRemoveInterest x.w.selector x.c.clientSock opWrite)
    (fd = x.c.clientSock ∧ x.c.currAddr = .null ∧ logAccessInfo x.c = .ok () ∧
      r = closeClient (failReply y .hostUnreachable) clientReadEnd) ∨
    (fd = x.c.clientSock ∧ tryConnect e y = .ok r) ∨
    (fd ≠ x.c.clientSock ∧ e.soError = none ∧ ∃ a, enterProxy e a x = .ok r) ∨
    (fd ≠ x.c.clientSock ∧ ∃ err next, e.soError = some err ∧
      nextAddress e err next x = .ok r) := by
  intro y
  unfold originCheckConnection at h
  dsimp only at h
  split_ifs at h with hfd hnull
  · obtain ⟨hl, hr⟩ := replyAndClose_ok h
    exact .inl ⟨hfd, hnull, hl, hr⟩
  · exact .inr (.inl ⟨hfd, h⟩)
  · split at h
    · cases h
    · cases h
    · rename_i a hso ha
      exact .inr (.inr (.inl ⟨hfd, hso, a, h⟩))
    · rename_i a _ hso ha
      exact .inr (.inr (.inl ⟨hfd, hso, a, h⟩))
    · rename_i err _ hso ha
      exact .inr (.inr (.inr ⟨hfd, err, _, hso, h⟩))
    · rename_i err _ next hso ha
      exact .inr (.inr (.inr ⟨hfd, err, next, hso, h⟩))

/-! ## Relaying -/

/-- The sniffer moves no byte of the request buffer. -/
theorem sniffed_parse (x : Ctx) (p : Pop3Parser) :
    x.sniffed (pop3Parse p x.c.originBuf).2 = x.setParser (some (pop3Parse p x.c.originBuf).2) := by
  unfold Ctx.sniffed Ctx.setParser
  rw [pop3Parse_data]

theorem sniff_ok (h : sniff x = .ok x') : ∃ p, x' = x.setParser p := by
  unfold sniff at h
  split at h
  · exact ⟨x.c.pop3Parser, (Except.ok.inj h).symm⟩
  dsimp only at h
  split at h
  · exact ⟨x.c.pop3Parser, (Except.ok.inj h).symm⟩
  rw [sniffed_parse] at h
  split at h
  · split at h
    · cases h
    · exact ⟨_, (Except.ok.inj h).symm⟩
  · exact ⟨_, (Except.ok.inj h).symm⟩

theorem handleProxyRead_cases (h : handleProxyRead e fd x = .ok r) :
    (fd = x.c.clientSock ∧
      ((bufferCanWrite x.c.originBuf = false ∧
        r = (x.sel (selectorMaskInterest x.w.selector fd opRead), stmState x.c)) ∨
      r = closeClient (x.readClient e) clientReadEnd ∨
      ∃ p, r = (((x.readClient e).sel
        (selectorUnmaskInterest x.w.selector x.c.originSock opWrite)).setParser p, stmState x.c))) ∨
    (fd ≠ x.c.clientSock ∧ fd = x.c.originSock ∧
      ((bufferCanWrite x.c.clientBuf = false ∧
        r = (x.sel (selectorMaskInterest x.w.selector fd opRead), stmState x.c)) ∨
      r = closeClient (x.readOrigin e) originReadEnd ∨
      ∃ p, r = (((x.readOrigin e).sel
        (selectorUnmaskInterest x.w.selector x.c.clientSock opWrite)).setParser p,
          stmState x.c))) := by
  unfold handleProxyRead at h
  dsimp only at h
  split_ifs at h with hc hfull heof ho hfull heof
  · exact .inl ⟨hc.symm, .inl ⟨by simpa using hfull, hc ▸ (Except.ok.inj h).symm⟩⟩
  · exact .inl ⟨hc.symm, .inr (.inl (Except.ok.inj h).symm)⟩
  · split at h
    · cases h
    · rename_i y hs
      obtain ⟨p, rfl⟩ := sniff_ok hs
      exact .inl ⟨hc.symm, .inr (.inr ⟨p, (Except.ok.inj h).symm⟩)⟩
  · exact .inr ⟨Ne.symm hc, ho.symm, .inl ⟨by simpa using hfull, ho ▸ (Except.ok.inj h).symm⟩⟩
  · exact .inr ⟨Ne.symm hc, ho.symm, .inr (.inl (Except.ok.inj h).symm)⟩
  · refine .inr ⟨Ne.symm hc, ho.symm, .inr (.inr ?_)⟩
    rw [← Except.ok.inj h, installParser]
    split_ifs
    · exact ⟨_, rfl⟩
    · exact ⟨_, rfl⟩
    · exact ⟨x.c.pop3Parser, rfl⟩

/-- A write closes the end exactly when `send` fails otherwise than by `EAGAIN`. -/
theorem write_failed_iff (s : SendResult) (b : Buffer) :
    ((writeToSock s b).2 ≠ 0 && checkEOF (writeToSock s b).2 (s = .again)) = true ↔ s = .error := by
  cases s with
  | sent n =>
    have hle := accepted_le (.sent n) (b.write - b.read)
    have hneg : ¬ (writeToSock (.sent n) b).2 < 0 := by
      simp only [writeToSock]
      omega
    simp [checkEOF, hneg]
  | again => simp [writeToSock, checkEOF]
  | error => simp [writeToSock, checkEOF]

theorem countBytes_eq (size : ℕ) (left : ℤ) (x : Ctx) :
    ∃ n, countBytes size left x = (x.addBytes n, stmState x.c) := by
  unfold countBytes
  split_ifs
  · exact ⟨_, rfl⟩
  · have h0 : UInt64.ofInt 0 = 0 := rfl
    exact ⟨0, by simp [Ctx.addBytes, h0]⟩

theorem handleProxyWrite_cases (h : handleProxyWrite e fd x = .ok r) :
    (fd = x.c.clientSock ∧
      ((bufferCanRead x.c.clientBuf = false ∧ x.c.activeEnds.originRead = false ∧
          Socks5State.proxy.toNat ≤ (stmState x.c).toNat ∧ r = closeClient x clientWriteEnd) ∨
      (bufferCanRead x.c.clientBuf = false ∧ (x.c.activeEnds.originRead = true ∨
          (stmState x.c).toNat < Socks5State.proxy.toNat) ∧
          r = (x.sel (selectorMaskInterest x.w.selector fd opWrite), stmState x.c)) ∨
      (bufferCanRead x.c.clientBuf = true ∧ e.send = .error ∧
          r = closeClient (x.writeClient e) clientWriteEnd) ∨
      ∃ n, e.send ≠ .error ∧ r = (((x.writeClient e).sel
        (selectorUnmaskInterest x.w.selector x.c.originSock opRead)).addBytes n, stmState x.c))) ∨
    (fd ≠ x.c.clientSock ∧ fd = x.c.originSock ∧
      ((bufferCanRead x.c.originBuf = false ∧ x.c.activeEnds.clientRead = false ∧
          r = closeClient x originWriteEnd) ∨
      (bufferCanRead x.c.originBuf = false ∧ x.c.activeEnds.clientRead = true ∧
          r = (x.sel (selectorMaskInterest x.w.selector fd opWrite), stmState x.c)) ∨
      (bufferCanRead x.c.originBuf = true ∧ e.send = .error ∧
          r = closeClient (x.writeOrigin e) originWriteEnd) ∨
      ∃ n, e.send ≠ .error ∧ r = (((x.writeOrigin e).sel
        (selectorUnmaskInterest x.w.selector x.c.clientSock opRead)).addBytes n,
          stmState x.c))) := by
  unfold handleProxyWrite at h
  dsimp only at h
  rw [Ctx.writeClientLeft, Ctx.writeOriginLeft] at h
  simp only [write_failed_iff, hasFlag_originRead, hasFlag_clientRead] at h
  split at h
  · rename_i hc
    refine .inl ⟨hc.symm, ?_⟩
    split at h
    · rename_i hr
      have hr' : bufferCanRead x.c.clientBuf = false := by simpa using hr
      split at h
      · rename_i ho
        rw [Bool.and_eq_true, Bool.not_eq_true', decide_eq_true_eq] at ho
        exact .inl ⟨hr', ho.1, ho.2, (Except.ok.inj h).symm⟩
      · rename_i ho
        rw [Bool.and_eq_true, Bool.not_eq_true', decide_eq_true_eq, not_and] at ho
        refine .inr (.inl ⟨hr', ?_, (Except.ok.inj h).symm⟩)
        by_cases hor : x.c.activeEnds.originRead = true
        · exact .inl hor
        · exact .inr (Nat.not_le.mp (ho (by simpa using hor)))
    · rename_i hr
      split at h
      · rename_i hs
        exact .inr (.inr (.inl ⟨by simpa using hr, hs, (Except.ok.inj h).symm⟩))
      · rename_i hs
        obtain ⟨n, hn⟩ := countBytes_eq _ _ _
        exact .inr (.inr (.inr ⟨n, hs, (Except.ok.inj h).symm.trans hn⟩))
  · rename_i hc
    split at h
    · rename_i ho
      refine .inr ⟨Ne.symm hc, ho.symm, ?_⟩
      split at h
      · rename_i hr
        have hr' : bufferCanRead x.c.originBuf = false := by simpa using hr
        split at h
        · rename_i hcr
          exact .inl ⟨hr', by simpa using hcr, (Except.ok.inj h).symm⟩
        · rename_i hcr
          exact .inr (.inl ⟨hr', by simpa using hcr, (Except.ok.inj h).symm⟩)
      · rename_i hr
        split at h
        · rename_i hs
          exact .inr (.inr (.inl ⟨by simpa using hr, hs, (Except.ok.inj h).symm⟩))
        · rename_i hs
          obtain ⟨n, hn⟩ := countBytes_eq _ _ _
          exact .inr (.inr (.inr ⟨n, hs, (Except.ok.inj h).symm.trans hn⟩))
    · cases h

end Socks5d
