import Mathlib.Data.List.TakeWhile
import Socks5d.Decoding
import Socks5d.Destination

/-! # What the handshake lets in

The two decisions of `handshake.c` that open the proxy: which credentials are accepted,
and which requests. -/

namespace Socks5d
open EventRun Wire

/-- The handler ends in state `st`. -/
def MovesTo (res : Except Fault (Ctx × Socks5State)) (st : Socks5State) : Prop :=
  ∃ z, res = .ok (z, st)

theorem movesTo_iff {res : Except Fault (Ctx × Socks5State)} {st : Socks5State} :
    MovesTo res st ↔ res.map Prod.snd = .ok st := by
  unfold MovesTo
  cases res with
  | error f => simp [Except.map]
  | ok r =>
    constructor
    · rintro ⟨z, h⟩
      cases h
      rfl
    · intro h
      cases h
      exact ⟨r.1, rfl⟩

theorem movesTo_ok {r : Ctx × Socks5State} {st : Socks5State} :
    MovesTo (.ok r) st ↔ r.2 = st := by
  rw [movesTo_iff]
  exact ⟨Except.ok.inj, congrArg Except.ok⟩

/-! ## Credentials -/

section
variable {x : Ctx} {e : Env}

theorem tryCredentials_iff {users : UserTable} {user pass : List UInt8} :
    tryCredentials users user pass = true ↔ ⟨user, pass⟩ ∈ users := by
  rw [tryCredentials, List.any_eq_true]
  constructor
  · rintro ⟨u, hu, heq⟩
    rw [Bool.and_eq_true, decide_eq_true_eq, decide_eq_true_eq] at heq
    obtain ⟨rfl, rfl⟩ := heq
    exact hu
  · intro hu
    exact ⟨_, hu, by simp⟩

theorem answerCredentials_moves (hst : stmState x.c = .plainAuth) (user pass : List UInt8) :
    (answerCredentials x 0x01 user pass).2 = .request ↔
    ⟨cString user, cString pass⟩ ∈ x.w.users := by
  have hversion : ¬ (0x01 : UInt8) ≠ plainAuthVersion := by decide
  rw [← tryCredentials_iff]
  unfold answerCredentials
  rw [if_neg hversion]
  dsimp only
  split_ifs with htry
  · exact iff_of_true rfl htry
  · refine iff_of_false (fun hreq => ?_) htry
    -- closing leaves the state, or ends it
    rcases closeClient_state
      (simpleReply ((x.setUser (cString user)).log (.credentials x.id (cString user)
      (cString pass) x.w.users)) plainAuthVersion 0x1) clientReadEnd with h | h | h
    · have hsame : stmState x.c = .request := h.symm.trans hreq
      rw [hst] at hsame
      cases hsame
    · cases h.symm.trans hreq
    · cases h.symm.trans hreq

/-- Credentials are accepted when they are in the table, as sent, unless one of them has a
zero byte and what is before the zeros is in the table. -/
theorem credentials_compared_as_sent_iff (n k : UInt8) (user pass rest : List UInt8)
    (hst : stmState x.c = .plainAuth) (hok : x.eof e = false)
    (hz : ∀ u ∈ x.w.users, 0 ∉ u.username ∧ 0 ∉ u.password)
    (hn : user.length = n.toNat) (hk : pass.length = k.toNat)
    (hheld : x.held e = 0x01 :: n :: (user ++ k :: (pass ++ rest))) :
    (MovesTo (readPlainAuth e x.c.clientSock x) .request ↔
      ∃ u ∈ x.w.users, u.username = user ∧ u.password = pass) ↔
    (0 ∉ user ∧ 0 ∉ pass) ∨
      ¬ ∃ u ∈ x.w.users, u.username = cString user ∧ u.password = cString pass := by
  have hmem : ∀ name word : List UInt8, (∃ u ∈ x.w.users, u.username = name ∧ u.password = word) ↔
      ⟨name, word⟩ ∈ x.w.users := by
    intro name word
    constructor
    · rintro ⟨u, hu, rfl, rfl⟩
      exact hu
    · exact fun hu => ⟨_, hu, rfl, rfl⟩
  have hmoves : MovesTo (readPlainAuth e x.c.clientSock x) .request ↔
      ⟨cString user, cString pass⟩ ∈ x.w.users := by
    have hdec : credentialsReader (x.held e) = some (.credentials 0x01 user pass, rest) := by
      rw [hheld]
      exact credentialsReader_cons hn hk
    rcases readPlainAuth_reads rfl hok with ⟨hnone, -⟩ |
      ⟨version, user', pass', rest', size, hsize, hsome, -, hr⟩
    · cases hdec.symm.trans hnone
    · cases hdec.symm.trans hsome
      rw [hr, movesTo_ok]
      exact answerCredentials_moves (x := (x.readClient e).consume size hsize) hst user pass
  rw [hmoves, hmem, hmem]
  by_cases h0 : 0 ∉ user ∧ 0 ∉ pass
  · rw [cString_eq_self h0.1, cString_eq_self h0.2]
    exact iff_of_true Iff.rfl (.inl h0)
  · -- no entry has a zero byte
    have hno : ⟨user, pass⟩ ∉ x.w.users := fun hu => h0 (hz _ hu)
    rw [iff_false_right hno, or_iff_right h0]

end

/-- A client that was asked for credentials, before they come. -/
def authCtx (users : UserTable) : Ctx where
  id := 0
  c := { createClient 3 2048 (.fine [] 3) with current := some .plainAuth }
  w := (boot users [] []).w

/-- The user `ada`, whose password is `pw`. -/
def ada : User := ⟨[0x61, 0x64, 0x61], [0x70, 0x77]⟩

theorem sent_credentials_are_accepted :
    MovesTo (readPlainAuth (.fine [1, 3, 0x61, 0x64, 0x61, 2, 0x70, 0x77] 3) 3 (authCtx [ada]))
      .request := by
  have h := credentials_compared_as_sent_iff (x := authCtx [ada])
    (e := .fine [1, 3, 0x61, 0x64, 0x61, 2, 0x70, 0x77] 3) 3 2 ada.username ada.password []
    rfl (by decide +kernel) (by decide +kernel) rfl rfl (by decide +kernel)
  exact (h.mpr (.inl (by decide +kernel))).mpr ⟨ada, List.mem_cons_self, rfl, rfl⟩

/-- The name `ada` followed by a zero and anything else is taken for `ada`. -/
theorem zero_byte_ends_the_name :
    let e := Env.fine [1, 5, 0x61, 0x64, 0x61, 0, 0x78, 2, 0x70, 0x77] 3
    (authCtx [ada]).held e = [1, 5, 0x61, 0x64, 0x61, 0, 0x78, 2, 0x70, 0x77] ∧
      ¬ (MovesTo (readPlainAuth e 3 (authCtx [ada])) .request ↔
        ∃ u ∈ (authCtx [ada]).w.users, u.username = [0x61, 0x64, 0x61, 0, 0x78] ∧
          u.password = [0x70, 0x77]) := by
  intro e
  refine ⟨by decide +kernel, fun h => ?_⟩
  have hmoves : MovesTo (readPlainAuth e 3 (authCtx [ada])) .request := by
    rw [movesTo_iff]
    rfl
  have hno : ¬ ∃ u ∈ [ada], u.username = [0x61, 0x64, 0x61, 0, 0x78] ∧
      u.password = [0x70, 0x77] := by
    decide +kernel
  exact hno (h.mp hmoves)

/-! ## Requests -/

def Target.named : Target → Bool
  | .domainName _ => true
  | .ipv4 _ | .ipv6 _ => false

/-- The client is let through. -/
def Accepts (res : Except Fault (Ctx × Socks5State)) : Prop :=
  MovesTo res .resolving ∨ MovesTo res .connecting

/-- The client `x` gets an error reply, and nothing more is read from it. -/
def Refuses (x : Ctx) (res : Except Fault (Ctx × Socks5State)) : Prop :=
  ∃ z st reply, res = .ok (z, st) ∧ reply ≠ .succeeded ∧
    bufferReadPtr z.c.clientBuf =
      bufferReadPtr x.c.clientBuf ++ replyBytes reply .ipv4 emptyIp (0, 0) ∧
    z.c.activeEnds.clientRead = false

/-- The bytes begin with a CONNECT request of version 5. -/
def ConnectRequest (bs : List UInt8) : Prop :=
  ∃ rsv d q rest, requestReader bs = some (.request 0x05 0x01 rsv d q, rest)

/-- The bytes begin with another version or command, or with a type of address that does
not exist and whose length is not known. -/
def FaultyRequest (bs : List UInt8) : Prop :=
  (∃ version cmd rsv d q rest, requestReader bs = some (.request version cmd rsv d q, rest) ∧
    ¬ (version = 0x05 ∧ cmd = 0x01)) ∨
  ∃ version cmd rsv atyp n tail, bs = version :: cmd :: rsv :: atyp :: n :: tail ∧
    atyp ≠ 0x01 ∧ atyp ≠ 0x03 ∧ atyp ≠ 0x04

/-- `read_proxy_request` lets in the requests of the grammar and refuses the faulty ones. -/
def FollowsGrammar (x : Ctx) (e : Env) : Prop :=
  let res := readProxyRequest e x.c.clientSock x
  (Accepts res ↔ ConnectRequest (x.held e)) ∧ (FaultyRequest (x.held e) → Refuses x res)

/-- There is memory for what a request asks for. -/
def Env.allocates (e : Env) (d : Target) : Bool :=
  if d.named then e.mallocFqdn else e.mallocAddrinfo && e.mallocSockaddr

/-- The requests that are treated as they should be. The version is not looked at, so that
a wrong one is refused only for want of memory; a name that is not stored yet is read for
the log. -/
def Treated (e : Env) (version cmd : UInt8) (d : Target) : Prop :=
  if cmd = 0x01 then
    (version = 0x05 ∧ e.allocates d = true) ∨
      (version ≠ 0x05 ∧ d.named = false ∧ e.mallocAddrinfo = false)
  else d.named = false

/-- At the end of the stream nothing is looked at. -/
def GrammarKept (x : Ctx) (e : Env) : Prop :=
  if x.eof e then
    ¬ ConnectRequest (x.held e) ∧ (FaultyRequest (x.held e) → x.c.atyp ≠ atypDomainName)
  else
    ∀ version cmd rsv d q rest,
      requestReader (x.held e) = some (.request version cmd rsv d q, rest) → Treated e version cmd d

section
variable {x y : Ctx} {e : Env} {res : Except Fault (Ctx × Socks5State)}

theorem faulted (f : Fault) : ¬ Accepts (.error f) ∧ ¬ Refuses x (.error f) := by
  refine ⟨?_, ?_⟩
  · rintro (⟨z, h⟩ | ⟨z, h⟩)
    · cases h
    · cases h
  · rintro ⟨z, st, reply, h, -⟩
    cases h

theorem accepts_ok {z : Ctx} {st : Socks5State} :
    Accepts (.ok (z, st)) ↔ st = .resolving ∨ st = .connecting := by
  rw [Accepts, movesTo_ok, movesTo_ok]

/-- What a handler has in common with the client it was called for. -/
structure Unanswered (x y : Ctx) : Prop where
  clientBuf : y.c.clientBuf = x.c.clientBuf
  ends : y.c.activeEnds = clientEnds
  room : y.c.clientBuf.write + 10 ≤ y.c.clientBuf.limit

/-- An error exit whose reply can be logged. -/
theorem replyAndClose_refuses (h : Unanswered x y) (hlog : logAccessInfo y.c = .ok ())
    (reply : ServerReplyType) (hreply : reply ≠ .succeeded) :
    ¬ Accepts (replyAndClose y reply) ∧ Refuses x (replyAndClose y reply) := by
  generalize hz : putReply y reply .ipv4 emptyIp (0, 0) = z
  have hends : z.c.activeEnds = clientEnds := by
    rw [← hz]
    exact h.ends
  have hbuf : bufferReadPtr z.c.clientBuf =
      bufferReadPtr x.c.clientBuf ++ replyBytes reply .ipv4 emptyIp (0, 0) := by
    rw [← hz, ← h.clientBuf]
    exact replyBuffer_readPtr h.room
  have hclose : closeClient z clientReadEnd = (closeEnds clientReadEnd z, .writeRemaining) := by
    have hcw : z.c.activeEnds.clientWrite = true := by rw [hends]; rfl
    have hcr : z.c.activeEnds.clientRead = true := by rw [hends]; rfl
    rw [closeClient_clientRead hcw hcr, closeState, if_neg]
    simp [hends, clientEnds, clientReadEnd]
  have hres : replyAndClose y reply = .ok (closeEnds clientReadEnd z, .writeRemaining) := by
    rw [replyAndClose, serverReply, hlog]
    dsimp only
    rw [hz, hclose]
  rw [hres]
  refine ⟨?_, closeEnds clientReadEnd z, _, reply, rfl, hreply, ?_, ?_⟩
  · rw [accepts_ok]
    simp
  · rw [Closes.closeEnds.c_eq]
    exact hbuf
  · simp [clientReadEnd]

/-- An error exit, as the log decides it. -/
theorem replyAndClose_cases (h : Unanswered x y) (hd : Dest .request y.c)
    (reply : ServerReplyType) (hreply : reply ≠ .succeeded) :
    ¬ Accepts (replyAndClose y reply) ∧
      (Refuses x (replyAndClose y reply) ↔ y.c.atyp ≠ atypDomainName) := by
  have hblank := logAccessInfo_blank hd
  by_cases hname : y.c.atyp = atypDomainName
  · rw [replyAndClose_faults.mpr (hblank.mpr hname)]
    have hf := faulted (x := x) .logAccessInfo
    exact ⟨hf.1, iff_of_false hf.2 (not_not.mpr hname)⟩
  · have hok := not_not.mp (mt hblank.mp hname)
    have hr := replyAndClose_refuses h hok reply hreply
    exact ⟨hr.1, iff_of_true hr.2 hname⟩

/-- The error exit for want of memory of a numeric address, freed in between or not. -/
theorem replyAndClose_addr (h : Unanswered x y) (hname : y.c.atyp ≠ atypDomainName) (a : CurrAddr) :
    ¬ Accepts (replyAndClose (y.setAddr a) .serverFailure) ∧
      (Refuses x (replyAndClose (y.setAddr a) .serverFailure) ↔ a ≠ .freed) := by
  have hlog := logAccessInfo_ok_iff (c := (y.setAddr a).c)
  have hsame : Unanswered x (y.setAddr a) := ⟨h.clientBuf, h.ends, h.room⟩
  by_cases ha : a = .freed
  · have hno : logAccessInfo (y.setAddr a).c ≠ .ok () := fun hok => (hlog.mp hok).2 hname ha
    rw [replyAndClose_faults.mpr hno]
    have hf := faulted (x := x) .logAccessInfo
    exact ⟨hf.1, iff_of_false hf.2 (not_not.mpr ha)⟩
  · have hok := hlog.mpr ⟨fun h' => absurd h' hname, fun _ => ha⟩
    have hr := replyAndClose_refuses hsame hok .serverFailure (by decide)
    exact ⟨hr.1, iff_of_true hr.2 ha⟩

theorem accepted {z : Ctx} {st : Socks5State} (hst : st = .resolving ∨ st = .connecting)
    (hends : z.c.activeEnds = clientEnds) : Accepts (.ok (z, st)) ∧ ¬ Refuses x (.ok (z, st)) := by
  refine ⟨accepts_ok.mpr hst, ?_⟩
  rintro ⟨z', st', reply, heq, -, -, hread⟩
  cases heq
  rw [hends] at hread
  cases hread

/-- How a CONNECT request ends, by the memory there is. -/
theorem startRequest_ends (h : Unanswered x y) (hd : Dest .request y.c) {b : Buffer} {atyp : UInt8}
    {d : Target} {addr : List UInt8} (hs : Spells atyp d addr) (hatyp : y.c.atyp = atyp) :
    let res := startRequest e b atyp addr.length y
    (Accepts res ↔ e.allocates d = true) ∧
      (Refuses x res ↔ d.named = false ∧ e.mallocAddrinfo = false) := by
  generalize hy : y.sel (selectorRemoveInterest y.w.selector y.c.clientSock opRead) = z
  have hz : Unanswered x z := by
    rw [← hy]
    exact ⟨h.clientBuf, h.ends, h.room⟩
  have hdz : Dest .request z.c := by
    rw [← hy]
    exact hd
  have hatz : z.c.atyp = atyp := by
    rw [← hy]
    exact hatyp
  intro res
  have hres : res = startRequest e b atyp addr.length y := rfl
  unfold startRequest at hres
  dsimp only at hres
  rw [hy] at hres
  unfold Env.allocates
  -- a name needs one block, an address two
  by_cases hname : atyp = atypDomainName
  · have hnamed : d.named = true := by
      subst hname
      cases hs
      rfl
    rw [if_pos hname] at hres
    rw [hres, if_pos hnamed, hnamed]
    cases hm : e.mallocFqdn with
    | false =>
      have hr := replyAndClose_cases hz hdz .serverFailure (by decide)
      simp only [Bool.not_false, if_true]
      refine ⟨iff_of_false hr.1 (by simp), iff_of_false (fun hyes => ?_) (by simp)⟩
      exact hr.2.mp hyes (hatz.trans hname)
    | true =>
      have hr := accepted (x := x) (.inl rfl) (z := z.setDest
        ((List.range (addr.length - 1)).map fun i => bufferPeek b (5 + i))
        (bufferPeek b (4 + addr.length), bufferPeek b (5 + addr.length))) hz.ends
      exact ⟨iff_of_true hr.1 rfl, iff_of_false hr.2 (by simp)⟩
  · have hnamed : d.named = false := by
      cases hs with
      | ipv4 _ | ipv6 _ => rfl
      | domainName _ => exact absurd rfl hname
    rw [if_neg hname] at hres
    rw [hres, hnamed, if_neg Bool.false_ne_true]
    have hno : z.c.atyp ≠ atypDomainName := by rwa [hatz]
    cases hai : e.mallocAddrinfo with
    | false =>
      have hr := replyAndClose_addr hz hno .null
      exact ⟨iff_of_false hr.1 (by simp), iff_of_true (hr.2.mpr (by simp)) (by simp)⟩
    | true =>
      cases hsa : e.mallocSockaddr with
      | false =>
        have hr := replyAndClose_addr hz hno .freed
        exact ⟨iff_of_false hr.1 (by simp), iff_of_false (fun hyes => hr.2.mp hyes rfl) (by simp)⟩
      | true =>
        have hr := accepted (x := x) (.inr rfl) (z := z.setAddr (.owned
          ⟨if atyp = atypIpv4 then .inet else .inet6,
            (List.range addr.length).map fun i => bufferPeek b (4 + i),
            (bufferPeek b (4 + addr.length), bufferPeek b (5 + addr.length))⟩)) hz.ends
        exact ⟨iff_of_true hr.1 (by simp), iff_of_false hr.2 (by simp)⟩

/-- How a whole request ends. -/
theorem request_ends (hu : Unanswered x y) (hd : Dest .request y.c) (b : Buffer) (cmd : UInt8)
    {atyp : UInt8} {d : Target} {addr : List UInt8} (hs : Spells atyp d addr)
    (hatyp : y.c.atyp = atyp) :
    let res := if cmd ≠ cmdConnect then replyAndClose y .commandNotSupported
      else startRequest e b atyp addr.length y
    (Accepts res ↔ cmd = 0x01 ∧ e.allocates d = true) ∧
      (Refuses x res ↔ d.named = false ∧ (cmd = 0x01 → e.mallocAddrinfo = false)) := by
  have hnamed : d.named = false ↔ y.c.atyp ≠ atypDomainName := by
    rw [hatyp]
    cases hs with
    | ipv4 _ => exact iff_of_true rfl (by decide)
    | ipv6 _ => exact iff_of_true rfl (by decide)
    | domainName _ => exact iff_of_false (by simp [Target.named]) (not_not.mpr rfl)
  intro res
  by_cases hcmd : cmd = 0x01
  · have hres : res = startRequest e b atyp addr.length y :=
      if_neg (not_not.mpr (show cmd = cmdConnect from hcmd))
    have hends := startRequest_ends (e := e) (b := b) hu hd hs hatyp
    rw [hres, hends.1, hends.2]
    simp [hcmd]
  · have hres : res = replyAndClose y .commandNotSupported :=
      if_pos (show cmd ≠ cmdConnect from hcmd)
    have hends := replyAndClose_cases hu hd .commandNotSupported (by decide)
    rw [hres, hends.2, hnamed]
    exact ⟨iff_of_false hends.1 fun h => hcmd h.1, by simp [hcmd]⟩

end

/-- A request that is read whole has no other faults than those of its head. -/
theorem connectRequest_iff {bs rest : List UInt8} {version cmd rsv : UInt8} {d : Target} {q : Port}
    (hread : requestReader bs = some (.request version cmd rsv d q, rest)) :
    ConnectRequest bs ↔ version = 0x05 ∧ cmd = 0x01 := by
  unfold ConnectRequest
  rw [hread]
  constructor
  · rintro ⟨_, _, _, _, heq⟩
    cases heq
    exact ⟨rfl, rfl⟩
  · rintro ⟨rfl, rfl⟩
    exact ⟨rsv, d, q, rest, rfl⟩

theorem faultyRequest_iff {bs rest : List UInt8} {version cmd rsv : UInt8} {d : Target} {q : Port}
    (hread : requestReader bs = some (.request version cmd rsv d q, rest)) :
    FaultyRequest bs ↔ ¬ (version = 0x05 ∧ cmd = 0x01) := by
  constructor
  · rintro (⟨_, _, _, _, _, _, heq, hbad⟩ | ⟨_, _, _, _, _, _, hbs, h1, h3, h4⟩)
    · cases hread.symm.trans heq
      exact hbad
    · -- the type of the address is one of the three
      obtain ⟨_, _, _, atyp, d', addr, _, hs, hbs', -⟩ := requestReader_eq_some hread
      rw [hbs'] at hbs
      simp only [List.cons.injEq] at hbs
      obtain ⟨-, -, -, rfl, -⟩ := hbs
      rcases spells_iff.mp ⟨d', addr, hs⟩ with h | h | h
      · exact absurd h h1
      · exact absurd h h4
      · exact absurd h h3
  · exact fun hbad => .inl ⟨_, _, _, _, _, _, hread, hbad⟩

section
variable {x : Ctx} {e : Env} (hst : stmState x.c = .request) (hd : Dest .request x.c)
  (hends : x.c.activeEnds = clientEnds)
  (hroom : x.c.clientBuf.write + 10 ≤ x.c.clientBuf.limit)
include hst hd hends hroom

theorem followsGrammar_iff : FollowsGrammar x e ↔ GrammarKept x e := by
  have hself : Unanswered x (x.readClient e) := ⟨rfl, hends, hroom⟩
  have hatyp : ∀ a, Unanswered x ((x.readClient e).setAtyp a) := fun _ => ⟨rfl, hends, hroom⟩
  unfold FollowsGrammar GrammarKept
  dsimp only
  cases hok : x.eof e with
  | true =>
    have hres : readProxyRequest e x.c.clientSock x =
        replyAndClose (x.readClient e) .commandNotSupported := by
      unfold Ctx.eof at hok
      unfold readProxyRequest
      rw [if_neg (not_not.mpr rfl)]
      dsimp only
      rw [if_pos hok]
    have hr := replyAndClose_cases hself hd .commandNotSupported (by decide)
    rw [hres, hr.2, iff_false_left hr.1]
    rfl
  | false =>
    rw [if_neg Bool.false_ne_true]
    rcases readProxyRequest_reads rfl hok with ⟨hnone, hknown, a, hres⟩ |
      ⟨version, cmd, rsv, atyp, tail, hbs, hno, hres⟩ |
      ⟨version, cmd, rsv, atyp, d, addr, q, rest, n, hn, hs, hbs, -, hres⟩
    · -- it waits
      have hread : ∀ {r}, requestReader (x.held e) ≠ some r := by
        intro r hr
        cases hnone.symm.trans hr
      refine iff_of_true ⟨?_, ?_⟩ fun version cmd rsv d q rest hr => absurd hr hread
      · rw [hres, accepts_ok, hst]
        refine iff_of_false (by simp) ?_
        rintro ⟨rsv, d, q, rest, hr⟩
        exact hread hr
      · rintro (⟨version, cmd, rsv, d, q, rest, hr, -⟩ |
          ⟨version, cmd, rsv, atyp, n, tail, hbs, h1, h3, h4⟩)
        · exact absurd hr hread
        · rcases spells_iff.mp (hknown _ _ _ _ _ _ hbs) with h | h | h
          · exact absurd h h1
          · exact absurd h h4
          · exact absurd h h3
    · -- the type of the address does not exist
      have hread : ∀ {version' cmd' rsv' d q rest},
          requestReader (x.held e) ≠ some (.request version' cmd' rsv' d q, rest) := by
        intro version' cmd' rsv' d q rest hr
        obtain ⟨_, _, _, atyp', d', addr, _, hs, hbs', -⟩ := requestReader_eq_some hr
        rw [hbs] at hbs'
        simp only [List.cons.injEq] at hbs'
        obtain ⟨-, -, -, rfl, -⟩ := hbs'
        exact hno d' addr hs
      have hname : atyp ≠ atypDomainName := by
        rintro rfl
        obtain ⟨d, addr, hs⟩ := spells_iff.mpr (.inr (.inr rfl))
        exact hno d addr hs
      have hr := replyAndClose_cases (hatyp atyp) hd .addressNotSupported (by decide)
      rw [hres]
      refine iff_of_true ⟨iff_of_false hr.1 ?_, fun _ => hr.2.mpr hname⟩
        fun version cmd rsv d q rest hr => absurd hr hread
      rintro ⟨rsv, d, q, rest, hr⟩
      exact hread hr
    · have hread : requestReader (x.held e) = some (.request version cmd rsv d q, rest) := by
        rw [hbs]
        exact requestReader_cons hs
      have hconnect : ConnectRequest (x.held e) ↔ version = 0x05 ∧ cmd = 0x01 :=
        connectRequest_iff hread
      have hfaulty : FaultyRequest (x.held e) ↔ ¬ (version = 0x05 ∧ cmd = 0x01) :=
        faultyRequest_iff hread
      have hkept : (∀ version' cmd' rsv' d' q' rest', requestReader (x.held e) =
          some (.request version' cmd' rsv' d' q', rest') → Treated e version' cmd' d') ↔
          Treated e version cmd d := by
        constructor
        · exact fun h => h _ _ _ _ _ _ hread
        · intro h _ _ _ _ _ _ heq
          cases hread.symm.trans heq
          exact h
      -- it is read whole, so that memory alone decides
      have hu : Unanswered x (((x.readClient e).setAtyp atyp).consume n hn) := ⟨rfl, hends, hroom⟩
      have hr := request_ends (e := e) hu hd (x.readClient e).c.originBuf cmd hs rfl
      dsimp only at hr
      rw [hconnect, hfaulty, hkept, hres, hr.1, hr.2]
      unfold Treated Env.allocates
      by_cases hcmd : cmd = 0x01
      · rw [if_pos hcmd]
        cases d.named <;> cases e.mallocAddrinfo <;> by_cases hv : version = 0x05 <;>
          simp [hcmd, hv]
      · simp [hcmd]

end

section
variable {id : ClientId} {c : Client}

/-- A client in `REQUEST` has no destination yet, and room for a reply. -/
theorem request_reachable (users : UserTable) (masters monitors : List ℤ) (evs : List Event)
    (hc : (exec step (boot users masters monitors) evs).heap id = some c)
    (hst : c.current = some .request) :
    Dest .request c ∧ c.activeEnds = clientEnds ∧ c.clientBuf.write + 10 ≤ c.clientBuf.limit := by
  have hstate := stmState_of_current hst
  have hd := (destined.reachable users masters monitors evs).live id c hc
  have hintact := (intact.reachable users masters monitors evs).live id c hc
  have hctl := (reachable_inv users masters monitors evs).live id c hc
  rw [hstate] at hd hintact
  rw [hst] at hctl
  have hearly := hintact.early 4 rfl
  refine ⟨hd, Alone.ends hctl, ?_⟩
  have hwrite := hearly.write
  have hlimit := hearly.limit
  unfold minSocksBuffsize at hlimit
  omega

/-- In every reachable state, `read_proxy_request` follows the grammar of CONNECT requests
when the whole requests it finds have version 5 or another command, are not for a name
unless they are CONNECT requests, and memory does not run out, and only then. -/
theorem request_grammar_iff (users : UserTable) (masters monitors : List ℤ) (evs : List Event)
    (e : Env) (hc : (exec step (boot users masters monitors) evs).heap id = some c)
    (hst : c.current = some .request) :
    FollowsGrammar ⟨id, c, (exec step (boot users masters monitors) evs).w⟩ e ↔
      GrammarKept ⟨id, c, (exec step (boot users masters monitors) evs).w⟩ e := by
  obtain ⟨hd, hends, hroom⟩ := request_reachable users masters monitors evs hc hst
  exact followsGrammar_iff (stmState_of_current hst) hd hends hroom

end

/-- A client that was greeted, and nothing of its request has come. -/
theorem greeted_client : ∃ c, (exec step (boot [] [] []) (greet 3)).heap 0 = some c ∧
    c.current = some .request ∧ bufferReadPtr c.originBuf = [] ∧ readSize c.originBuf = 2048 := by
  have hrun : ((exec step (boot [] [] []) (greet 3)).heap 0).map (fun c =>
      (c.current, bufferReadPtr c.originBuf, readSize c.originBuf)) =
        some (some .request, [], 2048) := by decide +kernel
  obtain ⟨c, hc, hall⟩ := Option.map_eq_some_iff.mp hrun
  simp only [Prod.mk.injEq] at hall
  exact ⟨c, hc, hall.1, hall.2.1, hall.2.2⟩

/-- What it then sends is what the handler finds. -/
theorem greeted_held {c : Client} {w : World} (bs : List UInt8)
    (hbuf : bufferReadPtr c.originBuf = []) (hsize : readSize c.originBuf = 2048)
    (hbs : bs ≠ []) (hlen : bs.length ≤ 2048) :
    Ctx.held ⟨0, c, w⟩ (.fine bs 3) = bs ∧ Ctx.eof ⟨0, c, w⟩ (.fine bs 3) = false := by
  have hbytes : (Env.fine bs 3).read.bytes (readSize c.originBuf) = bs := by
    rw [hsize]
    exact List.take_of_length_le hlen
  refine ⟨?_, ?_⟩
  · rw [Ctx.held_eq, hbuf, List.nil_append]
    exact hbytes
  · apply eof_of_bytes
    rwa [show (Env.fine bs 3).read.bytes (readSize c.originBuf) = bs from hbytes]

theorem connect_request_is_accepted :
    ∃ c, (exec step (boot [] [] []) (greet 3)).heap 0 = some c ∧
      Accepts (readProxyRequest (.fine connectRequest 3) c.clientSock
        ⟨0, c, (exec step (boot [] [] []) (greet 3)).w⟩) := by
  obtain ⟨c, hc, hst, hbuf, hsize⟩ := greeted_client
  refine ⟨c, hc, ?_⟩
  have h := request_grammar_iff [] [] [] (greet 3) (.fine connectRequest 3) hc hst
  obtain ⟨hheld, heof⟩ := greeted_held (w := (exec step (boot [] [] []) (greet 3)).w) connectRequest
    hbuf hsize (by decide) (by decide)
  unfold FollowsGrammar GrammarKept at h
  rw [heof, hheld, if_neg Bool.false_ne_true] at h
  refine ((h.mpr ?_).1).mpr ⟨0, .ipv4 [127, 0, 0, 1], (0, 80), [], rfl⟩
  intro version cmd rsv d q rest hr
  cases hr
  unfold Treated
  decide

/-- A request of version 4 is accepted, and a BIND request for a name ends the process. -/
theorem faulty_requests_are_not_refused :
    ∃ c, (exec step (boot [] [] []) (greet 3)).heap 0 = some c ∧ c.current = some .request ∧
      ¬ FollowsGrammar ⟨0, c, (exec step (boot [] [] []) (greet 3)).w⟩
        (.fine [4, 1, 0, 1, 127, 0, 0, 1, 0, 80] 3) ∧
      ¬ FollowsGrammar ⟨0, c, (exec step (boot [] [] []) (greet 3)).w⟩
        (.fine [5, 2, 0, 3, 1, 0x61, 0, 80] 3) := by
  obtain ⟨c, hc, hst, hbuf, hsize⟩ := greeted_client
  obtain ⟨hd, hends, hroom⟩ := request_reachable [] [] [] (greet 3) hc hst
  have hbad : ∀ bs version cmd rsv d q, bs ≠ [] → bs.length ≤ 2048 →
      requestReader bs = some (.request version cmd rsv d q, []) →
      ¬ Treated (.fine bs 3) version cmd d →
      ¬ FollowsGrammar ⟨0, c, (exec step (boot [] [] []) (greet 3)).w⟩ (.fine bs 3) := by
    intro bs version cmd rsv d q hbs hlen hr hno hf
    rw [followsGrammar_iff (stmState_of_current hst) hd hends hroom] at hf
    obtain ⟨hheld, heof⟩ :=
      greeted_held (w := (exec step (boot [] [] []) (greet 3)).w) bs hbuf hsize hbs hlen
    unfold GrammarKept at hf
    rw [heof, hheld, if_neg Bool.false_ne_true] at hf
    exact hno (hf _ _ _ _ _ _ hr)
  refine ⟨c, hc, hst, ?_, ?_⟩
  · refine hbad _ 4 1 0 (.ipv4 [127, 0, 0, 1]) (0, 80) (by decide) (by decide) rfl ?_
    unfold Treated
    decide
  · refine hbad _ 5 2 0 (.domainName [0x61]) (0, 80) (by decide) (by decide) rfl ?_
    unfold Treated
    decide

end Socks5d
