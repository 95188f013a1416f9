import Socks5d.Control

/-! # Handlers keep state and registrations in step -/

namespace Socks5d

variable {x y z : Ctx} {e : Env} {fd : ℤ} {r : Ctx × Socks5State} {i m : FdInterest}

/-! ## Steps that only move bytes -/

/-- `y` differs from `x` at most in buffers, in the log and in what is known of
the destination. -/
structure Still (x y : Ctx) : Prop where
  id_eq : y.id = x.id
  clientSock_eq : y.c.clientSock = x.c.clientSock
  originSock_eq : y.c.originSock = x.c.originSock
  ends_eq : y.c.activeEnds = x.c.activeEnds
  current_eq : y.c.current = x.c.current
  selector_eq : y.w.selector = x.w.selector
  fdTable_eq : y.w.fdTable = x.w.fdTable
  nextSock_eq : y.w.nextSock = x.w.nextSock

theorem Still.trans (h : Still x y) (h' : Still y z) : Still x z where
  id_eq := h'.id_eq.trans h.id_eq
  clientSock_eq := h'.clientSock_eq.trans h.clientSock_eq
  originSock_eq := h'.originSock_eq.trans h.originSock_eq
  ends_eq := h'.ends_eq.trans h.ends_eq
  current_eq := h'.current_eq.trans h.current_eq
  selector_eq := h'.selector_eq.trans h.selector_eq
  fdTable_eq := h'.fdTable_eq.trans h.fdTable_eq
  nextSock_eq := h'.nextSock_eq.trans h.nextSock_eq

theorem Still.refl (x : Ctx) : Still x x := ⟨rfl, rfl, rfl, rfl, rfl, rfl, rfl, rfl⟩

theorem Still.log {o : Obs} : Still x (x.log o) := ⟨rfl, rfl, rfl, rfl, rfl, rfl, rfl, rfl⟩

theorem Still.readClient : Still x (x.readClient e) := ⟨rfl, rfl, rfl, rfl, rfl, rfl, rfl, rfl⟩

theorem Still.readOrigin : Still x (x.readOrigin e) := ⟨rfl, rfl, rfl, rfl, rfl, rfl, rfl, rfl⟩

theorem Still.writeClient : Still x (x.writeClient e) := ⟨rfl, rfl, rfl, rfl, rfl, rfl, rfl, rfl⟩

theorem Still.writeOrigin : Still x (x.writeOrigin e) := ⟨rfl, rfl, rfl, rfl, rfl, rfl, rfl, rfl⟩

theorem Still.consume {n : ℕ} {hn : n ≤ x.c.originBuf.write - x.c.originBuf.read} :
    Still x (x.consume n hn) := ⟨rfl, rfl, rfl, rfl, rfl, rfl, rfl, rfl⟩

theorem Still.simpleReply {v m : UInt8} : Still x (simpleReply x v m) :=
  ⟨rfl, rfl, rfl, rfl, rfl, rfl, rfl, rfl⟩

theorem Still.putReply {reply : ServerReplyType} {atyp : Atyp} {addr : List UInt8} {port : Port} :
    Still x (putReply x reply atyp addr port) := ⟨rfl, rfl, rfl, rfl, rfl, rfl, rfl, rfl⟩

theorem Still.failReply {reply : ServerReplyType} : Still x (failReply x reply) := .putReply

theorem Still.addBytes {n : ℤ} : Still x (x.addBytes n) := ⟨rfl, rfl, rfl, rfl, rfl, rfl, rfl, rfl⟩

theorem Still.setAtyp {a : UInt8} : Still x (x.setAtyp a) :=
  ⟨rfl, rfl, rfl, rfl, rfl, rfl, rfl, rfl⟩

theorem Still.setUser {u : List UInt8} : Still x (x.setUser u) :=
  ⟨rfl, rfl, rfl, rfl, rfl, rfl, rfl, rfl⟩

theorem Still.setAddr {a : CurrAddr} : Still x (x.setAddr a) :=
  ⟨rfl, rfl, rfl, rfl, rfl, rfl, rfl, rfl⟩

theorem Still.setDest {f : List UInt8} {p : Port} : Still x (x.setDest f p) :=
  ⟨rfl, rfl, rfl, rfl, rfl, rfl, rfl, rfl⟩

theorem Still.setParser {p : Option Pop3Parser} : Still x (x.setParser p) :=
  ⟨rfl, rfl, rfl, rfl, rfl, rfl, rfl, rfl⟩

theorem Still.stmState (h : Still x y) : stmState y.c = stmState x.c := by
  rw [Socks5d.stmState, h.current_eq]
  rfl

theorem Still.alone (hs : Still x y) (h : Alone x.id x.c x.w.selector i m) :
    Alone y.id y.c y.w.selector i m := by
  refine ⟨hs.ends_eq.trans h.ends, hs.originSock_eq.trans h.origin, ?_, ?_⟩
  · rw [hs.id_eq, hs.selector_eq, hs.clientSock_eq]
    exact h.only
  · rw [hs.id_eq, hs.selector_eq, hs.clientSock_eq]
    exact h.held

/-! ## Before there is an origin -/

/-- A handler either stays in its state or has prepared the next one. -/
def Next (r : Ctx × Socks5State) : Prop :=
  (r.1.c.current = some r.2 ∧ Ctl r.1.id r.1.c r.1.w.selector (some r.2)) ∨
  (r.1.c.current ≠ some r.2 ∧ Ready r.1.id r.1.c r.1.w.selector r.2)

/-- The selector knows nothing of the client but its own socket. -/
structure Solo (x : Ctx) : Prop where
  ends : x.c.activeEnds = clientEnds
  only : OnlyAt (.socks5 x.id) x.w.selector [x.c.clientSock]
  held : ∃ i m, Held (.socks5 x.id) x.w.selector x.c.clientSock i m

theorem Alone.solo (h : Alone x.id x.c x.w.selector i m) : Solo x := ⟨h.ends, h.only, i, m, h.held⟩

theorem Still.solo (hs : Still x y) (h : Solo x) : Solo y := by
  refine ⟨hs.ends_eq.trans h.ends, ?_, ?_⟩
  · rw [hs.id_eq, hs.selector_eq, hs.clientSock_eq]
    exact h.only
  · rw [hs.id_eq, hs.selector_eq, hs.clientSock_eq]
    exact h.held

theorem closeClient_id (x : Ctx) (level : SocketEnds) : (closeClient x level).1.id = x.id :=
  (closeClient_closes x level).id_eq

/-- The reading end closes before there is an origin. -/
theorem Solo.hangup (h : Solo x) (hcur : x.c.current ≠ some .writeRemaining) :
    Next (closeClient x clientReadEnd) := by
  obtain ⟨i, m, hheld⟩ := h.held
  have hcw : x.c.activeEnds.clientWrite = true := by rw [h.ends]; rfl
  have hcr : x.c.activeEnds.clientRead = true := by rw [h.ends]; rfl
  rw [closeClient_clientRead hcw hcr, closeEnds_clientRead hcw, closeState, if_neg]
  swap
  · simp [Ctx.setEnds, h.ends, clientEnds]
  refine .inr ⟨hcur, .inl ⟨?_, ?_, (i &&& ~~~opRead).write, m, ?_⟩⟩
  · simp [Ctx.setEnds, h.ends, clientEnds, clientWriteEnd]
  · exact h.only.updateItem (fun _ => rfl) (fun _ => rfl)
  · have hrem := hheld.removeInterest (a := opRead)
    have hi : (i &&& ~~~opRead) = ⟨false, (i &&& ~~~opRead).write⟩ := by
      rcases i with ⟨ir, iw⟩
      simp [HAnd.hAnd, AndOp.and, Complement.complement, opRead]
    rw [hi] at hrem
    exact hrem

/-- The same after bytes were moved. -/
theorem Solo.hangup_of_still (h : Solo x) (hs : Still x y)
    (hcur : x.c.current ≠ some .writeRemaining) : Next (closeClient y clientReadEnd) :=
  (hs.solo h).hangup (by rw [hs.current_eq]; exact hcur)

theorem Alone.expectWrite (h : Alone x.id x.c x.w.selector i m) :
    Alone x.id (expectWrite x).c (expectWrite x).w.selector (i ||| opWrite) (m ||| opWrite) :=
  ⟨h.ends, h.origin, h.only.updateItem (fun _ => rfl) (fun _ => rfl), h.held.addInterest⟩

/-! ## The handshake -/

theorem Next.stay {st : Socks5State} (hs : Still x y) (hcur : x.c.current = some st)
    (h : Ctl y.id y.c y.w.selector (some st)) : Next (y, stmState x.c) := by
  have hst : stmState x.c = st := by rw [stmState, hcur]; rfl
  rw [hst]
  exact .inl ⟨hs.current_eq.trans hcur, h⟩

/-- A reply is left to be written and the client may go on sending. -/
theorem Next.expect {st : Socks5State} (h : Alone x.id x.c x.w.selector i opRead) (hs : Still x y)
    (hi : i ||| opWrite = ⟨true, true⟩) (hst : st = .request ∨ st = .plainAuth)
    (hcur : x.c.current ≠ some st) : Next (expectWrite y, st) := by
  have ha := (hs.alone h).expectWrite
  rw [hi] at ha
  refine .inr ⟨?_, ?_⟩
  · rw [show (expectWrite y).c.current = x.c.current from hs.current_eq]
    exact hcur
  · have hctl : Alone y.id (expectWrite y).c (expectWrite y).w.selector ⟨true, true⟩ opRead :=
      ⟨ha.ends, ha.origin, ha.only, ha.held.mono FdInterest.le_or⟩
    rcases hst with rfl | rfl <;> exact hctl

theorem readAuthMethod_next (h : Alone x.id x.c x.w.selector opRead opRead)
    (hcur : x.c.current = some .authMethod) (hr : readAuthMethod e fd x = .ok r) : Next r := by
  have hwr : ∀ st, st ≠ .authMethod → x.c.current ≠ some st := by
    intro st hst
    rw [hcur]
    simpa using Ne.symm hst
  rcases readAuthMethod_cases hr with rfl | rfl | ⟨n, hn, v, ms, rfl⟩
  · exact h.solo.hangup_of_still .readClient (hwr _ (by decide))
  · exact .stay .readClient hcur (Still.readClient.alone h)
  have hs : Still x ((x.readClient e).consume n hn) := Still.readClient.trans .consume
  rcases answerGreeting_cases ((x.readClient e).consume n hn) v ms with
    hg | ⟨-, -, -, hg⟩ | ⟨-, -, hg⟩
  · rw [hg]
    exact h.solo.hangup_of_still ((hs.trans .log).trans .simpleReply) (hwr _ (by decide))
  · rw [hg]
    exact .expect h ((hs.trans .log).trans .simpleReply) rfl (.inl rfl) (hwr _ (by decide))
  · rw [hg]
    exact .expect h ((hs.trans .log).trans .simpleReply) rfl (.inr rfl) (hwr _ (by decide))

theorem readPlainAuth_next (h : Alone x.id x.c x.w.selector ⟨true, true⟩ opRead)
    (hcur : x.c.current = some .plainAuth) (hr : readPlainAuth e fd x = .ok r) : Next r := by
  have hwr : ∀ st, st ≠ .plainAuth → x.c.current ≠ some st := by
    intro st hst
    rw [hcur]
    simpa using Ne.symm hst
  rcases readPlainAuth_cases hr with rfl | rfl | ⟨n, hn, v, user, pass, rfl⟩
  · exact h.solo.hangup_of_still .readClient (hwr _ (by decide))
  · exact .stay .readClient hcur (Still.readClient.alone h)
  have hs : Still x ((x.readClient e).consume n hn) := Still.readClient.trans .consume
  have hu := hs.trans (.setUser (u := cString user))
  rcases answerCredentials_cases ((x.readClient e).consume n hn) v user pass with
    hg | ⟨-, hg⟩ | ⟨-, hg⟩
  · rw [hg]
    exact h.solo.hangup_of_still (hs.trans .simpleReply) (hwr _ (by decide))
  · rw [hg]
    exact .expect h ((hu.trans .log).trans .simpleReply) rfl (.inl rfl) (hwr _ (by decide))
  · rw [hg]
    exact h.solo.hangup_of_still ((hu.trans .log).trans .simpleReply) (hwr _ (by decide))

theorem startRequest_next {b : Buffer} {a : UInt8} {n : ℕ}
    (h : Alone x.id x.c x.w.selector ⟨true, true⟩ opRead) (hcur : x.c.current = some .request)
    (hr : startRequest e b a n x = .ok r) : Next r := by
  have hy : Alone x.id x.c (selectorRemoveInterest x.w.selector x.c.clientSock opRead).1
      opWrite opRead :=
    ⟨h.ends, h.origin, h.only.updateItem (fun _ => rfl) (fun _ => rfl), h.held.removeInterest⟩
  generalize hx' : x.sel (selectorRemoveInterest x.w.selector x.c.clientSock opRead) = x'
  have hcur' : x'.c.current = some .request := by rw [← hx']; exact hcur
  have hy' : Alone x'.id x'.c x'.w.selector opWrite opRead := by rw [← hx']; exact hy
  have hwr : ∀ st, st ≠ .request → x'.c.current ≠ some st := by
    intro st hst
    rw [hcur']
    simpa using Ne.symm hst
  have hcases := startRequest_cases hr
  rw [hx'] at hcases
  rcases hcases with ⟨addr, -, -, rfl⟩ | ⟨fqdn, port, -, rfl⟩ | ⟨a, -, rfl⟩
  · exact hy'.solo.hangup_of_still (Still.setAddr.trans .putReply) (hwr _ (by decide))
  · exact .inr ⟨hwr .resolving (by decide), Still.setDest.alone hy'⟩
  · exact .inr ⟨hwr .connecting (by decide), Still.setAddr.alone hy'⟩

theorem readProxyRequest_next (h : Alone x.id x.c x.w.selector ⟨true, true⟩ opRead)
    (hcur : x.c.current = some .request) (hr : readProxyRequest e fd x = .ok r) : Next r := by
  have hwr : x.c.current ≠ some .writeRemaining := by rw [hcur]; simp
  rcases readProxyRequest_cases hr with ⟨a, rfl⟩ | ⟨a, reply, -, rfl⟩ | ⟨a, n, hn, reply, -, rfl⟩ |
    ⟨a, n, k, hn, hs⟩
  · have hs : Still x ((x.readClient e).setAtyp a) := Still.readClient.trans .setAtyp
    exact .stay hs hcur (hs.alone h)
  · exact h.solo.hangup_of_still ((Still.readClient.trans .setAtyp).trans .putReply) hwr
  · exact h.solo.hangup_of_still
      (((Still.readClient.trans .setAtyp).trans .consume).trans .putReply) hwr
  · have hst : Still x (((x.readClient e).setAtyp a).consume n hn) :=
      (Still.readClient.trans .setAtyp).trans .consume
    exact startRequest_next (hst.alone h) (hst.current_eq.trans hcur) hs

/-! ## Connecting -/

/-- Between two attempts the client socket waits and nothing else is registered. -/
structure Waiting (x : Ctx) : Prop where
  ends : x.c.activeEnds = clientEnds
  only : OnlyAt (.socks5 x.id) x.w.selector [x.c.clientSock]
  held : Held (.socks5 x.id) x.w.selector x.c.clientSock opNoop ⟨true, true⟩
  current : x.c.current = some .connecting
  cap : itemsMaxSize ≤ x.w.selector.fdSize

theorem Waiting.refuse {reply : ServerReplyType} (h : Waiting x) (hid : y.id = x.id)
    (hcs : y.c.clientSock = x.c.clientSock) (he : y.c.activeEnds = x.c.activeEnds)
    (hcur : y.c.current = x.c.current) (hsel : y.w.selector = x.w.selector) :
    Next (closeClient (failReply y reply) clientReadEnd) := by
  have hs : Solo y := by
    refine ⟨he.trans h.ends, ?_, opNoop, ⟨true, true⟩, ?_⟩
    · rw [hid, hsel, hcs]
      exact h.only
    · rw [hid, hsel, hcs]
      exact h.held
  refine hs.hangup_of_still .failReply ?_
  rw [hcur, h.current]
  simp

theorem connectTo_next (h : Waiting x) (hr : connectTo e fd x = .ok r) : Next r := by
  rcases connectTo_cases hr with ⟨err, -, -, rfl⟩ | ⟨-, -, -, rfl⟩ | ⟨-, hok, rfl⟩
  · exact h.refuse rfl rfl rfl rfl rfl
  · refine h.refuse (x := x) ?_ ?_ ?_ ?_ ?_
    · exact (Closes.close (x := (x.setOrigin fd).openSock fd)).id_eq
    · rw [close_c]; rfl
    · rw [close_c]; rfl
    · rw [close_c]; rfl
    · rw [close_selector]; rfl
  · rcases register_cases fd true opWrite (Handler.socks5 x.id) h.cap with
      ⟨hno, -⟩ | ⟨-, hv, hnone, -, hit⟩
    · exact absurd hok hno
    obtain ⟨it, hc, hd, hi, hm⟩ := h.held
    have hne : x.c.clientSock ≠ fd := by
      intro heq
      rw [← heq, hc] at hnone
      cases hnone
    refine .inl ⟨h.current, .inr ⟨h.ends, hne, ?_, ?_, ?_⟩⟩
    · refine (h.only.register fd opWrite true h.cap).subset ?_
      intro f hf
      simp only [List.mem_cons, List.not_mem_nil, or_false] at hf ⊢
      exact hf.symm
    · exact ⟨it, (hit x.c.clientSock).trans ((if_neg hne).trans hc), hd, hi, hm⟩
    · exact ⟨newItem fd opWrite (.socks5 x.id), (hit _).trans (if_pos rfl), rfl, rfl,
        FdInterest.le_refl _⟩

theorem tryConnect_next (h : Waiting x) (hr : tryConnect e x = .ok r) : Next r := by
  obtain ⟨-, -, ⟨-, -, rfl⟩ | ⟨fd, -, hc⟩⟩ := tryConnect_cases hr
  · exact h.refuse rfl rfl rfl rfl rfl
  · exact connectTo_next h hc

theorem joinOrigin_joined
    (hj : Joined x.id x.c x.w.selector opNoop ⟨true, true⟩ opWrite ⟨true, true⟩) :
    Joined x.id (joinOrigin x).c (joinOrigin x).w.selector ⟨true, true⟩ ⟨true, true⟩ ⟨true, true⟩
      ⟨true, true⟩ := by
  generalize hs : (selectorSetInterest x.w.selector x.c.originSock ⟨true, true⟩).1 = s
  have hon : OnlyAt (.socks5 x.id) s [x.c.clientSock, x.c.originSock] := by
    rw [← hs]
    exact hj.only.updateItem (fun _ => rfl) (fun _ => rfl)
  have hc : Held (.socks5 x.id) s x.c.clientSock opNoop ⟨true, true⟩ := by
    rw [← hs]
    exact hj.client.updateItem_ne hj.ne fun _ => rfl
  have ho : Held (.socks5 x.id) s x.c.originSock ⟨true, true⟩ ⟨true, true⟩ := by
    rw [← hs]
    exact hj.origin.setInterest
  have hsel : (joinOrigin x).w.selector =
      (selectorSetInterest s x.c.clientSock ⟨true, true⟩).1 := by
    rw [← hs]
    rfl
  rw [hsel]
  refine ⟨hj.ne, ?_, hc.setInterest, ?_⟩
  · exact hon.updateItem (fun _ => rfl) (fun _ => rfl)
  · exact ho.updateItem_ne (Ne.symm hj.ne) fun _ => rfl

/-- The relay starts with everything asked for and nothing masked. -/
theorem Joined.relaying (hj : Joined x.id x.c x.w.selector ⟨true, true⟩ ⟨true, true⟩ ⟨true, true⟩
    ⟨true, true⟩) (he : x.c.activeEnds = ⟨true, true, true, true⟩) (hs : Still x y) :
    Relaying y.id y.c y.w.selector := by
  have hey := hs.ends_eq.trans he
  have hne : y.c.clientSock ≠ y.c.originSock := by
    rw [hs.clientSock_eq, hs.originSock_eq]
    exact hj.ne
  have hon : OnlyAt (.socks5 y.id) y.w.selector [y.c.clientSock, y.c.originSock] := by
    rw [hs.id_eq, hs.selector_eq, hs.clientSock_eq, hs.originSock_eq]
    exact hj.only
  refine ⟨by rw [hey], by rw [hey]; exact id, .inl (by rw [hey]), hne, hon, ?_, ?_⟩
  · rw [hey, hs.id_eq, hs.selector_eq, hs.clientSock_eq]
    exact hj.client.mono (FdInterest.le_all _)
  · rw [hey, hs.id_eq, hs.selector_eq, hs.originSock_eq]
    exact hj.origin.mono (FdInterest.le_all _)

theorem originCheckConnection_next (h : Connecting x.id x.c x.w.selector)
    (hcur : x.c.current = some .connecting) (hcap : itemsMaxSize ≤ x.w.selector.fdSize)
    (hfd : ∃ i m, Held (.socks5 x.id) x.w.selector fd i m ∧ i.write = true)
    (hr : originCheckConnection e fd x = .ok r) : Next r := by
  obtain ⟨i, m, hheld, hiw⟩ := hfd
  rcases h with ha | ⟨hends, hj⟩
  · -- no attempt yet: the event is for the client socket
    obtain rfl : fd = x.c.clientSock := by simpa using hheld.mem ha.only
    have hy : Waiting (x.sel (selectorRemoveInterest x.w.selector x.c.clientSock opWrite)) := by
      refine ⟨ha.ends, ha.only.updateItem (fun _ => rfl) (fun _ => rfl), ?_, hcur, ?_⟩
      · exact ha.held.removeInterest
      · rw [show
          (x.sel (selectorRemoveInterest x.w.selector x.c.clientSock opWrite)).w.selector.fdSize
          = x.w.selector.fdSize from updateItem_fdSize]
        exact hcap
    rcases originCheckConnection_cases hr with
      ⟨-, -, -, rfl⟩ | ⟨-, ht⟩ | ⟨hne, -⟩ | ⟨hne, -⟩
    · exact hy.refuse rfl rfl rfl rfl rfl
    · exact tryConnect_next hy ht
    · exact absurd rfl hne
    · exact absurd rfl hne
  · -- an attempt is under way: the client socket asks for nothing
    have hne : fd ≠ x.c.clientSock := by
      rintro rfl
      obtain ⟨it, hit, -, hi, -⟩ := hheld
      rw [← hi, hj.client.interest_eq hit] at hiw
      cases hiw
    rcases originCheckConnection_cases hr with
      ⟨hc, -⟩ | ⟨hc, -⟩ | ⟨-, -, a, hp⟩ | ⟨-, err, next, -, hn⟩
    · exact absurd hc hne
    · exact absurd hc hne
    · obtain ⟨-, p, rfl⟩ := enterProxy_ok hp
      have he : (joinOrigin x).c.activeEnds = ⟨true, true, true, true⟩ := by
        change x.c.activeEnds ||| originEnds = _
        rw [hends]
        rfl
      have hcur' : (joinOrigin x).c.current = some .connecting := hcur
      have hjoin := joinOrigin_joined hj
      have hs : Still (joinOrigin x) ((putReply (joinOrigin x) .succeeded a.family.atyp e.sockname.1
          e.sockname.2).setParser p) := Still.putReply.trans .setParser
      refine .inr ⟨?_, hjoin.relaying he hs⟩
      rw [hs.current_eq, hcur']
      simp
    · have hy : Waiting (x.sel (selectorUnregisterFd x.w.selector x.c.originSock)) := by
        refine ⟨hends, ?_, hj.client.unregister_ne hj.ne, hcur, ?_⟩
        · refine (hj.only.unregister x.c.originSock).subset ?_
          simp [hj.ne, Ctx.sel]
        · rw [show (x.sel (selectorUnregisterFd x.w.selector x.c.originSock)).w.selector.fdSize
            = x.w.selector.fdSize from unregister_fdSize]
          exact hcap
      rcases nextAddress_cases hn with ⟨a, rest, ht⟩ | ⟨reply, -, rfl⟩
      · refine tryConnect_next ?_ ht
        exact ⟨hy.ends, hy.only, hy.held, hy.current, hy.cap⟩
      · exact hy.refuse rfl rfl rfl rfl rfl

/-! ## Relaying -/

theorem readFromSock_canWrite {rr : ReadResult} {b : Buffer}
    (h : bufferCanWrite (readFromSock rr b).1 = true) : bufferCanWrite b = true := by
  have hlt : b.write + (rr.bytes (readSize b)).length < b.limit := of_decide_eq_true h
  exact decide_eq_true (Nat.lt_of_le_of_lt (Nat.le_add_right _ _) hlt)

theorem writeToSock_canRead {s : SendResult} {b : Buffer}
    (h : bufferCanRead (writeToSock s b).1 = true) : bufferCanRead b = true := by
  cases s with
  | sent n =>
    rw [bufferCanRead_iff] at h ⊢
    intro hnil
    refine h ?_
    simp only [writeToSock, bufferReadAdv_readPtr, hnil, List.drop_nil]
  | again => exact h
  | error => exact h

/-- Moving bytes does not matter for closing, as long as no buffer gets room. -/
theorem Still.closing (hs : Still x y) (h : Closing x.id x.c x.w.selector)
    (ho : bufferCanWrite y.c.originBuf = true → bufferCanWrite x.c.originBuf = true)
    (hc : bufferCanWrite y.c.clientBuf = true → bufferCanWrite x.c.clientBuf = true) :
    Closing y.id y.c y.w.selector := by
  obtain ⟨w, m, hheld, hm⟩ := h.client
  refine ⟨hs.ends_eq ▸ h.clientWrite, ⟨w, m, ?_, ?_⟩, ?_, ?_⟩
  · rw [hs.id_eq, hs.selector_eq, hs.clientSock_eq, hs.ends_eq]
    exact hheld
  · rw [hs.ends_eq]
    intro hroom
    rw [Bool.and_eq_true] at hroom hm
    exact hm ⟨hroom.1, ho hroom.2⟩
  · rw [hs.id_eq, hs.selector_eq, hs.clientSock_eq, hs.originSock_eq, hs.ends_eq]
    intro hact
    obtain ⟨hne, hon, w', m', ho', hw', hm'⟩ := h.origin hact
    refine ⟨hne, hon, w', m', ho', hw', ?_⟩
    intro hroom
    rw [Bool.and_eq_true] at hroom hm'
    exact hm' ⟨hroom.1, hc hroom.2⟩
  · rw [hs.id_eq, hs.selector_eq, hs.clientSock_eq, hs.ends_eq]
    exact h.only

theorem Next.of_state (hcur : x.c.current = some .proxy) {r : Ctx × Socks5State}
    (hc : Closes x r.1)
    (h : (r.2 = stmState x.c ∧ Relaying x.id r.1.c r.1.w.selector) ∨
      (r.2 = .writeRemaining ∧ Ready x.id r.1.c r.1.w.selector .writeRemaining)) : Next r := by
  have hcur' : r.1.c.current = some .proxy := by rw [hc.c_eq]; exact hcur
  have hst : stmState x.c = .proxy := by rw [stmState, hcur]; rfl
  rcases h with ⟨hr, hrel⟩ | ⟨hr, hready⟩
  · refine .inl ⟨by rw [hr, hst, hcur'], ?_⟩
    rw [hr, hst, hc.id_eq]
    exact hrel
  · refine .inr ⟨by rw [hr, hcur']; simp, ?_⟩
    rw [hr, hc.id_eq]
    exact hready

theorem Closing.close_clientRead (h : Closing x.id x.c x.w.selector)
    (hcur : x.c.current = some .proxy) (hcr : x.c.activeEnds.clientRead = true) :
    Next (closeClient x clientReadEnd) := by
  refine .of_state hcur (closeClient_closes _ _) ?_
  rw [closeClient_clientRead h.clientWrite hcr]
  have hc : Closes x (closeEnds clientReadEnd x) := .closeEnds
  have hst := stmState_closes hc
  have hid := hc.id_eq
  rw [← hst, ← hid]
  refine Closing.state ?_ ?_
  · rw [hid]
    exact h.clientRead
  · simp [clientReadEnd]

theorem Closing.close_originRead (h : Closing x.id x.c x.w.selector)
    (hcur : x.c.current = some .proxy) (hor : x.c.activeEnds.originRead = true)
    (how : x.c.activeEnds.clientRead = true → x.c.activeEnds.originWrite = true) :
    Next (closeClient x originReadEnd) := by
  refine .of_state hcur (closeClient_closes _ _) ?_
  rw [closeClient_originRead h.clientWrite hor]
  have hc : Closes x (closeEnds originReadEnd x) := .closeEnds
  have hst := stmState_closes hc
  have hid := hc.id_eq
  rw [← hst, ← hid]
  refine Closing.state ?_ ?_
  · rw [hid]
    exact h.originRead hor
  · simpa [originReadEnd] using how

/-- Closing `ORIGIN_WRITE` closes `CLIENT_READ` too. -/
theorem Closing.close_originWrite (h : Closing x.id x.c x.w.selector)
    (hcur : x.c.current = some .proxy) (how : x.c.activeEnds.originWrite = true) :
    Next (closeClient x originWriteEnd) := by
  have hc : Closes x (closeEnds originWriteEnd x) := .closeEnds
  have hy : Closing (closeEnds originWriteEnd x).id (closeEnds originWriteEnd x).c
      (closeEnds originWriteEnd x).w.selector := by
    rw [hc.id_eq]
    exact h.originWrite how
  have hcur' : (closeEnds originWriteEnd x).c.current = some .proxy := by
    rw [hc.c_eq]
    exact hcur
  rw [closeClient_originWrite how]
  by_cases hcr : (closeEnds originWriteEnd x).c.activeEnds.clientRead = true
  · exact hy.close_clientRead hcur' hcr
  · rw [Bool.not_eq_true] at hcr
    refine .of_state hcur' (closeClient_closes _ _) ?_
    rw [closeClient_idle hy.clientWrite hcr]
    refine hy.state ?_
    rw [hcr]
    simp

/-- Closing `CLIENT_WRITE` leaves no registration. -/
theorem Next.closeAll (hcw : x.c.activeEnds.clientWrite = true)
    (hon : OnlyAt (.socks5 x.id) x.w.selector
      (if x.c.activeEnds.originWrite || x.c.activeEnds.originRead then
        [x.c.clientSock, x.c.originSock] else [x.c.clientSock]))
    (hs : Still x y) (hcur : x.c.current ≠ some .done) : Next (closeClient y clientWriteEnd) := by
  have hall := closeClient_all (x := y) (d := .socks5 y.id) (by rw [hs.ends_eq]; exact hcw) (by
    rw [hs.id_eq, hs.selector_eq, hs.clientSock_eq, hs.originSock_eq, hs.ends_eq]
    exact hon)
  refine .inr ⟨?_, ?_⟩
  · rw [hall.1, (closeClient_closes _ _).c_eq]
    exact hs.current_eq ▸ hcur
  · rw [hall.1, closeClient_id]
    exact hall.2

theorem Closing.only_active {id : ClientId} {c : Client} {s : FdSelector Handler}
    (h : Closing id c s) : OnlyAt (.socks5 id) s
      (if c.activeEnds.originWrite || c.activeEnds.originRead then [c.clientSock, c.originSock]
        else [c.clientSock]) := by
  split_ifs with hact
  · exact (h.origin hact).2.1
  · exact h.only (by simpa using hact)

section
variable {a : FdInterest}

theorem Relaying.mask_client (h : Relaying x.id x.c x.w.selector)
    (hm : clientMask x.c ≤ clientMask x.c &&& ~~~a) :
    Relaying x.id x.c (selectorMaskInterest x.w.selector x.c.clientSock a).1 := by
  have hj := h.joined
  refine ⟨h.clientWrite, h.originWrite, h.readable, hj.ne, ?_, hj.client.maskInterest.mono hm, ?_⟩
  · exact hj.only.updateItem (fun _ => rfl) (fun _ => rfl)
  · exact hj.origin.updateItem_ne (Ne.symm hj.ne) fun _ => rfl

theorem Relaying.mask_origin (h : Relaying x.id x.c x.w.selector)
    (hm : originMask x.c ≤ originMask x.c &&& ~~~a) :
    Relaying x.id x.c (selectorMaskInterest x.w.selector x.c.originSock a).1 := by
  have hj := h.joined
  refine ⟨h.clientWrite, h.originWrite, h.readable, hj.ne, ?_, ?_, hj.origin.maskInterest.mono hm⟩
  · exact hj.only.updateItem (fun _ => rfl) (fun _ => rfl)
  · exact hj.client.updateItem_ne hj.ne fun _ => rfl

/-- Moving bytes, when the masks cover what the new buffers need. -/
theorem Still.relaying {mc mo : FdInterest} {s : FdSelector Handler} (hs : Still x y)
    (h : Relaying x.id x.c x.w.selector)
    (hj : Joined x.id x.c s ⟨x.c.activeEnds.clientRead, true⟩ mc
      ⟨x.c.activeEnds.originRead, x.c.activeEnds.originWrite⟩ mo)
    (hc : clientMask y.c ≤ mc) (ho : originMask y.c ≤ mo) : Relaying x.id y.c s := by
  refine ⟨?_, ?_, ?_, ?_, ?_, ?_, ?_⟩
  · rw [hs.ends_eq]
    exact h.clientWrite
  · rw [hs.ends_eq]
    exact h.originWrite
  · rw [hs.ends_eq]
    exact h.readable
  · rw [hs.clientSock_eq, hs.originSock_eq]
    exact hj.ne
  · rw [hs.clientSock_eq, hs.originSock_eq]
    exact hj.only
  · rw [hs.clientSock_eq, hs.ends_eq]
    exact hj.client.mono hc
  · rw [hs.originSock_eq, hs.ends_eq]
    exact hj.origin.mono ho

theorem Relaying.unmask_origin (h : Relaying x.id x.c x.w.selector) (hs : Still x y)
    (hc : clientMask y.c ≤ clientMask x.c) (ho : originMask y.c ≤ originMask x.c ||| a) :
    Relaying x.id y.c (selectorUnmaskInterest x.w.selector x.c.originSock a).1 := by
  have hj := h.joined
  refine hs.relaying h ⟨hj.ne, ?_, hj.client.unmask_any, hj.origin.unmaskInterest⟩ hc ho
  exact hj.only.updateItem (fun _ => rfl) (fun _ => rfl)

theorem Relaying.unmask_client (h : Relaying x.id x.c x.w.selector) (hs : Still x y)
    (hc : clientMask y.c ≤ clientMask x.c ||| a) (ho : originMask y.c ≤ originMask x.c) :
    Relaying x.id y.c (selectorUnmaskInterest x.w.selector x.c.clientSock a).1 := by
  have hj := h.joined
  refine hs.relaying h ⟨hj.ne, ?_, hj.client.unmaskInterest, hj.origin.unmask_any⟩ hc ho
  exact hj.only.updateItem (fun _ => rfl) (fun _ => rfl)

end

/-- The bits of an event's descriptor say which end is active. -/
theorem Relaying.fd_cases (h : Relaying x.id x.c x.w.selector)
    (hheld : Held (.socks5 x.id) x.w.selector fd i m) :
    (fd = x.c.clientSock ∧ i = ⟨x.c.activeEnds.clientRead, true⟩) ∨
    (fd = x.c.originSock ∧ i = ⟨x.c.activeEnds.originRead, x.c.activeEnds.originWrite⟩) := by
  have hmem := hheld.mem h.joined.only
  simp only [List.mem_cons, List.not_mem_nil, or_false] at hmem
  obtain ⟨it, hit, -, hi, -⟩ := hheld
  rcases hmem with rfl | rfl
  · exact .inl ⟨rfl, hi.symm.trans (h.joined.client.interest_eq hit)⟩
  · exact .inr ⟨rfl, hi.symm.trans (h.joined.origin.interest_eq hit)⟩

theorem handleProxyRead_next (h : Relaying x.id x.c x.w.selector)
    (hcur : x.c.current = some .proxy) (hheld : Held (.socks5 x.id) x.w.selector fd i m)
    (hi : i.read = true) (hr : handleProxyRead e fd x = .ok r) : Next r := by
  have hst : stmState x.c = .proxy := by rw [stmState, hcur]; rfl
  have hroomC : bufferCanWrite (x.readClient e).c.originBuf = true →
      bufferCanWrite x.c.originBuf = true := readFromSock_canWrite
  have hroomO : bufferCanWrite (x.readOrigin e).c.clientBuf = true →
      bufferCanWrite x.c.clientBuf = true := readFromSock_canWrite
  rcases handleProxyRead_cases hr with ⟨rfl, hcs⟩ | ⟨hne, rfl, hcs⟩
  · have hcr : x.c.activeEnds.clientRead = true := by
      rcases h.fd_cases hheld with ⟨-, rfl⟩ | ⟨heq, -⟩
      · exact hi
      · exact absurd heq h.joined.ne
    rcases hcs with ⟨hfull, rfl⟩ | rfl | ⟨p, rfl⟩
    · rw [hst]
      refine .inl ⟨hcur, h.mask_client ?_⟩
      simp [clientMask, FdInterest.le_def, hfull]
    · exact (Still.readClient.closing h.closing hroomC id).close_clientRead hcur hcr
    · rw [hst]
      refine .inl ⟨hcur, h.unmask_origin (y := (x.readClient e).setParser p)
        (Still.readClient.trans .setParser) ?_ ?_⟩
      · simp only [clientMask, FdInterest.le_def, Bool.and_eq_true]
        exact ⟨fun hb => ⟨hb.1, hroomC hb.2⟩, fun hb => hb⟩
      · simp only [originMask, FdInterest.le_def, FdInterest.or_read, FdInterest.or_write,
          opWrite_write, Bool.or_true, implies_true, and_true]
        intro hb
        rw [Bool.or_eq_true]
        exact .inl hb
  · have hor : x.c.activeEnds.originRead = true := by
      rcases h.fd_cases hheld with ⟨heq, -⟩ | ⟨-, rfl⟩
      · exact absurd heq hne
      · exact hi
    rcases hcs with ⟨hfull, rfl⟩ | rfl | ⟨p, rfl⟩
    · rw [hst]
      refine .inl ⟨hcur, h.mask_origin ?_⟩
      simp [originMask, FdInterest.le_def, hfull]
    · exact (Still.readOrigin.closing h.closing id hroomO).close_originRead hcur hor h.originWrite
    · rw [hst]
      refine .inl ⟨hcur, h.unmask_client (y := (x.readOrigin e).setParser p)
        (Still.readOrigin.trans .setParser) ?_ ?_⟩
      · simp only [clientMask, FdInterest.le_def, FdInterest.or_read, FdInterest.or_write,
          opWrite_write, Bool.or_true, implies_true, and_true]
        intro hb
        rw [Bool.or_eq_true]
        exact .inl hb
      · simp only [originMask, FdInterest.le_def, Bool.and_eq_true]
        exact ⟨fun hb => ⟨hb.1, hroomO hb.2⟩, fun hb => hb⟩

theorem writeToSock_error {b : Buffer} : (writeToSock .error b).1 = b := rfl

theorem handleProxyWrite_proxy (h : Relaying x.id x.c x.w.selector)
    (hcur : x.c.current = some .proxy) (hheld : Held (.socks5 x.id) x.w.selector fd i m)
    (hi : i.write = true) (hr : handleProxyWrite e fd x = .ok r) : Next r := by
  have hst : stmState x.c = .proxy := by rw [stmState, hcur]; rfl
  have hdone : x.c.current ≠ some .done := by rw [hcur]; simp
  have hleftC : bufferCanRead (x.writeClient e).c.clientBuf = true →
      bufferCanRead x.c.clientBuf = true := writeToSock_canRead
  have hleftO : bufferCanRead (x.writeOrigin e).c.originBuf = true →
      bufferCanRead x.c.originBuf = true := writeToSock_canRead
  have hclose : ∀ {y}, Still x y → Next (closeClient y clientWriteEnd) := fun hs =>
    .closeAll h.clientWrite h.closing.only_active hs hdone
  rcases handleProxyWrite_cases hr with ⟨rfl, hcs⟩ | ⟨hne, rfl, hcs⟩
  · rcases hcs with ⟨-, -, -, rfl⟩ | ⟨hempty, hor, rfl⟩ | ⟨-, -, rfl⟩ | ⟨n, -, rfl⟩
    · exact hclose (.refl x)
    · rw [hst] at hor ⊢
      have hor' : x.c.activeEnds.originRead = true := by
        rcases hor with hor | hlt
        · exact hor
        · exact absurd hlt (Nat.lt_irrefl _)
      refine .inl ⟨hcur, h.mask_client ?_⟩
      simp [clientMask, FdInterest.le_def, hempty, hor']
    · exact hclose .writeClient
    · rw [hst]
      refine .inl ⟨hcur, h.unmask_origin (y := (x.writeClient e).addBytes n)
        (Still.writeClient.trans .addBytes) ?_ ?_⟩
      · simp only [clientMask, FdInterest.le_def, Bool.or_eq_true]
        exact ⟨fun hb => hb, Or.imp_left hleftC⟩
      · simp only [originMask, FdInterest.le_def, FdInterest.or_read, FdInterest.or_write,
          opRead_read, opRead_write, Bool.or_true, Bool.or_false]
        exact ⟨fun _ => trivial, fun hb => hb⟩
  · have how : x.c.activeEnds.originWrite = true := by
      rcases h.fd_cases hheld with ⟨heq, -⟩ | ⟨-, rfl⟩
      · exact absurd heq hne
      · exact hi
    rcases hcs with ⟨-, -, rfl⟩ | ⟨hempty, hcr, rfl⟩ | ⟨-, herr, rfl⟩ | ⟨n, -, rfl⟩
    · exact h.closing.close_originWrite hcur how
    · rw [hst]
      refine .inl ⟨hcur, h.mask_origin ?_⟩
      simp [originMask, FdInterest.le_def, hempty, hcr]
    · have hbuf : (x.writeOrigin e).c.originBuf = x.c.originBuf := by
        change (writeToSock e.send x.c.originBuf).1 = _
        rw [herr, writeToSock_error]
      refine (Still.writeOrigin.closing h.closing ?_ id).close_originWrite hcur how
      rw [hbuf]
      exact id
    · rw [hst]
      refine .inl ⟨hcur, h.unmask_client (y := (x.writeOrigin e).addBytes n)
        (Still.writeOrigin.trans .addBytes) ?_ ?_⟩
      · simp only [clientMask, FdInterest.le_def, FdInterest.or_read, FdInterest.or_write,
          opRead_read, opRead_write, Bool.or_true, Bool.or_false]
        exact ⟨fun _ => trivial, fun hb => hb⟩
      · simp only [originMask, FdInterest.le_def, Bool.and_eq_true, Bool.or_eq_true]
        exact ⟨fun hb => hb, fun hb => ⟨hb.1, hb.2.imp_left hleftO⟩⟩

/-! ## Writing outside the relay -/

theorem handleProxyWrite_handshake {st : Socks5State} {i' : FdInterest}
    (h : Alone x.id x.c x.w.selector i' opRead) (hcur : x.c.current = some st)
    (hst : st = .plainAuth ∨ st = .request ∨ st = .resolving)
    (hctl : ∀ c s, Alone x.id c s i' opRead → Ctl x.id c s (some st))
    (hheld : Held (.socks5 x.id) x.w.selector fd i m) (hr : handleProxyWrite e fd x = .ok r) :
    Next r := by
  have hstm : stmState x.c = st := by rw [stmState, hcur]; rfl
  obtain rfl : fd = x.c.clientSock := by simpa using hheld.mem h.only
  have hlt : ¬ Socks5State.proxy.toNat ≤ st.toNat := by rcases hst with rfl | rfl | rfl <;> decide
  rcases handleProxyWrite_cases hr with
    ⟨-, ⟨-, -, hle, -⟩ | ⟨-, -, rfl⟩ | ⟨-, -, rfl⟩ | ⟨n, -, rfl⟩⟩ | ⟨hne, -⟩
  · rw [hstm] at hle
    exact absurd hle hlt
  · rw [hstm]
    refine .inl ⟨hcur, hctl _ _ ⟨h.ends, h.origin, ?_, h.held.maskInterest⟩⟩
    exact h.only.updateItem (fun _ => rfl) (fun _ => rfl)
  · refine .closeAll (by rw [h.ends]; rfl) ?_ .writeClient (by
      rw [hcur]
      rcases hst with rfl | rfl | rfl <;> simp)
    rw [h.ends]
    exact h.only
  · rw [hstm]
    refine .inl ⟨hcur, hctl _ _ ⟨h.ends, h.origin, ?_, h.held.unmask_any⟩⟩
    exact h.only.updateItem (fun _ => rfl) (fun _ => rfl)
  · exact absurd rfl hne

/-- The origin of a draining client closes; the client socket is untouched. -/
theorem closeClient_drained (he : x.c.activeEnds = clientWriteEnd ||| originWriteEnd)
    (hne : x.c.clientSock ≠ x.c.originSock)
    (hon : OnlyAt (.socks5 x.id) x.w.selector [x.c.clientSock, x.c.originSock])
    (hc : Held (.socks5 x.id) x.w.selector x.c.clientSock i m)
    (hcur : x.c.current = some .writeRemaining) :
    let r := closeClient x originWriteEnd
    r.2 = .writeRemaining ∧ r.1.c.current = some .writeRemaining ∧
      r.1.c.activeEnds = clientWriteEnd ∧
      OnlyAt (.socks5 r.1.id) r.1.w.selector [r.1.c.clientSock] ∧
      Held (.socks5 r.1.id) r.1.w.selector r.1.c.clientSock i m := by
  have hcw : (closeEnds originWriteEnd x).c.activeEnds.clientWrite = true := by
    simp [he, originWriteEnd, clientWriteEnd]
  have hcr : (closeEnds originWriteEnd x).c.activeEnds.clientRead = false := by
    simp [he, originWriteEnd, clientWriteEnd]
  have hst : closeState (closeEnds originWriteEnd x) =
      (closeEnds originWriteEnd x, .writeRemaining) := by
    refine if_neg ?_
    simp [he, originWriteEnd, clientWriteEnd]
  have hor : x.c.activeEnds.originRead = false := by
    rw [he]
    rfl
  have hsel : (closeEnds originWriteEnd x).w.selector = (selectorUnregisterFd
      (selectorRemoveInterest x.w.selector x.c.originSock opWrite).1 x.c.originSock).1 := by
    rw [closeEnds_originWrite, hor, retire, Bool.not_false, if_pos rfl, close_selector]
    rfl
  have hid : (closeEnds originWriteEnd x).id = x.id := Closes.closeEnds.id_eq
  have hon' : OnlyAt (.socks5 x.id) (selectorRemoveInterest x.w.selector x.c.originSock opWrite).1
      [x.c.clientSock, x.c.originSock] := hon.updateItem (fun _ => rfl) (fun _ => rfl)
  have hc' : Held (.socks5 x.id) (selectorRemoveInterest x.w.selector x.c.originSock opWrite).1
      x.c.clientSock i m := hc.updateItem_ne hne fun _ => rfl
  rw [closeClient_originWrite (by rw [he]; rfl), closeClient_idle hcw hcr, hst]
  refine ⟨rfl, by simpa using hcur, ?_, ?_, ?_⟩
  · simp [he, originWriteEnd, clientWriteEnd]
  · rw [hid, hsel, closeEnds_c]
    refine (hon'.unregister x.c.originSock).subset ?_
    simp [hne]
  · rw [hid, hsel, closeEnds_c]
    exact hc'.unregister_ne hne

theorem handleProxyWrite_remaining
    (h : Draining x.id x.c x.w.selector fun fd =>
      Held (.socks5 x.id) x.w.selector fd opWrite opWrite)
    (hcur : x.c.current = some .writeRemaining) (hheld : Held (.socks5 x.id) x.w.selector fd i m)
    (hr : handleProxyWrite e fd x = .ok r) : Next r := by
  have hst : stmState x.c = .writeRemaining := by rw [stmState, hcur]; rfl
  have hends : x.c.activeEnds.clientWrite = true ∧ x.c.activeEnds.clientRead = false ∧
      x.c.activeEnds.originRead = false := by
    rcases h with ⟨he, -⟩ | ⟨he, -⟩ <;> rw [he] <;> exact ⟨rfl, rfl, rfl⟩
  have hclose : ∀ {y}, Still x y → Next (closeClient y clientWriteEnd) := by
    intro y hs
    refine .closeAll hends.1 ?_ hs (by rw [hcur]; simp)
    rcases h with ⟨he, hon, -⟩ | ⟨he, -, hon, -⟩ <;> rw [he] <;> exact hon
  have hstay : ∀ {y : Ctx} {fd' : ℤ} {a : FdInterest}, Still x y →
      Next (y.sel (selectorUnmaskInterest x.w.selector fd' a), stmState x.c) := by
    intro y fd' a hs
    rw [hst]
    refine .inl ⟨hs.current_eq.trans hcur, ?_⟩
    change Draining y.id y.c (selectorUnmaskInterest x.w.selector fd' a).1 fun fd =>
      Held (.socks5 y.id) (selectorUnmaskInterest x.w.selector fd' a).1 fd opWrite opWrite
    rcases h with ⟨he, hon, hc⟩ | ⟨he, hne, hon, hc, ho⟩
    · refine .inl ⟨hs.ends_eq.trans he, ?_, ?_⟩
      · rw [hs.id_eq, hs.clientSock_eq]
        exact hon.updateItem (fun _ => rfl) (fun _ => rfl)
      · rw [hs.clientSock_eq]
        exact hs.id_eq ▸ hc.unmask_any
    · refine .inr ⟨hs.ends_eq.trans he, ?_, ?_, ?_, ?_⟩
      · rw [hs.clientSock_eq, hs.originSock_eq]
        exact hne
      · rw [hs.id_eq, hs.clientSock_eq, hs.originSock_eq]
        exact hon.updateItem (fun _ => rfl) (fun _ => rfl)
      · rw [hs.clientSock_eq]
        exact hs.id_eq ▸ hc.unmask_any
      · rw [hs.originSock_eq]
        exact hs.id_eq ▸ ho.unmask_any
  have hdrain : ∀ {y}, Still x y → fd = x.c.originSock → fd ≠ x.c.clientSock →
      Next (closeClient y originWriteEnd) := by
    intro y hs hfd hne
    rcases h with ⟨he, hon, -⟩ | ⟨he, hne', hon, hc, -⟩
    · exact absurd (by simpa using hheld.mem hon) hne
    · have hd := closeClient_drained (x := y) (i := opWrite) (m := opWrite)
        (hs.ends_eq.trans he) (by rw [hs.clientSock_eq, hs.originSock_eq]; exact hne')
        (by rw [hs.id_eq, hs.selector_eq, hs.clientSock_eq, hs.originSock_eq]; exact hon)
        (by rw [hs.id_eq, hs.selector_eq, hs.clientSock_eq]; exact hc) (hs.current_eq.trans hcur)
      obtain ⟨h2, hcur', he', hon', hc'⟩ := hd
      refine .inl ⟨by rw [h2, hcur'], ?_⟩
      rw [h2]
      exact .inl ⟨he', hon', hc'⟩
  rcases handleProxyWrite_cases hr with ⟨rfl, hcs⟩ | ⟨hne, hfd, hcs⟩
  · rcases hcs with ⟨-, -, -, rfl⟩ | ⟨-, hor, -⟩ | ⟨-, -, rfl⟩ | ⟨n, -, rfl⟩
    · exact hclose (.refl x)
    · rw [hends.2.2, hst] at hor
      rcases hor with hor | hlt
      · cases hor
      · exact absurd hlt (by decide)
    · exact hclose .writeClient
    · exact hstay (y := (x.writeClient e).addBytes n) (Still.writeClient.trans .addBytes)
  · rcases hcs with ⟨-, -, rfl⟩ | ⟨-, hcr, -⟩ | ⟨-, -, rfl⟩ | ⟨n, -, rfl⟩
    · exact hdrain (.refl x) hfd hne
    · rw [hends.2.1] at hcr
      cases hcr
    · exact hdrain .writeOrigin hfd hne
    · exact hstay (y := (x.writeOrigin e).addBytes n) (Still.writeOrigin.trans .addBytes)

end Socks5d
