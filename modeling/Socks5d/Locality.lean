import Socks5d.Outcomes

/-! # Every handler concerns its own client only -/

namespace Socks5d

variable {x : Ctx} {e : Env} {fd : ℤ} {r : Ctx × Socks5State}

theorem Quiet.readClient : Quiet x (x.readClient e) := .client_log rfl rfl rfl

theorem Quiet.readOrigin : Quiet x (x.readOrigin e) := .client_log rfl rfl rfl

theorem Quiet.writeClient : Quiet x (x.writeClient e) := .client_log rfl rfl rfl

theorem Quiet.writeOrigin : Quiet x (x.writeOrigin e) := .client_log rfl rfl rfl

theorem Quiet.consume {n : ℕ} {hn : n ≤ x.c.originBuf.write - x.c.originBuf.read} :
    Quiet x (x.consume n hn) := .client_log rfl rfl rfl

theorem Quiet.simpleReply {v m : UInt8} : Quiet x (simpleReply x v m) :=
  .client_log rfl rfl rfl

theorem Quiet.putReply {reply : ServerReplyType} {atyp : Atyp} {addr : List UInt8} {port : Port} :
    Quiet x (putReply x reply atyp addr port) := .client_log rfl rfl rfl

theorem Quiet.addBytes {n : ℤ} : Quiet x (x.addBytes n) :=
  ⟨rfl, rfl, rfl, ⟨[], by simp [Ctx.addBytes]⟩, rfl,
    ⟨.refl, fun h => h, rfl, fun _ _ => rfl, rfl, rfl, rfl, fun _ _ => rfl,
    fun h => h, fun _ _ _ _ _ => rfl⟩⟩

theorem Quiet.setAtyp {a : UInt8} : Quiet x (x.setAtyp a) := .client rfl rfl

theorem Quiet.setAddr {a : CurrAddr} : Quiet x (x.setAddr a) := .client rfl rfl

theorem Quiet.setOrigin : Quiet x (x.setOrigin fd) := .client rfl rfl

theorem Quiet.setParser {p : Option Pop3Parser} : Quiet x (x.setParser p) := .client rfl rfl

/-- A step that keeps the origin socket and the ends, then closing. -/
theorem Quiet.close_after {y : Ctx} {level : SocketEnds} (h : Owns x) (hq : Quiet x y)
    (ho : y.c.originSock = x.c.originSock) (he : y.c.activeEnds = x.c.activeEnds) :
    Quiet x (closeClient y level).1 :=
  hq.trans (closeClient_quiet (h.quiet hq ho (by rw [he]; exact id)) level)

theorem Quiet.expectWrite {y : Ctx} (h : Owns x) (hq : Quiet x y) : Quiet x (expectWrite y) :=
  hq.trans (.addInterest (hq.ownClient h.client))

theorem readAuthMethod_quiet (h : Owns x) (hr : readAuthMethod e fd x = .ok r) : Quiet x r.1 := by
  rcases readAuthMethod_cases hr with rfl | rfl | ⟨n, hn, v, ms, rfl⟩
  · exact .close_after h .readClient rfl rfl
  · exact .readClient
  have hq : Quiet x ((x.readClient e).consume n hn) := Quiet.readClient.trans .consume
  rcases answerGreeting_cases ((x.readClient e).consume n hn) v ms with
    hg | ⟨-, -, -, hg⟩ | ⟨-, -, hg⟩
  · rw [hg]
    exact .close_after h ((hq.trans (.log rfl)).trans .simpleReply) rfl rfl
  · rw [hg]
    exact .expectWrite h ((hq.trans (.log rfl)).trans .simpleReply)
  · rw [hg]
    exact .expectWrite h ((hq.trans (.log rfl)).trans .simpleReply)

theorem readPlainAuth_quiet (h : Owns x) (hr : readPlainAuth e fd x = .ok r) : Quiet x r.1 := by
  rcases readPlainAuth_cases hr with rfl | rfl | ⟨n, hn, v, user, pass, rfl⟩
  · exact .close_after h .readClient rfl rfl
  · exact .readClient
  have hq : Quiet x ((x.readClient e).consume n hn) := Quiet.readClient.trans .consume
  have hu : Quiet x (((x.readClient e).consume n hn).setUser (cString user)) :=
    hq.trans (.client rfl rfl)
  rcases answerCredentials_cases ((x.readClient e).consume n hn) v user pass with
    hg | ⟨-, hg⟩ | ⟨-, hg⟩
  · rw [hg]
    exact .close_after h (hq.trans .simpleReply) rfl rfl
  · rw [hg]
    exact .expectWrite h ((hu.trans (.log rfl)).trans .simpleReply)
  · rw [hg]
    exact .close_after h ((hu.trans (.log rfl)).trans .simpleReply) rfl rfl

theorem startRequest_quiet {b : Buffer} {a : UInt8} {n : ℕ} (h : Owns x)
    (hr : startRequest e b a n x = .ok r) : Quiet x r.1 := by
  have hq := Quiet.removeInterest (i := opRead) h.client
  rcases startRequest_cases hr with ⟨addr, -, -, rfl⟩ | ⟨fqdn, port, -, rfl⟩ | ⟨a, -, rfl⟩
  · exact .close_after h ((hq.trans .setAddr).trans .putReply) rfl rfl
  · exact hq.trans (.client rfl rfl)
  · exact hq.trans .setAddr

theorem readProxyRequest_quiet (h : Owns x) (hr : readProxyRequest e fd x = .ok r) :
    Quiet x r.1 := by
  rcases readProxyRequest_cases hr with ⟨a, rfl⟩ | ⟨a, reply, -, rfl⟩ | ⟨a, n, hn, reply, -, rfl⟩ |
    ⟨a, n, k, hn, hs⟩
  · exact Quiet.readClient.trans .setAtyp
  · exact .close_after h ((Quiet.readClient.trans .setAtyp).trans .putReply) rfl rfl
  · exact .close_after h
      (((Quiet.readClient.trans .setAtyp).trans .consume).trans .putReply) rfl rfl
  · have hq : Quiet x (((x.readClient e).setAtyp a).consume n hn) :=
      (Quiet.readClient.trans .setAtyp).trans .consume
    exact hq.trans (startRequest_quiet (h.quiet hq rfl id) hs)

section Connecting

/-- While connecting no origin end is active, whatever socket is being tried. -/
theorem Quiet.refuse {y : Ctx} {reply : ServerReplyType}
    (h : OwnFd (.socks5 x.id) x.w.selector x.c.clientSock) (hq : Quiet x y)
    (hends : y.c.activeEnds = clientEnds) :
    Quiet x (closeClient (failReply y reply) clientReadEnd).1 := by
  have hp : Quiet x (failReply y reply) := hq.trans .putReply
  refine hp.trans (closeClient_quiet ⟨hp.ownClient h, ?_⟩ _)
  · rw [show (failReply y reply).c.activeEnds = clientEnds from hends]
    simp [clientEnds]

variable (hcap : itemsMaxSize ≤ x.w.selector.fdSize)
  (h : OwnFd (.socks5 x.id) x.w.selector x.c.clientSock) (hends : x.c.activeEnds = clientEnds)
include hcap h hends

theorem connectTo_quiet (hfresh : x.w.fdTable fd = none) (hr : connectTo e fd x = .ok r) :
    Quiet x r.1 := by
  have hopen : Quiet x ((x.setOrigin fd).openSock fd) := Quiet.setOrigin.trans (.openSock hfresh)
  rcases connectTo_cases hr with ⟨err, -, -, rfl⟩ | ⟨-, hreg, -, rfl⟩ | ⟨-, -, rfl⟩
  · exact .refuse h hopen hends
  · have hclose : Quiet x (((x.setOrigin fd).openSock fd).close fd) :=
      Quiet.setOrigin.trans (.open_close hfresh)
    exact .refuse h hclose (by rw [close_c]; exact hends)
  · exact hopen.trans (.register hcap (by simp [Ctx.openSock]))

theorem tryConnect_quiet (hr : tryConnect e x = .ok r) : Quiet x r.1 := by
  obtain ⟨-, -, ⟨-, -, rfl⟩ | ⟨fd, hfd, hc⟩⟩ := tryConnect_cases hr
  · exact .refuse h .setOrigin hends
  · exact connectTo_quiet hcap h hends (freshFd_some hfd).2 hc

theorem originCheckConnection_quiet
    (ho : fd ≠ x.c.clientSock → OwnFd (.socks5 x.id) x.w.selector x.c.originSock)
    (hr : originCheckConnection e fd x = .ok r) : Quiet x r.1 := by
  have hy := Quiet.removeInterest (i := opWrite) h
  rcases originCheckConnection_cases hr with
    ⟨-, -, -, rfl⟩ | ⟨-, ht⟩ | ⟨hfd, -, a, ha⟩ | ⟨hfd, err, next, -, hn⟩
  · exact .refuse h hy hends
  · refine hy.trans (tryConnect_quiet ?_ ?_ hends ht)
    · rw [hy.world.cap]
      exact hcap
    · exact hy.ownClient h
  · obtain ⟨-, p, rfl⟩ := enterProxy_ok ha
    have h1 : Quiet x (x.setEnds (x.c.activeEnds ||| originEnds)) := .client rfl rfl
    have h2 := h1.trans (.setInterest (i := opRead ||| opWrite) (ho hfd))
    refine ((h2.trans (.setInterest ?_)).trans .putReply).trans .setParser
    exact h2.ownClient h
  · have hu := Quiet.unregister (ho hfd)
    rcases nextAddress_cases hn with ⟨a, rest, ht⟩ | ⟨reply, -, rfl⟩
    · have hu' := hu.trans (.setAddr (a := .resolved a rest))
      refine hu'.trans (tryConnect_quiet ?_ ?_ hends ht)
      · rw [hu'.world.cap]
        exact hcap
      · exact hu'.ownClient h
    · exact .refuse h hu hends

end Connecting

theorem handleProxyRead_quiet (h : Owns x) (ho : OwnFd (.socks5 x.id) x.w.selector fd)
    (hr : handleProxyRead e fd x = .ok r) : Quiet x r.1 := by
  rcases handleProxyRead_cases hr with
    ⟨-, ⟨-, rfl⟩ | rfl | ⟨p, rfl⟩⟩ | ⟨-, -, ⟨-, rfl⟩ | rfl | ⟨p, rfl⟩⟩
  · exact .maskInterest ho
  · exact .close_after h .readClient rfl rfl
  · exact (Quiet.readClient.trans .unmask).trans .setParser
  · exact .maskInterest ho
  · exact .close_after h .readOrigin rfl rfl
  · exact (Quiet.readOrigin.trans .unmask).trans .setParser

theorem handleProxyWrite_quiet (h : Owns x) (ho : OwnFd (.socks5 x.id) x.w.selector fd)
    (hr : handleProxyWrite e fd x = .ok r) : Quiet x r.1 := by
  rcases handleProxyWrite_cases hr with
    ⟨-, ⟨-, -, -, rfl⟩ | ⟨-, -, rfl⟩ | ⟨-, -, rfl⟩ | ⟨n, -, rfl⟩⟩ |
    ⟨-, -, ⟨-, -, rfl⟩ | ⟨-, -, rfl⟩ | ⟨-, -, rfl⟩ | ⟨n, -, rfl⟩⟩
  · exact closeClient_quiet h _
  · exact .maskInterest ho
  · exact .close_after h .writeClient rfl rfl
  · exact (Quiet.writeClient.trans .unmask).trans .addBytes
  · exact closeClient_quiet h _
  · exact .maskInterest ho
  · exact .close_after h .writeOrigin rfl rfl
  · exact (Quiet.writeOrigin.trans .unmask).trans .addBytes

end Socks5d
