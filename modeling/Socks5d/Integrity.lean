import Socks5d.Story

/-! # Relay integrity

What a client sends after its handshake is what its origin gets, and what the
client gets is the replies of the handshake followed by what its origin sends. -/

namespace Socks5d
open EventRun

variable {x x' : Ctx} {e : Env} {fd : ℤ} {r : Ctx × Socks5State} {c : Client} {h os : List Obs}

/-! ## The bytes of a history -/

inductive Flow
  | recvClient | recvOrigin | sentClient | sentOrigin | consumed | replied
deriving DecidableEq, Repr

def Obs.flow : Obs → Option (Flow × List UInt8)
  | .recvClient _ bs => some (.recvClient, bs)
  | .recvOrigin _ bs => some (.recvOrigin, bs)
  | .sentClient _ bs => some (.sentClient, bs)
  | .sentOrigin _ bs => some (.sentOrigin, bs)
  | .consumed _ bs => some (.consumed, bs)
  | .replied _ bs => some (.replied, bs)
  | _ => none

/-- All bytes of one kind, in order. -/
def bytesOf (k : Flow) (h : List Obs) : List UInt8 :=
  h.flatMap fun o => match o.flow with
    | some (k', bs) => if k' = k then bs else []
    | none => []

@[simp] theorem bytesOf_append (k : Flow) (h h' : List Obs) :
    bytesOf k (h ++ h') = bytesOf k h ++ bytesOf k h' := by
  simp [bytesOf]

theorem bytesOf_some {k k' : Flow} {o : Obs} {bs : List UInt8} (ho : o.flow = some (k', bs)) :
    bytesOf k [o] = if k' = k then bs else [] := by
  simp [bytesOf, ho]

theorem bytesOf_nil (k : Flow) (hos : ∀ o ∈ os, o.flow = none) : bytesOf k os = [] := by
  unfold bytesOf
  rw [List.flatMap_eq_nil_iff]
  intro o ho
  rw [hos o ho]

/-! ## Conservation -/

structure Conserved (c : Client) (h : List Obs) : Prop where
  toOrigin : bytesOf .consumed h ++ bytesOf .sentOrigin h ++ bufferReadPtr c.originBuf =
    bytesOf .recvClient h
  toClient : bytesOf .sentClient h ++ bufferReadPtr c.clientBuf =
    bytesOf .replied h ++ bytesOf .recvOrigin h

/-- Before there is an origin: `client_buf` holds at most `n` bytes of replies. -/
structure Early (n : ℕ) (c : Client) (h : List Obs) : Prop where
  limit : minSocksBuffsize < c.clientBuf.limit
  write : c.clientBuf.write ≤ n
  sent : bytesOf .sentOrigin h = []
  recv : bytesOf .recvOrigin h = []

/-- What happened to the client a handler runs for. -/
def Ctx.past (x : Ctx) : List Obs := history x.id x.w.log

/-- `x'` follows `x` by one event that moves bytes. -/
structure Moves (k : Flow) (bs : List UInt8) (x x' : Ctx) : Prop where
  id_eq : x'.id = x.id
  past_eq : ∃ o, o.flow = some (k, bs) ∧ x'.past = x.past ++ [o]

theorem Moves.bytes {k : Flow} {bs : List UInt8} (h : Moves k bs x x') (k' : Flow) :
    bytesOf k' x'.past = bytesOf k' x.past ++ if k = k' then bs else [] := by
  obtain ⟨o, ho, hpast⟩ := h.past_eq
  rw [hpast, bytesOf_append, bytesOf_some ho]

theorem Moves.of_log {k : Flow} {bs : List UInt8} {o : Obs} (hid : x'.id = x.id)
    (hlog : x'.w.log = x.w.log ++ [o]) (ho : o.owner = x.id) (hflow : o.flow = some (k, bs)) :
    Moves k bs x x' := by
  refine ⟨hid, o, hflow, ?_⟩
  unfold Ctx.past
  rw [hid, hlog, Story.history_own ho]

/-- No byte moves from `x` to `x'`. -/
structure Idle (x x' : Ctx) : Prop where
  records : Records (fun o => o.flow = none) x x'
  clientBuf : x'.c.clientBuf = x.c.clientBuf
  originBuf : x'.c.originBuf = x.c.originBuf

theorem Idle.refl (x : Ctx) : Idle x x := ⟨.refl x, rfl, rfl⟩

theorem Idle.trans {x'' : Ctx} (h : Idle x x') (h' : Idle x' x'') : Idle x x'' :=
  ⟨h.records.trans h'.records, h'.clientBuf.trans h.clientBuf, h'.originBuf.trans h.originBuf⟩

theorem Idle.bytes (hi : Idle x x') (k : Flow) : bytesOf k x'.past = bytesOf k x.past := by
  obtain ⟨os, hos, hlog⟩ := hi.records.history_eq
  unfold Ctx.past
  rw [hi.records.id_eq, hlog, bytesOf_append, bytesOf_nil k hos, List.append_nil]

theorem Idle.of_eq (hid : x'.id = x.id) (hlog : x'.w.log = x.w.log)
    (hc : x'.c.clientBuf = x.c.clientBuf) (ho : x'.c.originBuf = x.c.originBuf) : Idle x x' :=
  ⟨.of_eq hid hlog, hc, ho⟩

theorem Idle.closes (h : Closes x x') : Idle x x' := by
  refine ⟨.closes h fun _ _ => rfl, ?_, ?_⟩
  · rw [h.c_eq]
  · rw [h.c_eq]

theorem Idle.conserved (hi : Idle x x') (h : Conserved x.c x.past) : Conserved x'.c x'.past := by
  refine ⟨?_, ?_⟩
  · rw [hi.bytes, hi.bytes, hi.bytes, hi.originBuf]
    exact h.toOrigin
  · rw [hi.bytes, hi.bytes, hi.bytes, hi.clientBuf]
    exact h.toClient

theorem Idle.early {n : ℕ} (hi : Idle x x') (h : Early n x.c x.past) : Early n x'.c x'.past := by
  refine ⟨?_, ?_, ?_, ?_⟩
  · rw [hi.clientBuf]
    exact h.limit
  · rw [hi.clientBuf]
    exact h.write
  · rw [hi.bytes]
    exact h.sent
  · rw [hi.bytes]
    exact h.recv

/-! ## One lemma for each way bytes move -/

theorem readClient_moves (x : Ctx) (e : Env) :
    Moves .recvClient (e.read.bytes (readSize x.c.originBuf)) x (x.readClient e) :=
  .of_log rfl rfl rfl rfl

theorem readOrigin_moves (x : Ctx) (e : Env) :
    Moves .recvOrigin (e.read.bytes (readSize x.c.clientBuf)) x (x.readOrigin e) :=
  .of_log rfl rfl rfl rfl

theorem Conserved.readClient (h : Conserved x.c x.past) (e : Env) :
    Conserved (x.readClient e).c (x.readClient e).past := by
  have hb : bufferReadPtr (x.readClient e).c.originBuf =
      bufferReadPtr x.c.originBuf ++ e.read.bytes (readSize x.c.originBuf) :=
    bufferPut_readPtr (bytes_length_le _ _)
  refine ⟨?_, ?_⟩
  · simp only [(readClient_moves x e).bytes, reduceCtorEq, ↓reduceIte, List.append_nil, hb]
    rw [← List.append_assoc, h.toOrigin]
  · simp only [(readClient_moves x e).bytes, reduceCtorEq, ↓reduceIte, List.append_nil]
    exact h.toClient

theorem Early.readClient {n : ℕ} (h : Early n x.c x.past) (e : Env) :
    Early n (x.readClient e).c (x.readClient e).past := by
  refine ⟨h.limit, h.write, ?_, ?_⟩
  · simpa only [(readClient_moves x e).bytes, reduceCtorEq, ↓reduceIte,
      List.append_nil] using h.sent
  · simpa only [(readClient_moves x e).bytes, reduceCtorEq, ↓reduceIte,
      List.append_nil] using h.recv

theorem Conserved.readOrigin (h : Conserved x.c x.past) (e : Env) :
    Conserved (x.readOrigin e).c (x.readOrigin e).past := by
  have hb : bufferReadPtr (x.readOrigin e).c.clientBuf =
      bufferReadPtr x.c.clientBuf ++ e.read.bytes (readSize x.c.clientBuf) :=
    bufferPut_readPtr (bytes_length_le _ _)
  refine ⟨?_, ?_⟩
  · simp only [(readOrigin_moves x e).bytes, reduceCtorEq, ↓reduceIte, List.append_nil]
    exact h.toOrigin
  · simp only [(readOrigin_moves x e).bytes, reduceCtorEq, ↓reduceIte, List.append_nil, hb]
    rw [← List.append_assoc, h.toClient, List.append_assoc]

section
variable {n : ℕ} {h' : n ≤ x.c.originBuf.write - x.c.originBuf.read}

theorem consume_moves (h' : n ≤ x.c.originBuf.write - x.c.originBuf.read) :
    Moves .consumed ((bufferReadPtr x.c.originBuf).take n) x (x.consume n h') :=
  .of_log rfl rfl rfl rfl

/-- A handshake message leaves the buffer before anything is sent to the origin. -/
theorem Conserved.consume (h : Conserved x.c x.past) (hs : bytesOf .sentOrigin x.past = []) :
    Conserved (x.consume n h').c (x.consume n h').past := by
  have hb : bufferReadPtr (x.consume n h').c.originBuf = (bufferReadPtr x.c.originBuf).drop n :=
    bufferReadAdv_readPtr h'
  refine ⟨?_, ?_⟩
  · have ho := h.toOrigin
    rw [hs, List.append_nil] at ho
    simp only [(consume_moves h').bytes, reduceCtorEq, ↓reduceIte, List.append_nil, hb, hs]
    rw [List.append_assoc, List.take_append_drop, ho]
  · simp only [(consume_moves h').bytes, reduceCtorEq, ↓reduceIte, List.append_nil]
    exact h.toClient

theorem Early.consume {k : ℕ} (h : Early k x.c x.past) :
    Early k (x.consume n h').c (x.consume n h').past := by
  refine ⟨h.limit, h.write, ?_, ?_⟩
  · simpa only [(consume_moves h').bytes, reduceCtorEq, ↓reduceIte, List.append_nil] using h.sent
  · simpa only [(consume_moves h').bytes, reduceCtorEq, ↓reduceIte, List.append_nil] using h.recv

end

/-! ## Replies fit -/

theorem bufferWrite_room {b : Buffer} (hroom : b.write < b.limit) (v : UInt8) :
    bufferReadPtr (bufferWrite b v) = bufferReadPtr b ++ [v] ∧
      (bufferWrite b v).write = b.write + 1 := by
  have hc : bufferCanWrite b = true := decide_eq_true hroom
  rw [bufferWrite_readPtr, bufferWrite_write, if_pos hc, if_pos hc]
  exact ⟨rfl, rfl⟩

/-- Several `buffer_write`s in a row. -/
theorem foldl_bufferWrite {b : Buffer} (bs : List UInt8) (hroom : b.write + bs.length ≤ b.limit) :
    bufferReadPtr (bs.foldl bufferWrite b) = bufferReadPtr b ++ bs ∧
      (bs.foldl bufferWrite b).write = b.write + bs.length ∧
      (bs.foldl bufferWrite b).limit = b.limit := by
  induction bs generalizing b with
  | nil => simp
  | cons v bs ih =>
    rw [List.length_cons] at hroom
    obtain ⟨hp, hw⟩ := bufferWrite_room (b := b) (by omega) v
    obtain ⟨ihp, ihw, ihl⟩ := ih (b := bufferWrite b v) (by rw [hw, bufferWrite_limit]; omega)
    refine ⟨?_, ?_, ?_⟩
    · rw [List.foldl_cons, ihp, hp, List.append_assoc, List.singleton_append]
    · rw [List.foldl_cons, ihw, hw, List.length_cons]
      omega
    · rw [List.foldl_cons, ihl, bufferWrite_limit]

theorem replyBuffer_readPtr {b : Buffer} {reply : ServerReplyType} {atyp : Atyp} {addr : List UInt8}
    {port : Port} (hroom : b.write + 4 + atyp.addrLen addr + 2 ≤ b.limit) :
    bufferReadPtr (replyBuffer b reply atyp addr port) =
      bufferReadPtr b ++ replyBytes reply atyp addr port := by
  obtain ⟨hp, hw, hl⟩ := foldl_bufferWrite (b := b) [serverVersion, reply.code, 0, atyp.code]
    (by rw [show [serverVersion, reply.code, 0, atyp.code].length = 4 from rfl]; omega)
  have hhead : replyHeader b reply atyp =
    [serverVersion, reply.code, 0, atyp.code].foldl bufferWrite b := rfl
  rw [← hhead] at hp hw hl
  have hlen : [serverVersion, reply.code, 0, atyp.code].length = 4 := rfl
  unfold replyBuffer
  dsimp only
  rw [dif_neg (by rw [bufferWritePtr, hl, hw, hlen]; omega)]
  rw [bufferPut_readPtr, bufferPut_readPtr, hp]
  simp only [replyBytes, List.append_assoc]

theorem Conserved.replied {bs : List UInt8} (h : Conserved x.c x.past)
    (hrecv : bytesOf .recvOrigin x.past = []) (hm : Moves .replied bs x x')
    (hc : bufferReadPtr x'.c.clientBuf = bufferReadPtr x.c.clientBuf ++ bs)
    (ho : x'.c.originBuf = x.c.originBuf) : Conserved x'.c x'.past := by
  refine ⟨?_, ?_⟩
  · simp only [hm.bytes, reduceCtorEq, ↓reduceIte, List.append_nil, ho]
    exact h.toOrigin
  · have hcl := h.toClient
    rw [hrecv, List.append_nil] at hcl
    simp only [hm.bytes, reduceCtorEq, ↓reduceIte, List.append_nil, hc, hrecv]
    rw [← List.append_assoc, hcl]

theorem simpleReply_moves (x : Ctx) (v m : UInt8) :
    Moves .replied [v, m] x (simpleReply x v m) := .of_log rfl rfl rfl rfl

/-- The room that a reply of the handshake needs. -/
theorem Early.reply {n : ℕ} (he : Early n x.c x.past) (hn : n ≤ 4) (h : Conserved x.c x.past)
    (v m : UInt8) :
    Conserved (simpleReply x v m).c (simpleReply x v m).past ∧
      Early (n + 2) (simpleReply x v m).c (simpleReply x v m).past := by
  have hl := he.limit
  have hw := he.write
  unfold minSocksBuffsize at hl
  obtain ⟨hp, hwr, hlim⟩ := foldl_bufferWrite (b := x.c.clientBuf) [v, m]
    (by rw [show [v, m].length = 2 from rfl]; omega)
  have hwr' : (simpleReply x v m).c.clientBuf.write = x.c.clientBuf.write + 2 := hwr
  have hlim' : (simpleReply x v m).c.clientBuf.limit = x.c.clientBuf.limit := hlim
  refine ⟨h.replied he.recv (simpleReply_moves x v m) hp rfl, ?_, ?_, ?_, ?_⟩
  · rw [hlim']
    exact he.limit
  · rw [hwr']
    omega
  · simpa only [(simpleReply_moves x v m).bytes, reduceCtorEq, ↓reduceIte,
      List.append_nil] using he.sent
  · simpa only [(simpleReply_moves x v m).bytes, reduceCtorEq, ↓reduceIte,
      List.append_nil] using he.recv

theorem Conserved.putReply (h : Conserved x.c x.past) (he : Early 4 x.c x.past)
    (reply : ServerReplyType) {atyp : Atyp} (hatyp : atyp ≠ .domainName) (addr : List UInt8)
    (port : Port) :
    Conserved (putReply x reply atyp addr port).c (putReply x reply atyp addr port).past := by
  have hl := he.limit
  have hw := he.write
  unfold minSocksBuffsize at hl
  have hlen : atyp.addrLen addr ≤ 16 := by
    cases atyp with
    | ipv4 => exact (by decide : 4 ≤ 16)
    | ipv6 => exact Nat.le_refl 16
    | domainName => exact absurd rfl hatyp
  have hm :
      Moves .replied (replyBytes reply atyp addr port) x
      (Socks5d.putReply x reply atyp addr port) :=
    .of_log rfl rfl rfl rfl
  exact h.replied he.recv hm (replyBuffer_readPtr (by omega)) rfl

/-! ## Sending -/

theorem writeClient_moves (x : Ctx) (e : Env) :
    Moves .sentClient ((bufferReadPtr x.c.clientBuf).take
    (e.send.accepted (x.c.clientBuf.write - x.c.clientBuf.read))) x (x.writeClient e) :=
  .of_log rfl rfl rfl rfl

theorem writeOrigin_moves (x : Ctx) (e : Env) :
    Moves .sentOrigin ((bufferReadPtr x.c.originBuf).take
    (e.send.accepted (x.c.originBuf.write - x.c.originBuf.read))) x (x.writeOrigin e) :=
  .of_log rfl rfl rfl rfl

theorem Conserved.writeClient (h : Conserved x.c x.past) (e : Env) :
    Conserved (x.writeClient e).c (x.writeClient e).past := by
  have hb : bufferReadPtr (x.writeClient e).c.clientBuf = _ :=
    writeToSock_readPtr e.send x.c.clientBuf
  refine ⟨?_, ?_⟩
  · simp only [(writeClient_moves x e).bytes, reduceCtorEq, ↓reduceIte, List.append_nil]
    exact h.toOrigin
  · simp only [(writeClient_moves x e).bytes, reduceCtorEq, ↓reduceIte, List.append_nil, hb]
    rw [List.append_assoc, List.take_append_drop, h.toClient]

theorem Early.writeClient {n : ℕ} (h : Early n x.c x.past) (e : Env) :
    Early n (x.writeClient e).c (x.writeClient e).past := by
  obtain ⟨hw, hl⟩ := writeToSock_write_le e.send x.c.clientBuf
  have hl' : (x.writeClient e).c.clientBuf.limit = x.c.clientBuf.limit := hl
  refine ⟨?_, Nat.le_trans hw h.write, ?_, ?_⟩
  · rw [hl']
    exact h.limit
  · simpa only [(writeClient_moves x e).bytes, reduceCtorEq, ↓reduceIte,
      List.append_nil] using h.sent
  · simpa only [(writeClient_moves x e).bytes, reduceCtorEq, ↓reduceIte,
      List.append_nil] using h.recv

theorem Conserved.writeOrigin (h : Conserved x.c x.past) (e : Env) :
    Conserved (x.writeOrigin e).c (x.writeOrigin e).past := by
  have hb : bufferReadPtr (x.writeOrigin e).c.originBuf = _ :=
    writeToSock_readPtr e.send x.c.originBuf
  refine ⟨?_, ?_⟩
  · simp only [(writeOrigin_moves x e).bytes, reduceCtorEq, ↓reduceIte, List.append_nil, hb]
    rw [← List.append_assoc, List.append_assoc _ (List.take _ _), List.take_append_drop, h.toOrigin]
  · simp only [(writeOrigin_moves x e).bytes, reduceCtorEq, ↓reduceIte, List.append_nil]
    exact h.toClient

/-! ## Every handler -/

/-- How much of the replies `client_buf` may hold before there is an origin. -/
def replyBound : Socks5State → Option ℕ
  | .authMethod => some 0
  | .plainAuth => some 2
  | .request | .resolving | .connecting => some 4
  | .proxy | .done | .writeRemaining => none

structure Intact (st : Socks5State) (c : Client) (h : List Obs) : Prop where
  conserved : Conserved c h
  early : ∀ n, replyBound st = some n → Early n c h

theorem Intact.of_conserved {st : Socks5State} (h : Conserved x.c x.past)
    (hst : replyBound st = none) : Intact st x.c x.past :=
  ⟨h, fun n hn => by rw [hst] at hn; cases hn⟩

theorem Intact.of_early {st : Socks5State} {n : ℕ} (h : Conserved x.c x.past)
    (he : Early n x.c x.past) (hst : replyBound st = some n) : Intact st x.c x.past := by
  refine ⟨h, fun k hk => ?_⟩
  rw [hst, Option.some.injEq] at hk
  exact hk ▸ he

theorem Idle.intact {st : Socks5State} (hi : Idle x x') (h : Intact st x.c x.past) :
    Intact st x'.c x'.past := ⟨hi.conserved h.conserved, fun n hn => hi.early (h.early n hn)⟩

theorem Intact.readClient {st : Socks5State} (h : Intact st x.c x.past) (e : Env) :
    Intact st (x.readClient e).c (x.readClient e).past :=
  ⟨h.conserved.readClient e, fun n hn => (h.early n hn).readClient e⟩

theorem Intact.writeClient {st : Socks5State} (h : Intact st x.c x.past) (e : Env) :
    Intact st (x.writeClient e).c (x.writeClient e).past :=
  ⟨h.conserved.writeClient e, fun n hn => (h.early n hn).writeClient e⟩

theorem Intact.close {level : SocketEnds} (h : Intact (stmState x.c) x.c x.past) :
    let r := closeClient x level
    Intact r.2 r.1.c r.1.past := by
  have hi : Idle x (closeClient x level).1 := .closes (closeClient_closes x level)
  dsimp only
  rcases closeClient_state x level with hst | hst | hst
  · rw [hst]
    exact hi.intact h
  · rw [hst]
    exact .of_conserved (hi.conserved h.conserved) rfl
  · rw [hst]
    exact .of_conserved (hi.conserved h.conserved) rfl

/-- After the reply of an error exit nothing more is read. -/
theorem Intact.hangup (h : Conserved x.c x.past) (hends : x.c.activeEnds = clientEnds) :
    let r := closeClient x clientReadEnd
    Intact r.2 r.1.c r.1.past := by
  have hi : Idle x (closeClient x clientReadEnd).1 := .closes (closeClient_closes x clientReadEnd)
  dsimp only
  rw [hangup_state hends]
  exact .of_conserved (hi.conserved h) rfl

theorem Intact.refuse {reply : ServerReplyType} (h : Conserved x.c x.past) (he : Early 4 x.c x.past)
    (hends : x.c.activeEnds = clientEnds) :
    let r := closeClient (failReply x reply) clientReadEnd
    Intact r.2 r.1.c r.1.past :=
  .hangup (h.putReply he reply (by simp) emptyIp (0, 0)) (by exact hends)

theorem expectWrite_idle (x : Ctx) : Idle x (expectWrite x) := .of_eq rfl rfl rfl rfl

section
variable (hends : x.c.activeEnds = clientEnds)
include hends

theorem readAuthMethod_intact (hcur : x.c.current = some .authMethod)
    (h : Intact .authMethod x.c x.past) (hr : readAuthMethod e fd x = .ok r) :
    Intact r.2 r.1.c r.1.past := by
  have hst : stmState x.c = .authMethod := stmState_of_current hcur
  have hread := h.readClient e
  rcases readAuthMethod_cases hr with rfl | rfl | ⟨n, hn, v, ms, rfl⟩
  · exact Intact.close (x := x.readClient e) (hst ▸ hread)
  · rw [hst]
    exact hread
  generalize hy : (x.readClient e).consume n hn = y
  have hearly := hread.early 0 rfl
  have hc : Conserved y.c y.past := hy ▸ hread.conserved.consume hearly.sent
  have he : Early 0 y.c y.past := hy ▸ hearly.consume
  have hi : Idle y (y.log (.greeting y.id v ms y.w.users)) := ⟨.of_log rfl rfl rfl, rfl, rfl⟩
  have hreply := fun m => (hi.early he).reply (by omega) (hi.conserved hc) serverVersion m
  rcases answerGreeting_cases y v ms with ha | ⟨-, -, -, ha⟩ | ⟨-, -, ha⟩
  · rw [ha]
    exact .hangup (hreply 0xFF).1 (by rw [← hy]; exact hends)
  · rw [ha]
    obtain ⟨hc', he'⟩ := hreply 0x0
    refine (expectWrite_idle _).intact (.of_early hc' ?_ rfl)
    exact ⟨he'.limit, Nat.le_trans he'.write (by decide), he'.sent, he'.recv⟩
  · rw [ha]
    obtain ⟨hc', he'⟩ := hreply 0x2
    exact (expectWrite_idle _).intact (.of_early hc' he' rfl)

theorem readPlainAuth_intact (hcur : x.c.current = some .plainAuth)
    (h : Intact .plainAuth x.c x.past) (hr : readPlainAuth e fd x = .ok r) :
    Intact r.2 r.1.c r.1.past := by
  have hst : stmState x.c = .plainAuth := stmState_of_current hcur
  have hread := h.readClient e
  rcases readPlainAuth_cases hr with rfl | rfl | ⟨n, hn, v, user, pass, rfl⟩
  · exact Intact.close (x := x.readClient e) (hst ▸ hread)
  · rw [hst]
    exact hread
  generalize hy : (x.readClient e).consume n hn = y
  have hearly := hread.early 2 rfl
  have hc : Conserved y.c y.past := hy ▸ hread.conserved.consume hearly.sent
  have he : Early 2 y.c y.past := hy ▸ hearly.consume
  have hyends : y.c.activeEnds = clientEnds := by rw [← hy]; exact hends
  have hi : Idle y ((y.setUser (cString user)).log
      (.credentials y.id (cString user) (cString pass) y.w.users)) :=
    ⟨.of_log rfl rfl rfl, rfl, rfl⟩
  have hreply := fun m => (hi.early he).reply (by omega) (hi.conserved hc) plainAuthVersion m
  rcases answerCredentials_cases y v user pass with ha | ⟨-, ha⟩ | ⟨-, ha⟩
  · rw [ha]
    exact .hangup (he.reply (by omega) hc plainAuthVersion 0xFF).1 (by exact hyends)
  · rw [ha]
    obtain ⟨hc', he'⟩ := hreply 0x0
    exact (expectWrite_idle _).intact (.of_early hc' he' rfl)
  · rw [ha]
    exact .hangup (hreply 0x1).1 (by exact hyends)

theorem startRequest_intact {b : Buffer} {a : UInt8} {n : ℕ} (h : Conserved x.c x.past)
    (he : Early 4 x.c x.past) (hr : startRequest e b a n x = .ok r) :
    Intact r.2 r.1.c r.1.past := by
  have hi :
      ∀ addr, Idle x ((x.sel (selectorRemoveInterest x.w.selector x.c.clientSock opRead)).setAddr
      addr) := fun addr => .of_eq rfl rfl rfl rfl
  rcases startRequest_cases hr with ⟨addr, -, -, rfl⟩ | ⟨fqdn, port, -, rfl⟩ | ⟨a, -, rfl⟩
  · exact .refuse ((hi addr).conserved h) ((hi addr).early he) (by exact hends)
  · have hi' : Idle x ((x.sel (selectorRemoveInterest x.w.selector x.c.clientSock opRead)).setDest
      fqdn port) := .of_eq rfl rfl rfl rfl
    have hstart : Intact .resolving x.c x.past := .of_early h he rfl
    exact hi'.intact hstart
  · have hstart : Intact .connecting x.c x.past := .of_early h he rfl
    exact (hi (.owned a)).intact hstart

theorem readProxyRequest_intact (hcur : x.c.current = some .request)
    (h : Intact .request x.c x.past) (hr : readProxyRequest e fd x = .ok r) :
    Intact r.2 r.1.c r.1.past := by
  have hst : stmState x.c = .request := stmState_of_current hcur
  have hread :
      ∀ a, Intact .request ((x.readClient e).setAtyp a).c ((x.readClient e).setAtyp a).past := by
    intro a
    have hi : Idle (x.readClient e) ((x.readClient e).setAtyp a) := .of_eq rfl rfl rfl rfl
    exact hi.intact (h.readClient e)
  rcases readProxyRequest_cases hr with ⟨a, rfl⟩ | ⟨a, reply, -, rfl⟩ | ⟨a, n, hn, reply, -, rfl⟩ |
    ⟨a, n, k, hn, hs⟩
  · rw [hst]
    exact hread a
  · exact .refuse (hread a).conserved ((hread a).early 4 rfl) (by exact hends)
  · have he := (hread a).early 4 rfl
    exact .refuse ((hread a).conserved.consume he.sent) he.consume (by exact hends)
  · have he := (hread a).early 4 rfl
    exact startRequest_intact (by exact hends) ((hread a).conserved.consume he.sent) he.consume hs

theorem connectTo_intact (h : Conserved x.c x.past) (he : Early 4 x.c x.past)
    (hr : connectTo e fd x = .ok r) : Intact r.2 r.1.c r.1.past := by
  have hi : Idle x ((x.setOrigin fd).openSock fd) := ⟨.of_log rfl rfl rfl, rfl, rfl⟩
  have hi' : Idle x (((x.setOrigin fd).openSock fd).close fd) := hi.trans (.closes .close)
  rcases connectTo_cases hr with ⟨err, -, -, rfl⟩ | ⟨-, -, -, rfl⟩ | ⟨-, -, rfl⟩
  · exact .refuse (hi.conserved h) (hi.early he) (by exact hends)
  · exact .refuse (hi'.conserved h) (hi'.early he) (by rw [close_c]; exact hends)
  · have hstart : Intact .connecting x.c x.past := .of_early h he rfl
    exact (hi.trans (.of_eq rfl rfl rfl rfl)).intact hstart

theorem tryConnect_intact (h : Conserved x.c x.past) (he : Early 4 x.c x.past)
    (hr : tryConnect e x = .ok r) : Intact r.2 r.1.c r.1.past := by
  have hi : Idle x (x.setOrigin (-1)) := .of_eq rfl rfl rfl rfl
  obtain ⟨-, -, ⟨-, -, rfl⟩ | ⟨fd, -, hc⟩⟩ := tryConnect_cases hr
  · exact .refuse (hi.conserved h) (hi.early he) (by exact hends)
  · exact connectTo_intact hends h he hc

theorem originCheckConnection_intact (h : Intact .connecting x.c x.past)
    (hr : originCheckConnection e fd x = .ok r) : Intact r.2 r.1.c r.1.past := by
  have hc := h.conserved
  have he := h.early 4 rfl
  have hsel : ∀ s, Idle x (x.sel s) := fun s => .of_eq rfl rfl rfl rfl
  have haddr : ∀ s a, Idle x ((x.sel s).setAddr a) := fun s a => .of_eq rfl rfl rfl rfl
  rcases originCheckConnection_cases hr with ⟨-, -, -, rfl⟩ | ⟨-, ht⟩ | ⟨-, -, a, ht⟩ |
    ⟨-, err, next, -, ht⟩
  · exact .refuse ((hsel _).conserved hc) ((hsel _).early he) (by exact hends)
  · exact tryConnect_intact (by exact hends) ((hsel _).conserved hc) ((hsel _).early he) ht
  · obtain ⟨-, p, rfl⟩ := enterProxy_ok ht
    have hjoin : Idle x (joinOrigin x) := .of_eq rfl rfl rfl rfl
    have hatyp : a.family.atyp ≠ .domainName := by cases a.family <;> simp [AddrFamily.atyp]
    have hput := (hjoin.conserved hc).putReply (hjoin.early he) .succeeded hatyp e.sockname.1
      e.sockname.2
    have hp : ∀ y : Ctx, Idle y (y.setParser p) := fun y => .of_eq rfl rfl rfl rfl
    have hbound : replyBound .proxy = none := rfl
    exact Intact.of_conserved ((hp _).conserved hput) hbound
  · rcases nextAddress_cases ht with ⟨a, rest, ht⟩ | ⟨reply, -, rfl⟩
    · exact tryConnect_intact (by exact hends) ((haddr _ _).conserved hc) ((haddr _ _).early he) ht
    · exact .refuse ((hsel _).conserved hc) ((hsel _).early he) (by exact hends)

end

theorem handleProxyRead_intact (hcur : x.c.current = some .proxy) (h : Conserved x.c x.past)
    (hr : handleProxyRead e fd x = .ok r) : Intact r.2 r.1.c r.1.past := by
  have hst : ∀ y : Ctx, y.c.current = x.c.current → replyBound (stmState y.c) = none := by
    intro y hy
    rw [stmState_of_current (hy.trans hcur)]
    rfl
  have hsel : ∀ y s p, Idle y ((Ctx.sel y s).setParser p) := fun y s p => .of_eq rfl rfl rfl rfl
  have hmask : ∀ s, Idle x (x.sel s) := fun s => .of_eq rfl rfl rfl rfl
  rcases handleProxyRead_cases hr with ⟨-, ⟨-, rfl⟩ | rfl | ⟨p, rfl⟩⟩ |
    ⟨-, -, ⟨-, rfl⟩ | rfl | ⟨p, rfl⟩⟩
  · exact .of_conserved ((hmask _).conserved h) (hst x rfl)
  · exact Intact.close (.of_conserved (h.readClient e) (hst _ rfl))
  · exact .of_conserved ((hsel _ _ _).conserved (h.readClient e)) (hst x rfl)
  · exact .of_conserved ((hmask _).conserved h) (hst x rfl)
  · exact Intact.close (.of_conserved (h.readOrigin e) (hst _ rfl))
  · exact .of_conserved ((hsel _ _ _).conserved (h.readOrigin e)) (hst x rfl)

/-- Only a client that relays writes to its origin. -/
theorem handleProxyWrite_intact {st : Socks5State} (hcur : x.c.current = some st)
    (hfd : fd = x.c.originSock → fd ≠ x.c.clientSock → replyBound st = none)
    (h : Intact st x.c x.past) (hr : handleProxyWrite e fd x = .ok r) :
    Intact r.2 r.1.c r.1.past := by
  have hst := stmState_of_current hcur
  have hmask : ∀ s, Idle x (x.sel s) := fun s => .of_eq rfl rfl rfl rfl
  have hsel : ∀ y s n, Idle y ((Ctx.sel y s).addBytes n) := fun y s n => .of_eq rfl rfl rfl rfl
  rcases handleProxyWrite_cases hr with
    ⟨-, ⟨-, -, -, rfl⟩ | ⟨-, -, rfl⟩ | ⟨-, -, rfl⟩ | ⟨n, -, rfl⟩⟩ |
    ⟨hne, ho, ⟨-, -, rfl⟩ | ⟨-, -, rfl⟩ | ⟨-, -, rfl⟩ | ⟨n, -, rfl⟩⟩
  · exact Intact.close (hst ▸ h)
  · rw [hst]
    exact (hmask _).intact h
  · exact Intact.close (x := x.writeClient e) (hst ▸ h.writeClient e)
  · rw [hst]
    exact (hsel _ _ _).intact (h.writeClient e)
  · exact Intact.close (hst ▸ h)
  · rw [hst]
    exact (hmask _).intact h
  · exact Intact.close (x := x.writeOrigin e)
      (.of_conserved (h.conserved.writeOrigin e) (by rw [← hfd ho hne, ← hst]; rfl))
  · refine .of_conserved ((hsel _ _ _).conserved (h.conserved.writeOrigin e)) ?_
    rw [hst]
    exact hfd ho hne

/-! ## Runs -/

/-- A client without origin is written to on its own socket. -/
theorem Alone.write_intact {st : Socks5State} {i i' m m' : FdInterest}
    (ha : Alone x.id x.c x.w.selector i m) (hheld : Held (.socks5 x.id) x.w.selector fd i' m')
    (hcur : x.c.current = some st) (h : Intact st x.c x.past)
    (hr : handleProxyWrite e fd x = .ok r) : Intact r.2 r.1.c r.1.past :=
  handleProxyWrite_intact hcur (fun _ hne => absurd (ha.fd_eq hheld).1 hne) h hr

/-- Arriving in a state moves no bytes. -/
theorem jump_bytes {id : ClientId} {o : Outcome} (h : jump r = .ok o) (k : Flow) :
    bytesOf k (history id o.w.log) = bytesOf k (history id r.1.w.log) := by
  obtain ⟨os, hos, hlog⟩ := jump_log h
  have hnil : bytesOf k (history id os) = [] := by
    apply bytesOf_nil
    intro ob hob
    rcases hos ob (mem_history.mp hob).1 with rfl | rfl <;> rfl
  rw [hlog, history_append, bytesOf_append, hnil, List.append_nil]

/-- Only the two buffers and the bytes of the history matter. -/
theorem Intact.same {c' : Client} {st st' : Socks5State} {h' : List Obs} (hi : Intact st c h)
    (hc : c'.clientBuf = c.clientBuf) (ho : c'.originBuf = c.originBuf)
    (hst : replyBound st' = replyBound st) (hh : ∀ k, bytesOf k h' = bytesOf k h) :
    Intact st' c' h' := by
  refine ⟨⟨?_, ?_⟩, fun n hn => ?_⟩
  · rw [ho, hh, hh, hh]
    exact hi.conserved.toOrigin
  · rw [hc, hh, hh, hh]
    exact hi.conserved.toClient
  · obtain ⟨hl, hw, hs, hr⟩ := hi.early n (hst.symm.trans hn)
    refine ⟨?_, ?_, (hh _).trans hs, (hh _).trans hr⟩
    · rw [hc]
      exact hl
    · rw [hc]
      exact hw

def intact : Story where
  live _ st c h := Intact st c h
  gone _ _ := True
  current h := h.same rfl rfl rfl fun _ => rfl
  born id fd n e k hn := by
    refine ⟨⟨rfl, rfl⟩, fun m hm => ?_⟩
    cases hm
    exact ⟨hn, Nat.le_refl _, rfl, rfl⟩
  read := by
    intro x e fd i m st handler r hctl hcur _ hh hr hq h
    have hpast : r.1.past = history x.id r.1.w.log := by rw [Ctx.past, hq.id_eq]
    rw [← hpast]
    cases st with
    | authMethod => cases hh; exact readAuthMethod_intact (Alone.ends hctl) hcur h hr
    | plainAuth => cases hh; exact readPlainAuth_intact (Alone.ends hctl) hcur h hr
    | request => cases hh; exact readProxyRequest_intact (Alone.ends hctl) hcur h hr
    | proxy => cases hh; exact handleProxyRead_intact hcur h.conserved hr
    | resolving | connecting | done | writeRemaining => cases hh
  write := by
    intro x e fd i m st handler r hctl hcur hheld hh hr hq h
    have hpast : r.1.past = history x.id r.1.w.log := by rw [Ctx.past, hq.id_eq]
    rw [← hpast]
    cases st with
    | plainAuth | request | resolving => cases hh; exact Alone.write_intact hctl hheld hcur h hr
    | proxy | writeRemaining =>
      cases hh
      exact handleProxyWrite_intact hcur (fun _ _ => rfl) h hr
    | connecting => cases hh; exact originCheckConnection_intact (Connecting.ends hctl) h hr
    | authMethod | done => cases hh
  resolved _ h := h.same rfl rfl rfl fun _ => rfl
  block h := h.same rfl rfl rfl fun _ => rfl
  resolving h := h.same rfl rfl rfl fun k => by
    simp [bytesOf, Obs.flow]
  done _ := trivial

/-- Nothing is lost, repeated, reordered or altered between the two sockets of a
client, however the events of all clients interleave. -/
theorem relay_conserves_bytes (users : UserTable) (masters monitors : List ℤ) (evs : List Event)
    (id : ClientId) (c : Client)
    (hc : (exec step (boot users masters monitors) evs).heap id = some c) :
    let h := history id (exec step (boot users masters monitors) evs).w.log
    bytesOf .recvClient h =
      bytesOf .consumed h ++ (bytesOf .sentOrigin h ++ bufferReadPtr c.originBuf) ∧
    bytesOf .sentClient h ++ bufferReadPtr c.clientBuf =
      bytesOf .replied h ++ bytesOf .recvOrigin h := by
  intro h
  have hlive := ((intact.reachable users masters monitors evs).live id c hc).conserved
  refine ⟨?_, hlive.toClient⟩
  rw [← List.append_assoc]
  exact hlive.toOrigin.symm

/-- The client sends three bytes of payload, which are read but not yet sent on. -/
theorem relay_conserves_payload :
    let s := exec step (boot [] [] []) (greet 3 ++ join 3 4 ++ [readable 3 (.fine [1, 2, 3] 5)])
    ∃ c, s.heap 0 = some c ∧ bufferReadPtr c.originBuf = [1, 2, 3] ∧
      bytesOf .recvClient (history 0 s.w.log) =
        bytesOf .consumed (history 0 s.w.log) ++
          (bytesOf .sentOrigin (history 0 s.w.log) ++ [1, 2, 3]) := by
  intro s
  have hrun : (s.heap 0).map (fun c => bufferReadPtr c.originBuf) = some [1, 2, 3] := by decide
  obtain ⟨c, hc, hbuf⟩ := Option.map_eq_some_iff.mp hrun
  have hcons := (relay_conserves_bytes [] [] [] _ 0 c hc).1
  exact ⟨c, hc, hbuf, by rw [← hbuf]; exact hcons⟩

end Socks5d
