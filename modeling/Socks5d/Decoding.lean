import Socks5d.Messages
import Socks5d.Integrity

/-! # The handlers of the handshake against the reference decoder

Each read event of a handshake either waits, when the decoder finds no message in
the unread bytes, or consumes the message the decoder finds and acts on it. Bytes
beyond the received ones are never acted on. -/

namespace Socks5d
open EventRun Wire Memory

variable {x : Ctx} {e : Env} {fd : ℤ} {b : Buffer}

/-! ## What a handler sees of its buffer -/

theorem peek_append (pre : List UInt8) {post : List UInt8} {a : UInt8} {i : ℕ}
    (h : bufferReadPtr b = pre ++ a :: post) (hi : pre.length = i) : bufferPeek b i = a := by
  subst hi
  rw [bufferPeek_eq (by simp [h]), h]
  simp [List.getD_eq_getElem?_getD]

theorem peeks_append (pre mid : List UInt8) {post : List UInt8} {k n : ℕ}
    (h : bufferReadPtr b = pre ++ (mid ++ post)) (hk : pre.length = k) (hn : mid.length = n) :
    ((List.range n).map fun i => bufferPeek b (k + i)) = mid := by
  subst hk hn
  have hlen : (pre ++ (mid ++ post)).length = b.write - b.read := by rw [← h, bufferReadPtr_length]
  simp only [List.length_append] at hlen
  have hslice : slice b.data (b.read + pre.length) mid.length = mid := by
    have hdrop : slice b.data (b.read + pre.length) (b.write - b.read - pre.length) =
        mid ++ post := by
      rw [← slice_drop, ← bufferReadPtr, h, List.drop_left]
    rw [← slice_take (n := b.write - b.read - pre.length) (by omega), hdrop, List.take_left]
  rw [← hslice, slice_length]
  simp only [slice, bufferPeek, Nat.add_assoc]

theorem exists_split (bs : List UInt8) {n : ℕ} (h : n ≤ bs.length) :
    ∃ v rest, bs = v ++ rest ∧ v.length = n :=
  ⟨bs.take n, bs.drop n, (List.take_append_drop n bs).symm, by rw [List.length_take]; omega⟩

theorem exists_cons_cons (bs : List UInt8) (h : 2 ≤ bs.length) :
    ∃ a b tail, bs = a :: b :: tail := by
  obtain ⟨front, tail, rfl, hlen⟩ := exists_split bs h
  obtain ⟨a, b, rfl⟩ := List.length_eq_two.mp hlen
  exact ⟨a, b, tail, rfl⟩

/-- The unread bytes once the handler has read. -/
def Ctx.held (x : Ctx) (e : Env) : List UInt8 := bufferReadPtr (x.readClient e).c.originBuf

theorem Ctx.held_eq (x : Ctx) (e : Env) :
    x.held e = bufferReadPtr x.c.originBuf ++ e.read.bytes (readSize x.c.originBuf) :=
  bufferPut_readPtr (bytes_length_le _ _)

theorem available_eq (x : Ctx) (e : Env) : (x.readClient e).available = (x.held e).length := by
  rw [Ctx.held, bufferReadPtr_length, Ctx.available]

/-- The end-of-file exit of the three handlers. -/
def Ctx.eof (x : Ctx) (e : Env) : Bool := checkEOF (x.readClientCount e) e.read.isAgain

/-- The length that the source computes for the address field, which begins `n :: tail`. -/
theorem requestAddrLen_cases (atyp : UInt8) {n : UInt8} (tail : List UInt8)
    (h4 : bufferPeek b 4 = n) :
    (requestAddrLen b atyp = none ∧ ∀ d addr, ¬ Spells atyp d addr) ∨
    ∃ k, requestAddrLen b atyp = some k ∧ (∃ d addr, Spells atyp d addr) ∧
      (∀ d addr rest, Spells atyp d addr → n :: tail = addr ++ rest → addr.length = k) ∧
      (k ≤ (n :: tail).length →
        ∃ d addr rest, Spells atyp d addr ∧ n :: tail = addr ++ rest ∧ addr.length = k) := by
  unfold requestAddrLen
  rw [h4]
  split_ifs with hv4 hv6 hname
  · subst hv4
    refine .inr ⟨4, rfl, spells_iff.mpr (.inl rfl), ?_, ?_⟩
    · intro d addr rest hs _
      cases hs with
      | ipv4 hlen => exact hlen
    · intro hle
      obtain ⟨addr, rest, heq, hlen⟩ := exists_split _ hle
      exact ⟨_, addr, rest, .ipv4 hlen, heq, hlen⟩
  · subst hv6
    refine .inr ⟨16, rfl, spells_iff.mpr (.inr (.inl rfl)), ?_, ?_⟩
    · intro d addr rest hs _
      cases hs with
      | ipv6 hlen => exact hlen
    · intro hle
      obtain ⟨addr, rest, heq, hlen⟩ := exists_split _ hle
      exact ⟨_, addr, rest, .ipv6 hlen, heq, hlen⟩
  · subst hname
    -- the length of a name stands in its first byte
    refine .inr ⟨1 + n.toNat, rfl, spells_iff.mpr (.inr (.inr rfl)), ?_, ?_⟩
    · intro d addr rest hs heq
      cases hs with
      | domainName hlen =>
        rw [List.cons_append, List.cons.injEq] at heq
        rw [List.length_cons, hlen, heq.1]
        omega
    · intro hle
      rw [List.length_cons] at hle
      obtain ⟨name, rest, rfl, hlen⟩ := exists_split tail (n := n.toNat) (by omega)
      refine ⟨_, n :: name, rest, .domainName hlen, rfl, ?_⟩
      rw [List.length_cons]
      omega
  · refine .inl ⟨rfl, ?_⟩
    intro d addr hs
    rcases spells_iff.mp ⟨d, addr, hs⟩ with h | h | h
    · exact hv4 h
    · exact hv6 h
    · exact hname h

/-! ## The three handlers -/

section
variable (hfd : x.c.clientSock = fd) (hok : x.eof e = false)
include hfd hok

theorem readAuthMethod_reads :
    (decode .authMethod (x.held e) = none ∧
      readAuthMethod e fd x = .ok (x.readClient e, stmState x.c)) ∨
    ∃ version methods rest n hn,
      decode .authMethod (x.held e) = some (.greeting version methods, rest) ∧
      n + rest.length = (x.held e).length ∧
      readAuthMethod e fd x =
        .ok (answerGreeting ((x.readClient e).consume n hn) version methods) := by
  have hlen := available_eq x e
  have hr : bufferReadPtr (x.readClient e).c.originBuf = x.held e := rfl
  unfold Ctx.eof at hok
  unfold readAuthMethod
  rw [if_neg (not_not.mpr hfd)]
  dsimp only
  rw [hok, if_neg Bool.false_ne_true]
  split
  · rename_i htest
    refine .inl ⟨?_, rfl⟩
    by_contra hsome
    obtain ⟨⟨m, rest⟩, hm⟩ := Option.ne_none_iff_exists'.mp hsome
    obtain ⟨version, n, methods, hbs, hn, -⟩ := greetingReader_eq_some hm
    rw [hbs] at hr
    have hpeek : bufferPeek (x.readClient e).c.originBuf 1 = n :=
      peek_append [version] hr rfl
    rw [hpeek, hlen, hbs] at htest
    simp only [List.length_cons, List.length_append] at htest
    omega
  · rename_i htest
    rw [hlen] at htest
    obtain ⟨version, n, tail, hbs⟩ := exists_cons_cons (x.held e) (by omega)
    rw [hbs] at hr
    have hv : bufferPeek (x.readClient e).c.originBuf 0 = version := peek_append [] hr rfl
    have hpeek : bufferPeek (x.readClient e).c.originBuf 1 = n := peek_append [version] hr rfl
    rw [hpeek, hbs] at htest
    simp only [List.length_cons] at htest
    obtain ⟨methods, rest, rfl, hms⟩ := exists_split tail (n := n.toNat) (by omega)
    refine .inr ⟨version, methods, rest, n.toNat + 2, ?_, ?_, ?_, ?_⟩
    · change _ ≤ (x.readClient e).available
      rw [hlen, hbs]
      simp only [List.length_cons]
      omega
    · rw [hbs]
      exact greetingReader_cons hms
    · rw [hbs]
      simp only [List.length_cons, List.length_append]
      omega
    · simp only [hv, hpeek, peeks_append (k := 2) [version, n] methods hr rfl hms]

theorem readPlainAuth_reads :
    (decode .plainAuth (x.held e) = none ∧
      readPlainAuth e fd x = .ok (x.readClient e, stmState x.c)) ∨
    ∃ version user pass rest n hn,
      decode .plainAuth (x.held e) = some (.credentials version user pass, rest) ∧
      n + rest.length = (x.held e).length ∧
      readPlainAuth e fd x =
        .ok (answerCredentials ((x.readClient e).consume n hn) version user pass) := by
  have hlen := available_eq x e
  have hr : bufferReadPtr (x.readClient e).c.originBuf = x.held e := rfl
  -- a message is there as soon as both tests of the source pass
  have hnone : ∀ m rest, decode .plainAuth (x.held e) = some (m, rest) → ∃ n k : UInt8,
      bufferPeek (x.readClient e).c.originBuf 1 = n ∧
      bufferPeek (x.readClient e).c.originBuf (2 + n.toNat) = k ∧
      3 + n.toNat + k.toNat ≤ (x.held e).length := by
    intro m rest hm
    obtain ⟨version, n, user, k, pass, hbs, hn, hk, -⟩ := credentialsReader_eq_some hm
    rw [hbs] at hr
    refine ⟨n, k, peek_append [version] hr rfl, ?_, ?_⟩
    · apply peek_append (version :: n :: user) hr
      simp only [List.length_cons]
      omega
    · rw [hbs]
      simp only [List.length_cons, List.length_append]
      omega
  unfold Ctx.eof at hok
  unfold readPlainAuth
  rw [if_neg (not_not.mpr hfd)]
  dsimp only
  rw [hok, if_neg Bool.false_ne_true]
  split
  · rename_i htest
    refine .inl ⟨?_, rfl⟩
    by_contra hsome
    obtain ⟨⟨m, rest⟩, hm⟩ := Option.ne_none_iff_exists'.mp hsome
    obtain ⟨n, k, h1, h2, hle⟩ := hnone m rest hm
    rw [hlen, h1] at htest
    omega
  rename_i htest
  split
  · rename_i htest'
    refine .inl ⟨?_, rfl⟩
    by_contra hsome
    obtain ⟨⟨m, rest⟩, hm⟩ := Option.ne_none_iff_exists'.mp hsome
    obtain ⟨n, k, h1, h2, hle⟩ := hnone m rest hm
    rw [hlen, h1, h2] at htest'
    omega
  · rename_i htest'
    rw [hlen] at htest htest'
    obtain ⟨version, n, tail, hbs⟩ := exists_cons_cons (x.held e) (by omega)
    rw [hbs] at hr
    have hv : bufferPeek (x.readClient e).c.originBuf 0 = version := peek_append [] hr rfl
    have hpeek : bufferPeek (x.readClient e).c.originBuf 1 = n := peek_append [version] hr rfl
    rw [hpeek, hbs] at htest'
    simp only [List.length_cons] at htest'
    obtain ⟨user, tail, rfl, huser⟩ := exists_split tail (n := n.toNat) (by omega)
    rw [List.length_append] at htest'
    obtain ⟨k, tail, rfl⟩ := List.exists_cons_of_length_pos (l := tail) (by omega)
    have hu2 : (version :: n :: user).length = 2 + n.toNat := by
      simp only [List.length_cons]
      omega
    have hk : bufferPeek (x.readClient e).c.originBuf (2 + n.toNat) = k :=
      peek_append (version :: n :: user) hr hu2
    rw [hk, List.length_cons] at htest'
    obtain ⟨pass, rest, rfl, hpass⟩ := exists_split tail (n := k.toNat) (by omega)
    have hp3 : (version :: n :: (user ++ [k])).length = 3 + n.toNat := by
      simp only [List.length_cons, List.length_append, List.length_nil]
      omega
    have hu := peeks_append (k := 2) [version, n] user hr rfl huser
    have hr3 : bufferReadPtr (x.readClient e).c.originBuf =
        version :: n :: (user ++ [k]) ++ (pass ++ rest) := hr.trans (by simp)
    have hp := peeks_append (version :: n :: (user ++ [k])) pass hr3 hp3 hpass
    refine .inr ⟨version, user, pass, rest, 3 + n.toNat + k.toNat, ?_, ?_, ?_, ?_⟩
    · change _ ≤ (x.readClient e).available
      rw [hlen, hbs]
      simp only [List.length_cons, List.length_append]
      omega
    · rw [hbs]
      exact credentialsReader_cons huser hpass
    · rw [hbs]
      simp only [List.length_cons, List.length_append]
      omega
    · simp only [hv, hpeek, hk, hu, hp]

/-- A request is refused as soon as its address type is unknown. -/
theorem readProxyRequest_reads :
    (decode .request (x.held e) = none ∧
      (∀ version cmd rsv atyp n tail, x.held e = version :: cmd :: rsv :: atyp :: n :: tail →
        ∃ d addr, Spells atyp d addr) ∧
      ∃ a, readProxyRequest e fd x = .ok ((x.readClient e).setAtyp a, stmState x.c)) ∨
    (∃ version cmd rsv atyp tail, x.held e = version :: cmd :: rsv :: atyp :: tail ∧
      (∀ d addr, ¬ Spells atyp d addr) ∧
      readProxyRequest e fd x =
        replyAndClose ((x.readClient e).setAtyp atyp) .addressNotSupported) ∨
    ∃ version cmd rsv atyp d addr, ∃ q : Port, ∃ rest n hn, Spells atyp d addr ∧
      x.held e = version :: cmd :: rsv :: atyp :: (addr ++ q.1 :: q.2 :: rest) ∧
      n + rest.length = (x.held e).length ∧
      readProxyRequest e fd x =
        if cmd ≠ cmdConnect then
          replyAndClose (((x.readClient e).setAtyp atyp).consume n hn) .commandNotSupported
        else startRequest e (x.readClient e).c.originBuf atyp addr.length
          (((x.readClient e).setAtyp atyp).consume n hn) := by
  have hlen := available_eq x e
  have hr : bufferReadPtr (x.readClient e).c.originBuf = x.held e := rfl
  unfold Ctx.eof at hok
  unfold readProxyRequest
  rw [if_neg (not_not.mpr hfd)]
  dsimp only
  rw [hok, if_neg Bool.false_ne_true]
  split
  · rename_i htest
    refine .inl ⟨?_, ?_, x.c.atyp, rfl⟩
    swap
    · intro version cmd rsv atyp n tail hbs
      rw [hlen, hbs] at htest
      simp only [List.length_cons] at htest
      omega
    by_contra hsome
    obtain ⟨⟨m, rest⟩, hm⟩ := Option.ne_none_iff_exists'.mp hsome
    obtain ⟨version, cmd, rsv, atyp, d, addr, q, hs, hbs, -⟩ := requestReader_eq_some hm
    rw [hlen, hbs] at htest
    simp only [List.length_cons] at htest
    simp only [List.length_append, List.length_cons] at htest
    omega
  rename_i htest
  rw [hlen] at htest
  obtain ⟨version, cmd, tail, hbs⟩ := exists_cons_cons (x.held e) (by omega)
  rw [hbs] at htest
  simp only [List.length_cons] at htest
  obtain ⟨rsv, atyp, tail, rfl⟩ := exists_cons_cons tail (by omega)
  rw [hbs] at hr
  have h1 : bufferPeek (x.readClient e).c.originBuf 1 = cmd := peek_append [version] hr rfl
  have h3 : bufferPeek (x.readClient e).c.originBuf 3 = atyp :=
    peek_append [version, cmd, rsv] hr rfl
  rw [h3, h1]
  simp only [List.length_cons] at htest
  obtain ⟨n, tail, rfl⟩ := List.exists_cons_of_length_pos (l := tail) (by omega)
  have h4 : bufferPeek (x.readClient e).c.originBuf 4 = n :=
    peek_append [version, cmd, rsv, atyp] hr rfl
  -- the fifth byte is there, and the type decides how many more there must be
  rcases requestAddrLen_cases atyp tail h4 with
    ⟨hnone, hno⟩ | ⟨k, hk, hknown, hmax, hmin⟩
  · rw [hnone]
    exact .inr (.inl ⟨version, cmd, rsv, atyp, n :: tail, hbs, hno, rfl⟩)
  rw [hk]
  dsimp only
  have hlen' : ((x.readClient e).setAtyp atyp).available = (x.held e).length := hlen
  split
  · rename_i hwait
    refine .inl ⟨?_, ?_, atyp, rfl⟩
    swap
    · intro version' cmd' rsv' atyp' n' tail' hbs'
      rw [hbs] at hbs'
      simp only [List.cons.injEq] at hbs'
      obtain ⟨-, -, -, rfl, -⟩ := hbs'
      exact hknown
    by_contra hsome
    obtain ⟨⟨m, rest⟩, hm⟩ := Option.ne_none_iff_exists'.mp hsome
    obtain ⟨version', cmd', rsv', atyp', d, addr, q, hs, hbs', -⟩ := requestReader_eq_some hm
    have heq := hbs.symm.trans hbs'
    simp only [List.cons.injEq] at heq
    obtain ⟨-, -, -, rfl, heq⟩ := heq
    have hak := hmax d addr _ hs heq
    rw [hlen', hbs'] at hwait
    simp only [List.length_cons, List.length_append] at hwait
    omega
  · rename_i hwait
    rw [hlen', hbs] at hwait
    simp only [List.length_cons] at hwait
    obtain ⟨d, addr, tail', hs, heq, rfl⟩ := hmin (by rw [List.length_cons]; omega)
    -- the port is behind the address
    have htail : tail.length + 1 = addr.length + tail'.length := by
      rw [← List.length_append, ← heq, List.length_cons]
    obtain ⟨hi, lo, rest, rfl⟩ := exists_cons_cons tail' (by omega)
    rw [heq] at hbs
    refine .inr
      (.inr ⟨version, cmd, rsv, atyp, d, addr, (hi, lo), rest, addr.length + 6, ?_, hs, hbs, ?_,
      rfl⟩)
    · change _ ≤ (x.readClient e).available
      rw [hlen, hbs]
      simp only [List.length_cons, List.length_append]
      omega
    · rw [hbs]
      simp only [List.length_cons, List.length_append]
      omega

end

/-! ## Acting on a message -/

def AuthMethod.code : AuthMethod → UInt8
  | .noAuth => 0x0
  | .userPass => 0x2

def AuthMethod.next : AuthMethod → Socks5State
  | .noAuth => .request
  | .userPass => .plainAuth

/-- From `y` to `z` nothing more is consumed and the reply `bs` is queued. -/
structure Replies (y : Ctx) (bs : List UInt8) (z : Ctx) : Prop where
  originBuf : z.c.originBuf = y.c.originBuf
  clientBuf : bufferReadPtr z.c.clientBuf = bufferReadPtr y.c.clientBuf ++ bs
  ends : z.c.activeEnds = y.c.activeEnds

/-- The handler, entered for `y` once the message is consumed, ends in `res` as the
decision asks. The two strings of the credentials are compared as C strings. -/
def Obeys (e : Env) (y : Ctx) (res : Except Fault (Ctx × Socks5State)) : Decision → Prop
  | .method m => ∃ z, Replies y [0x05, m.code] z ∧ res = .ok (z, m.next)
  | .noMethod => ∃ z, Replies y [0x05, 0xFF] z ∧ res = .ok (closeClient z clientReadEnd)
  | .check user pass => ∃ z, z.c.socksUser = cString user ∧
    if tryCredentials y.w.users (cString user) (cString pass) then
      Replies y [0x01, 0x00] z ∧ res = .ok (z, .request)
    else Replies y [0x01, 0x01] z ∧ res = .ok (closeClient z clientReadEnd)
  | .badVersion => ∃ z, Replies y [0x01, 0xFF] z ∧ res = .ok (closeClient z clientReadEnd)
  | .resolve name port =>
    ∃ z, Replies y [] z ∧
      if e.mallocFqdn then z.c.destFqdn = some name ∧ z.c.destPort = port ∧
        res = .ok (z, .resolving)
      else res = replyAndClose z .serverFailure
  | .connect a =>
    ∃ z, Replies y [] z ∧
      if e.mallocAddrinfo && e.mallocSockaddr then
        z.c.currAddr = .owned a ∧ res = .ok (z, .connecting)
      else res = replyAndClose z .serverFailure
  | .unsupported => res = replyAndClose y .commandNotSupported

theorem chooseMethod_eq (n : ℕ) (methods : List UInt8) :
    chooseMethod n methods =
      if n = 0 then if 0x0 ∈ methods then some .noAuth else none
      else if 0x2 ∈ methods then some .userPass else none := by
  induction methods with
  | nil => simp [chooseMethod]
  | cons m methods ih =>
    have h02 : (0 : UInt8) ≠ 2 := by decide
    unfold chooseMethod
    rw [ih]
    by_cases hn : n = 0 <;> by_cases h0 : m = 0 <;> by_cases h2 : m = 2 <;>
      simp_all [eq_comm]

/-- The room a reply of two bytes needs. -/
def Roomy (x : Ctx) : Prop := x.c.clientBuf.write + 2 ≤ x.c.clientBuf.limit

theorem simpleReply_replies (h : Roomy x) (v m : UInt8) : Replies x [v, m] (simpleReply x v m) :=
  ⟨rfl, (foldl_bufferWrite (b := x.c.clientBuf) [v, m] h).1, rfl⟩

theorem Replies.expectWrite {y z : Ctx} {bs : List UInt8} (h : Replies y bs z) :
    Replies y bs (expectWrite z) := ⟨h.originBuf, h.clientBuf, h.ends⟩

theorem answerGreeting_obeys (h : Roomy x) (version : UInt8) (methods : List UInt8) :
    Obeys e x (.ok (answerGreeting x version methods))
      ((Message.greeting version methods).decision x.w.users) := by
  have hroom : ∀ o, Roomy (x.log o) := fun _ => h
  have hlog : ∀ o, (x.log o).w.users = x.w.users := fun _ => rfl
  have hreply : ∀ o m, Replies x [serverVersion, m] (simpleReply (x.log o) serverVersion m) :=
    fun o m => ⟨rfl, (simpleReply_replies (hroom o) serverVersion m).clientBuf, rfl⟩
  unfold answerGreeting Message.decision
  dsimp only
  by_cases hv : version = 0x05
  swap
  · rw [if_pos hv, if_pos (show version ≠ serverVersion from hv)]
    exact ⟨_, hreply _ 0xFF, rfl⟩
  rw [if_neg (not_not.mpr hv), if_neg (not_not.mpr (show version = serverVersion from hv)),
    hlog, chooseMethod_eq]
  by_cases hu : x.w.users = []
  · rw [hu, if_pos rfl, if_pos List.length_nil]
    split_ifs with hm
    · exact ⟨_, (hreply _ 0x0).expectWrite, rfl⟩
    · exact ⟨_, hreply _ 0xFF, rfl⟩
  · rw [if_neg hu, if_neg (by simpa using hu)]
    split_ifs with hm
    · exact ⟨_, (hreply _ 0x2).expectWrite, rfl⟩
    · exact ⟨_, hreply _ 0xFF, rfl⟩

theorem answerCredentials_obeys (h : Roomy x) (version : UInt8) (user pass : List UInt8) :
    Obeys e x (.ok (answerCredentials x version user pass))
      ((Message.credentials version user pass).decision x.w.users) := by
  by_cases hv : version = 0x01
  swap
  · simp only [Message.decision, if_neg hv, answerCredentials]
    rw [if_pos (show version ≠ plainAuthVersion from hv)]
    exact ⟨_, simpleReply_replies h plainAuthVersion 0xFF, rfl⟩
  generalize hy : (x.setUser (cString user)).log
    (.credentials x.id (cString user) (cString pass) x.w.users) = y
  have hroom : Roomy y := by
    rw [← hy]
    exact h
  have hreply : ∀ m, Replies x [plainAuthVersion, m] (simpleReply y plainAuthVersion m) := by
    intro m
    refine ⟨by rw [← hy]; rfl, (simpleReply_replies hroom plainAuthVersion m).clientBuf.trans ?_,
      by rw [← hy]; rfl⟩
    rw [← hy]
    rfl
  have huser : ∀ m, (simpleReply y plainAuthVersion m).c.socksUser = cString user := by
    intro m
    rw [← hy]
    rfl
  have hans : answerCredentials x version user pass =
      if tryCredentials x.w.users (cString user) (cString pass) then
        (expectWrite (simpleReply y plainAuthVersion 0x0), .request)
      else closeClient (simpleReply y plainAuthVersion 0x1) clientReadEnd := by
    rw [answerCredentials, if_neg (not_not.mpr (show version = plainAuthVersion from hv)), ← hy]
    rfl
  simp only [Message.decision, if_pos hv, Obeys, hans]
  split_ifs
  · exact ⟨expectWrite (simpleReply y plainAuthVersion 0x0), huser 0x0,
      (hreply 0x0).expectWrite, rfl⟩
  · exact ⟨_, huser 0x1, hreply 0x1, rfl⟩

/-- `b` is the buffer as it was before the request was consumed. -/
theorem startRequest_obeys {version cmd rsv atyp : UInt8} {d : Target} {addr rest : List UInt8}
    {q : Port} (hs : Spells atyp d addr)
    (hr : bufferReadPtr b = version :: cmd :: rsv :: atyp :: (addr ++ q.1 :: q.2 :: rest)) :
    Obeys e x (startRequest e b atyp addr.length x) (d.decision q) := by
  have hport : (bufferPeek b (4 + addr.length), bufferPeek b (5 + addr.length)) = q := by
    have hhi := peek_append (version :: cmd :: rsv :: atyp :: addr) (i := 4 + addr.length) hr
      (by simp only [List.length_cons]; omega)
    have hr' : bufferReadPtr b = version :: cmd :: rsv :: atyp :: (addr ++ [q.1]) ++ q.2 :: rest :=
      hr.trans (by simp)
    have hlo := peek_append (i := 5 + addr.length) _ hr'
      (by simp only [List.length_cons, List.length_append, List.length_nil]; omega)
    rw [hhi, hlo]
  have haddr := peeks_append (k := 4) [version, cmd, rsv, atyp] addr hr rfl rfl
  have hsel : ∀ s c, c.originBuf = x.c.originBuf → c.clientBuf = x.c.clientBuf →
      c.activeEnds = x.c.activeEnds → Replies x [] { x.sel s with c := c } := by
    intro s c ho hc he
    exact ⟨ho, by rw [List.append_nil, ← hc], he⟩
  -- the two numeric families differ in the length of the address only
  have hnumeric : ∀ family, atyp ≠ atypDomainName →
      (if atyp = atypIpv4 then AddrFamily.inet else AddrFamily.inet6) = family →
      Obeys e x (startRequest e b atyp addr.length x) (.connect ⟨family, addr, q⟩) := by
    intro family hname hfamily
    unfold startRequest
    dsimp only
    rw [if_neg hname, hport, haddr, hfamily]
    cases hai : e.mallocAddrinfo
    · exact ⟨_, hsel _ { x.c with currAddr := .null } rfl rfl rfl, by rw [hai]; rfl⟩
    cases hsa : e.mallocSockaddr
    · exact ⟨_, hsel _ { x.c with currAddr := .freed } rfl rfl rfl, by rw [hai, hsa]; rfl⟩
    · exact ⟨_, hsel _ { x.c with currAddr := .owned ⟨family, addr, q⟩ } rfl rfl rfl, by
        rw [hai, hsa]
        exact ⟨rfl, rfl⟩⟩
  cases hs with
  | ipv4 hlen => exact hnumeric .inet (by decide) rfl
  | ipv6 hlen => exact hnumeric .inet6 (by decide) rfl
  | domainName hlen =>
    rename_i n name
    have hname : ((List.range ((n :: name).length - 1)).map fun i => bufferPeek b (5 + i)) = name :=
      peeks_append [version, cmd, rsv, atypDomainName, n] name hr rfl rfl
    unfold startRequest
    dsimp only
    rw [if_pos rfl, hport, hname]
    cases hm : e.mallocFqdn
    · exact ⟨_, hsel _ x.c rfl rfl rfl, by rw [hm]; rfl⟩
    · exact ⟨_, hsel _ { x.c with destFqdn := some name, destPort := q } rfl rfl rfl, by
        rw [hm]
        exact ⟨rfl, rfl, rfl⟩⟩

/-! ## One read event -/

/-- `y` has read, and waits for more. -/
structure Awaits (x : Ctx) (e : Env) (y : Ctx) : Prop where
  id_eq : y.id = x.id
  world : y.w = (x.readClient e).w
  originBuf : y.c.originBuf = (x.readClient e).c.originBuf
  clientBuf : y.c.clientBuf = x.c.clientBuf
  current : y.c.current = x.c.current

/-- `y` has read the end of `msg` and consumed it; `rest` had come along. -/
structure Took (x : Ctx) (e : Env) (msg rest : List UInt8) (y : Ctx) : Prop where
  id_eq : y.id = x.id
  unread : bufferReadPtr y.c.originBuf = rest
  clientBuf : y.c.clientBuf = x.c.clientBuf
  ends : y.c.activeEnds = x.c.activeEnds
  users : y.w.users = x.w.users
  log : y.w.log = x.w.log ++
    [.recvClient x.id (e.read.bytes (readSize x.c.originBuf)), .consumed x.id msg]

/-- Whatever is delivered is not taken for end of file. -/
theorem eof_of_bytes (h : e.read.bytes (readSize x.c.originBuf) ≠ []) : x.eof e = false := by
  unfold Ctx.eof Ctx.readClientCount readFromSock
  cases hr : e.read with
  | data bs =>
    rw [hr] at h
    have hpos : 0 < (bs.take (readSize x.c.originBuf)).length := List.length_pos_iff.mpr h
    have h0 : ¬ ((bs.take (readSize x.c.originBuf)).length : ℤ) = 0 := by omega
    have hneg : ¬ ((bs.take (readSize x.c.originBuf)).length : ℤ) < 0 := by omega
    simp only [ReadResult.count, checkEOF, h0, hneg, decide_false, Bool.false_and, Bool.or_self]
  | again => exact absurd (by rw [hr]; rfl) h
  | error => exact absurd (by rw [hr]; rfl) h

theorem Took.consume {msg rest : List UInt8} {n : ℕ} (a : UInt8)
    (hn : n ≤ ((x.readClient e).setAtyp a).c.originBuf.write -
      ((x.readClient e).setAtyp a).c.originBuf.read)
    (hmsg : x.held e = msg ++ rest) (hlen : n + rest.length = (x.held e).length) :
    Took x e msg rest (((x.readClient e).setAtyp a).consume n hn) := by
  have hsize : msg.length = n := by
    rw [hmsg, List.length_append] at hlen
    omega
  refine ⟨rfl, ?_, rfl, rfl, rfl, ?_⟩
  · refine (bufferReadAdv_readPtr hn).trans ?_
    change (x.held e).drop n = rest
    rw [hmsg, List.drop_left' hsize]
  · change (x.w.log ++ [_]) ++ [Obs.consumed x.id ((x.held e).take n)] = _
    rw [hmsg, List.take_left' hsize, List.append_assoc]
    rfl

section
variable {st : Socks5State} {msg : List UInt8} {m : Message}
  {handler : Env → ℤ → Ctx → Except Fault (Ctx × Socks5State)}
  (hmsg : decode st msg = some (m, [])) (hh : onReadReady st = some handler)
  (hfd : x.c.clientSock = fd) (hok : x.eof e = false)
include hmsg hh hfd hok

/-- While the message is cut short the handler waits. -/
theorem handshake_waits (hcut : x.held e <+: msg) (hne : x.held e ≠ msg) :
    ∃ y, Awaits x e y ∧ handler e fd x = .ok (y, stmState x.c) := by
  have hnone := (steady_decode st).cut hmsg hcut hne
  have hself : Awaits x e (x.readClient e) := ⟨rfl, rfl, rfl, rfl, rfl⟩
  cases st with
  | authMethod =>
    cases hh
    rcases readAuthMethod_reads hfd hok with ⟨-, hr⟩ | ⟨version, methods, rest, n, hn, hsome, -, -⟩
    · exact ⟨_, hself, hr⟩
    · rw [hnone] at hsome
      cases hsome
  | plainAuth =>
    cases hh
    rcases readPlainAuth_reads hfd hok with
      ⟨-, hr⟩ | ⟨version, user, pass, rest, n, hn, hsome, -, -⟩
    · exact ⟨_, hself, hr⟩
    · rw [hnone] at hsome
      cases hsome
  | request =>
    cases hh
    rcases readProxyRequest_reads hfd hok with
      ⟨-, -, a, hr⟩ | ⟨version, cmd, rsv, atyp, tail, hbs, hno, -⟩ |
      ⟨version, cmd, rsv, atyp, d, addr, q, rest, n, hn, hs, hbs, -, -⟩
    · exact ⟨(x.readClient e).setAtyp a, ⟨rfl, rfl, rfl, rfl, rfl⟩, hr⟩
    · -- the address type of the whole message is known
      obtain ⟨version', cmd', rsv', atyp', d, addr, q, hs, hbs', -⟩ := requestReader_eq_some hmsg
      rw [hbs, hbs'] at hcut
      simp only [List.cons_prefix_cons] at hcut
      obtain ⟨-, -, -, rfl, -⟩ := hcut
      exact absurd hs (hno d addr)
    · have hsome : decode .request (x.held e) = _ := hbs ▸ requestReader_cons hs
      rw [hnone] at hsome
      cases hsome
  | resolving | connecting | proxy | done | writeRemaining => cases hmsg

end

/-- The message that is found is consumed, and what is done is the decision of the
decoder. -/
theorem handshake_decides {st : Socks5State} {rest : List UInt8} {m : Message}
    {handler : Env → ℤ → Ctx → Except Fault (Ctx × Socks5State)}
    (hdec : decode st (x.held e) = some (m, rest)) (hh : onReadReady st = some handler)
    (hfd : x.c.clientSock = fd) (hok : x.eof e = false) (hroom : Roomy x) :
    ∃ msg y, x.held e = msg ++ rest ∧ Took x e msg rest y ∧
      Obeys e y (handler e fd x) (m.decision x.w.users) := by
  obtain ⟨msg, hmsg⟩ := (steady_decode st).suffix hdec
  cases st with
  | authMethod =>
    cases hh
    rcases readAuthMethod_reads hfd hok with
      ⟨hnone, -⟩ | ⟨version, methods, rest, n, hn, hsome, hlen, hr⟩
    · rw [hdec] at hnone
      cases hnone
    · rw [hdec] at hsome
      cases hsome
      rw [hr]
      have htook : Took x e msg rest ((x.readClient e).consume n hn) :=
        Took.consume x.c.atyp hn hmsg hlen
      have hobeys :=
        answerGreeting_obeys (e := e) (x := (x.readClient e).consume n hn) hroom version
        methods
      exact ⟨msg, _, hmsg, htook, hobeys⟩
  | plainAuth =>
    cases hh
    rcases readPlainAuth_reads hfd hok with
      ⟨hnone, -⟩ | ⟨version, user, pass, rest, n, hn, hsome, hlen, hr⟩
    · rw [hdec] at hnone
      cases hnone
    · rw [hdec] at hsome
      cases hsome
      rw [hr]
      have htook : Took x e msg rest ((x.readClient e).consume n hn) :=
        Took.consume x.c.atyp hn hmsg hlen
      have hobeys :=
        answerCredentials_obeys (e := e) (x := (x.readClient e).consume n hn) hroom version
        user pass
      exact ⟨msg, _, hmsg, htook, hobeys⟩
  | request =>
    cases hh
    rcases readProxyRequest_reads hfd hok with
      ⟨hnone, -⟩ | ⟨version, cmd, rsv, atyp, tail, hbs, hno, -⟩ |
      ⟨version, cmd, rsv, atyp, d, addr, q, rest, n, hn, hs, hbs, hlen, hr⟩
    · rw [hdec] at hnone
      cases hnone
    · obtain ⟨version', cmd', rsv', atyp', d, addr, q, hs, hbs', -⟩ := requestReader_eq_some hdec
      rw [hbs'] at hbs
      simp only [List.cons.injEq] at hbs
      obtain ⟨-, -, -, rfl, -⟩ := hbs
      exact absurd hs (hno d addr)
    · have hsome : decode .request (x.held e) = _ := hbs ▸ requestReader_cons hs
      rw [hdec] at hsome
      cases hsome
      refine ⟨msg, _, hmsg, Took.consume atyp hn hmsg hlen, ?_⟩
      rw [hr]
      by_cases hcmd : cmd = 0x01
      · rw [if_neg (not_not.mpr (show cmd = cmdConnect from hcmd)), Message.decision, if_pos hcmd]
        exact startRequest_obeys hs hbs
      · rw [if_pos (show cmd ≠ cmdConnect from hcmd), Message.decision, if_neg hcmd]
        exact rfl
  | resolving | connecting | proxy | done | writeRemaining => cases hdec

end Socks5d
