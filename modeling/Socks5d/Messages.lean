import Socks5d.Lib.Wire
import Socks5d.Outcomes

/-! # The messages of the handshake

The three messages a client sends, read off a list of bytes by a reference decoder
that knows nothing of buffers, and the decision that each of them calls for. Each
handler is then compared with the decoder. -/

namespace Socks5d
open Wire

inductive Target
  | ipv4 (addr : List UInt8)
  | domainName (name : List UInt8)
  | ipv6 (addr : List UInt8)
deriving DecidableEq, Repr

inductive Message
  | greeting (version : UInt8) (methods : List UInt8)
  | credentials (version : UInt8) (user pass : List UInt8)
  | request (version cmd rsv : UInt8) (target : Target) (port : Port)
deriving DecidableEq, Repr

/-- A byte with a length, and as many bytes. -/
def fieldReader : Reader UInt8 (List UInt8) := andThen item fun n => block n.toNat

def greetingReader : Reader UInt8 Message :=
  andThen item fun version => map (.greeting version) fieldReader

def credentialsReader : Reader UInt8 Message :=
  andThen item fun version => andThen fieldReader fun user =>
    map (.credentials version user) fieldReader

def targetReader (atyp : UInt8) : Reader UInt8 Target :=
  if atyp = atypIpv4 then map .ipv4 (block 4)
  else if atyp = atypIpv6 then map .ipv6 (block 16)
  else if atyp = atypDomainName then map .domainName fieldReader
  else never

/-- The port is in network order. -/
def portReader : Reader UInt8 Port := andThen item fun hi => map (fun lo => (hi, lo)) item

def requestReader : Reader UInt8 Message :=
  andThen item fun version => andThen item fun cmd => andThen item fun rsv =>
    andThen item fun atyp => andThen (targetReader atyp) fun d =>
      map (.request version cmd rsv d) portReader

/-- The message a client sends in state `st`. -/
def decode : Socks5State → Reader UInt8 Message
  | .authMethod => greetingReader
  | .plainAuth => credentialsReader
  | .request => requestReader
  | .resolving | .connecting | .proxy | .done | .writeRemaining => never

def Message.size : Message → ℕ
  | .greeting _ methods => 2 + methods.length
  | .credentials _ user pass => 3 + user.length + pass.length
  | .request _ _ _ (.ipv4 _) _ => 10
  | .request _ _ _ (.ipv6 _) _ => 22
  | .request _ _ _ (.domainName name) _ => 7 + name.length

/-- What a message asks the server to do. -/
inductive Decision
  | method (m : AuthMethod)
  | noMethod
  | check (user pass : List UInt8)
  | badVersion
  | resolve (name : List UInt8) (port : Port)
  | connect (a : AddrInfo)
  | unsupported
deriving DecidableEq, Repr

def Target.decision (port : Port) : Target → Decision
  | .ipv4 addr => .connect ⟨.inet, addr, port⟩
  | .ipv6 addr => .connect ⟨.inet6, addr, port⟩
  | .domainName name => .resolve name port

/-- Without users only "no authentication" is chosen, with users only
"user and password". The server does not look at the version and the reserved byte
of a request. -/
def Message.decision (users : UserTable) : Message → Decision
  | .greeting version methods =>
    if version ≠ 0x05 then .noMethod
    else if users = [] then if 0x0 ∈ methods then .method .noAuth else .noMethod
    else if 0x2 ∈ methods then .method .userPass else .noMethod
  | .credentials version user pass => if version = 0x01 then .check user pass else .badVersion
  | .request _ cmd _ d port => if cmd = 0x01 then d.decision port else .unsupported

/-! ## The decoder -/

theorem steady_field : Steady fieldReader := Steady.item.andThen fun _ => .block _

theorem steady_greeting : Steady greetingReader := Steady.item.andThen fun _ => steady_field.map _

theorem steady_credentials : Steady credentialsReader :=
  Steady.item.andThen fun _ => steady_field.andThen fun _ => steady_field.map _

theorem steady_target (atyp : UInt8) : Steady (targetReader atyp) := by
  unfold targetReader
  split_ifs
  · exact (Steady.block 4).map _
  · exact (Steady.block 16).map _
  · exact steady_field.map _
  · exact .never

theorem steady_port : Steady portReader := Steady.item.andThen fun _ => Steady.item.map _

theorem steady_request : Steady requestReader := by
  refine Steady.item.andThen fun _ => Steady.item.andThen fun _ => Steady.item.andThen fun _ => ?_
  exact Steady.item.andThen fun atyp => (steady_target atyp).andThen fun _ => steady_port.map _

theorem steady_decode (st : Socks5State) : Steady (decode st) := by
  cases st with
  | authMethod => exact steady_greeting
  | plainAuth => exact steady_credentials
  | request => exact steady_request
  | resolving | connecting | proxy | done | writeRemaining => exact .never

theorem item_eq_some {a : UInt8} {bs rest : List UInt8} (h : item bs = some (a, rest)) :
    bs = a :: rest := by
  cases bs with
  | nil => cases h
  | cons b bs => cases h; rfl

theorem fieldReader_eq_some {bs v rest : List UInt8} (h : fieldReader bs = some (v, rest)) :
    ∃ n, bs = n :: (v ++ rest) ∧ v.length = n.toNat := by
  obtain ⟨n, mid, hn, hv⟩ := andThen_eq_some h
  obtain ⟨hle, rfl, rfl⟩ := block_eq_some hv
  rw [item_eq_some hn]
  exact ⟨n, by rw [List.take_append_drop], by rw [List.length_take]; omega⟩

theorem greetingReader_eq_some {bs rest : List UInt8} {m : Message}
    (h : greetingReader bs = some (m, rest)) :
    ∃ version n methods, bs = version :: n :: (methods ++ rest) ∧ methods.length = n.toNat ∧
      m = .greeting version methods := by
  obtain ⟨version, mid, hv, hm⟩ := andThen_eq_some h
  obtain ⟨methods, hf, rfl⟩ := map_eq_some hm
  obtain ⟨n, rfl, hlen⟩ := fieldReader_eq_some hf
  rw [item_eq_some hv]
  exact ⟨version, n, methods, rfl, hlen, rfl⟩

theorem credentialsReader_eq_some {bs rest : List UInt8} {m : Message}
    (h : credentialsReader bs = some (m, rest)) :
    ∃ version n user k pass, bs = version :: n :: (user ++ k :: (pass ++ rest)) ∧
      user.length = n.toNat ∧ pass.length = k.toNat ∧ m = .credentials version user pass := by
  obtain ⟨version, mid, hv, hm⟩ := andThen_eq_some h
  obtain ⟨user, mid', hu, hm⟩ := andThen_eq_some hm
  obtain ⟨pass, hp, rfl⟩ := map_eq_some hm
  obtain ⟨n, rfl, hn⟩ := fieldReader_eq_some hu
  obtain ⟨k, rfl, hk⟩ := fieldReader_eq_some hp
  rw [item_eq_some hv]
  exact ⟨version, n, user, k, pass, rfl, hn, hk, rfl⟩

/-- How the address field of a request spells a target. -/
inductive Spells : UInt8 → Target → List UInt8 → Prop
  | ipv4 {addr : List UInt8} : addr.length = 4 → Spells atypIpv4 (.ipv4 addr) addr
  | ipv6 {addr : List UInt8} : addr.length = 16 → Spells atypIpv6 (.ipv6 addr) addr
  | domainName {n : UInt8} {name : List UInt8} : name.length = n.toNat →
    Spells atypDomainName (.domainName name) (n :: name)

theorem spells_iff {atyp : UInt8} :
    (∃ d addr, Spells atyp d addr) ↔ atyp = atypIpv4 ∨ atyp = atypIpv6 ∨ atyp = atypDomainName := by
  constructor
  · rintro ⟨d, addr, hs⟩
    cases hs with
    | ipv4 _ => exact .inl rfl
    | ipv6 _ => exact .inr (.inl rfl)
    | domainName _ => exact .inr (.inr rfl)
  · rintro (rfl | rfl | rfl)
    · exact ⟨_, List.replicate 4 0, .ipv4 rfl⟩
    · exact ⟨_, List.replicate 16 0, .ipv6 rfl⟩
    · exact ⟨_, [0], @Spells.domainName 0 [] rfl⟩

theorem targetReader_eq_some {atyp : UInt8} {bs rest : List UInt8} {d : Target}
    (h : targetReader atyp bs = some (d, rest)) :
    ∃ addr, Spells atyp d addr ∧ bs = addr ++ rest := by
  unfold targetReader at h
  split_ifs at h with h4 h6 hd
  · obtain ⟨addr, hb, rfl⟩ := map_eq_some h
    obtain ⟨hle, rfl, rfl⟩ := block_eq_some hb
    subst h4
    exact ⟨bs.take 4, .ipv4 (by rw [List.length_take]; omega), (List.take_append_drop 4 bs).symm⟩
  · obtain ⟨addr, hb, rfl⟩ := map_eq_some h
    obtain ⟨hle, rfl, rfl⟩ := block_eq_some hb
    subst h6
    exact ⟨bs.take 16, .ipv6 (by rw [List.length_take]; omega), (List.take_append_drop 16 bs).symm⟩
  · obtain ⟨name, hf, rfl⟩ := map_eq_some h
    obtain ⟨n, rfl, hn⟩ := fieldReader_eq_some hf
    subst hd
    exact ⟨n :: name, .domainName hn, rfl⟩
  · cases h

theorem portReader_eq_some {bs rest : List UInt8} {q : Port} (h : portReader bs = some (q, rest)) :
    bs = q.1 :: q.2 :: rest := by
  obtain ⟨hi, mid, hhi, hm⟩ := andThen_eq_some h
  obtain ⟨lo, hlo, rfl⟩ := map_eq_some hm
  rw [item_eq_some hhi, item_eq_some hlo]

theorem requestReader_eq_some {bs rest : List UInt8} {m : Message}
    (h : requestReader bs = some (m, rest)) :
    ∃ version cmd rsv atyp d addr q, Spells atyp d addr ∧
      bs = version :: cmd :: rsv :: atyp :: (addr ++ q.1 :: q.2 :: rest) ∧
      m = .request version cmd rsv d q := by
  obtain ⟨version, bs1, h1, h⟩ := andThen_eq_some h
  obtain ⟨cmd, bs2, h2, h⟩ := andThen_eq_some h
  obtain ⟨rsv, bs3, h3, h⟩ := andThen_eq_some h
  obtain ⟨atyp, bs4, h4, h⟩ := andThen_eq_some h
  obtain ⟨d, bs5, h5, h⟩ := andThen_eq_some h
  obtain ⟨q, h6, rfl⟩ := map_eq_some h
  obtain ⟨addr, hs, rfl⟩ := targetReader_eq_some h5
  rw [item_eq_some h1, item_eq_some h2, item_eq_some h3, item_eq_some h4, portReader_eq_some h6]
  exact ⟨version, cmd, rsv, atyp, d, addr, q, hs, rfl, rfl⟩

/-- The lengths that the header fields announce. -/
theorem decode_size {st : Socks5State} {bs rest : List UInt8} {m : Message}
    (h : decode st bs = some (m, rest)) : bs.length = m.size + rest.length := by
  cases st with
  | authMethod =>
    obtain ⟨version, n, methods, rfl, -, rfl⟩ := greetingReader_eq_some h
    simp only [List.length_cons, List.length_append, Message.size]
    omega
  | plainAuth =>
    obtain ⟨version, n, user, k, pass, rfl, -, -, rfl⟩ := credentialsReader_eq_some h
    simp only [List.length_cons, List.length_append, Message.size]
    omega
  | request =>
    obtain ⟨version, cmd, rsv, atyp, d, addr, q, hs, rfl, rfl⟩ := requestReader_eq_some h
    simp only [List.length_cons, List.length_append]
    cases hs with
    | ipv4 hlen | ipv6 hlen =>
      simp only [hlen, Message.size]
      omega
    | domainName _ =>
      simp only [List.length_cons, Message.size]
      omega
  | resolving | connecting | proxy | done | writeRemaining => cases h

/-! ## Whole messages are read -/

theorem block_append {bs rest : List UInt8} {n : ℕ} (h : bs.length = n) :
    block n (bs ++ rest) = some (bs, rest) := by
  unfold block
  rw [if_pos (by rw [List.length_append]; omega), List.take_left' h, List.drop_left' h]

theorem fieldReader_cons {n : UInt8} {v rest : List UInt8} (h : v.length = n.toNat) :
    fieldReader (n :: (v ++ rest)) = some (v, rest) := by
  simp only [fieldReader, andThen, item, block_append h]

theorem greetingReader_cons {version n : UInt8} {methods rest : List UInt8}
    (h : methods.length = n.toNat) :
    greetingReader (version :: n :: (methods ++ rest)) =
      some (.greeting version methods, rest) := by
  simp only [greetingReader, andThen, item, map, fieldReader_cons h]

theorem credentialsReader_cons {version n k : UInt8} {user pass rest : List UInt8}
    (hn : user.length = n.toNat) (hk : pass.length = k.toNat) :
    credentialsReader (version :: n :: (user ++ k :: (pass ++ rest))) =
      some (.credentials version user pass, rest) := by
  simp only [credentialsReader, andThen, item, map, fieldReader_cons hn, fieldReader_cons hk]

theorem targetReader_append {atyp : UInt8} {d : Target} {addr rest : List UInt8}
    (h : Spells atyp d addr) : targetReader atyp (addr ++ rest) = some (d, rest) := by
  cases h with
  | ipv4 hlen => simp only [targetReader, ↓reduceIte, map, block_append hlen]
  | ipv6 hlen =>
    have hne : atypIpv6 ≠ atypIpv4 := by decide
    simp only [targetReader, hne, ↓reduceIte, map, block_append hlen]
  | domainName hlen =>
    have hne4 : atypDomainName ≠ atypIpv4 := by decide
    have hne6 : atypDomainName ≠ atypIpv6 := by decide
    simp only [targetReader, hne4, hne6, ↓reduceIte, map, List.cons_append, fieldReader_cons hlen]

theorem requestReader_cons {version cmd rsv atyp hi lo : UInt8} {d : Target}
    {addr rest : List UInt8} (h : Spells atyp d addr) :
    requestReader (version :: cmd :: rsv :: atyp :: (addr ++ hi :: lo :: rest)) =
      some (.request version cmd rsv d (hi, lo), rest) := by
  simp only [requestReader, andThen, item, map, targetReader_append h, portReader]

end Socks5d
