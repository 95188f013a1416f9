import Socks5d.Lib.Layout
import Socks5d.Lib.Run
import Socks5d.Clients

/-! # Where the address of a peer is kept

`master_read_handler` copies the address that `accept` returned into `client_addr`, a
`struct sockaddr` of 16 bytes in the middle of `struct client`. An IPv6 address has 28. -/

namespace Socks5d
open CStruct Memory

/-- The members of `struct client`. -/
inductive ClientField
  | clientSock | originSock | clientAddr | atyp | clientBufRaw | originBufRaw | clientBuf |
      originBuf | socksUser
  | activeEnds | destFqdn | destPort | resolution | currAddr | stm | pop3Parser
deriving DecidableEq

namespace ClientField

/-- Sizes and alignments on x86-64. -/
def member : ClientField → Member
  | clientSock | originSock | atyp | activeEnds | destPort => ⟨4, 4, by decide⟩
  | clientAddr => ⟨16, 2, by decide⟩
  | clientBufRaw | originBufRaw | destFqdn | resolution | currAddr | stm | pop3Parser =>
    ⟨8, 8, by decide⟩
  -- four pointers
  | clientBuf | originBuf => ⟨32, 8, by decide⟩
  -- `MAX_CREDENTIALS`
  | socksUser => ⟨256, 1, by decide⟩

end ClientField

def structClient : Layout ClientField where
  members :=
    [.clientSock, .originSock, .clientAddr, .atyp, .clientBufRaw, .originBufRaw,
    .clientBuf, .originBuf, .socksUser, .activeEnds, .destFqdn, .destPort, .resolution, .currAddr,
    .stm, .pop3Parser]
  member := ClientField.member
  complete i := by cases i <;> decide

/-- The `n` bytes of a number, the lowest first. -/
def littleEndian (n v : ℕ) : List UInt8 := (List.range n).map fun k => UInt8.ofNat (v / 256 ^ k)

@[simp] theorem littleEndian_length (n v : ℕ) : (littleEndian n v).length = n := by
  simp [littleEndian]

/-- The blocks `create_client` gets from `malloc`. -/
structure ClientBlocks where
  stm : UInt64
  clientBufRaw : UInt64
  originBufRaw : UInt64

/-- `buffer_init` -/
def bufferBytes (data : UInt64) (size : ℕ) : List UInt8 :=
  littleEndian 8 data.toNat ++ littleEndian 8 (data.toNat + size) ++ littleEndian 8 data.toNat ++
    littleEndian 8 data.toNat

/-- What `create_client` gives each member. -/
def createClientValue (sock : UInt32) (buffsize : ℕ) (p : ClientBlocks) : ClientField → List UInt8
  | .clientSock => littleEndian 4 sock.toNat
  -- -1
  | .originSock => littleEndian 4 0xffffffff
  | .clientAddr => littleEndian 16 0
  | .atyp => littleEndian 4 0
  | .clientBufRaw => littleEndian 8 p.clientBufRaw.toNat
  | .originBufRaw => littleEndian 8 p.originBufRaw.toNat
  | .clientBuf => bufferBytes p.clientBufRaw buffsize
  | .originBuf => bufferBytes p.originBufRaw buffsize
  -- a question mark
  | .socksUser => littleEndian 256 0x3f
  -- `CLIENT`
  | .activeEnds => littleEndian 4 3
  | .destFqdn | .resolution | .currAddr | .pop3Parser => littleEndian 8 0
  | .destPort => littleEndian 4 0
  | .stm => littleEndian 8 p.stm.toNat

/-- The bytes of the new client; `m` is the block as `malloc` returned it. -/
def createClientBytes (sock : UInt32) (buffsize : ℕ) (p : ClientBlocks) (m : ℕ → UInt8) :
    ℕ → UInt8 :=
  structClient.setAll (createClientValue sock buffsize p) m structClient.members

/-! ## Addresses -/

/-- A `struct sockaddr_in` or a `struct sockaddr_in6`, member by member. -/
inductive PeerAddr
  | inet (port : Fin 2 → UInt8) (addr : Fin 4 → UInt8) (zero : Fin 8 → UInt8)
  | inet6 (port : Fin 2 → UInt8) (flowinfo : Fin 4 → UInt8) (addr : Fin 16 → UInt8)
      (scopeId : Fin 4 → UInt8)

/-- As it lies in `clntAddr`; the family is `AF_INET` or `AF_INET6`. -/
def PeerAddr.bytes : PeerAddr → List UInt8
  | inet port addr zero => littleEndian 2 2 ++ List.ofFn port ++ List.ofFn addr ++ List.ofFn zero
  | inet6 port flowinfo addr scopeId =>
    littleEndian 2 10 ++ List.ofFn port ++ List.ofFn flowinfo ++ List.ofFn addr ++ List.ofFn scopeId

def PeerAddr.isInet : PeerAddr → Bool
  | inet .. => true
  | inet6 .. => false

/-- What `inet_ntop` and `sprintf` are given to print. -/
inductive PrintedAddress
  | address (numeric : List UInt8) (port : ℕ)
  | unknownType
deriving DecidableEq

/-- `printSocketAddress` of the structure at `address`. -/
def printSocketAddress (m : ℕ → UInt8) (address : ℕ) : PrintedAddress :=
  let family := slice m address 2
  let port := ntohs (m (address + 2), m (address + 3))
  if family = littleEndian 2 2 then .address (slice m (address + 4) 4) port
  else if family = littleEndian 2 10 then .address (slice m (address + 8) 16) port
  else .unknownType

/-- The address and port of a peer. -/
def PeerAddr.printed : PeerAddr → PrintedAddress
  | inet port addr _ => .address (List.ofFn addr) (ntohs (port 0, port 1))
  | inet6 port _ addr _ => .address (List.ofFn addr) (ntohs (port 0, port 1))

/-- `memcpy(&(new_client)->client_addr, &clntAddr, clntAddrLen)` -/
def storePeer (m : ℕ → UInt8) (peer : PeerAddr) : ℕ → UInt8 :=
  store m (structClient.offset .clientAddr) peer.bytes

/-! ## Later -/

/-- An assignment to a member. Nothing but `master_read_handler` writes `client_addr`, and
nothing but `create_client` the three members whose blocks it allocates. -/
structure Assignment where
  field : ClientField
  value : List UInt8
  sized : value.length = structClient.size field
  later : field ≠ .clientAddr ∧ field ≠ .stm ∧ field ≠ .clientBufRaw ∧ field ≠ .originBufRaw

/-- `c->atyp = atyp` of `read_proxy_request`, where `atyp` is a byte of the request. -/
def Assignment.request (b : UInt8) : Assignment where
  field := .atyp
  value := littleEndian 4 b.toNat
  sized := by rw [littleEndian_length]; rfl
  later := by decide

def Assignment.perform (m : ℕ → UInt8) (w : Assignment) : ℕ → UInt8 :=
  structClient.set m w.field w.value

/-- The three blocks as `client_destroy` finds them. -/
def clientBlocks (m : ℕ → UInt8) : List (List UInt8) :=
  [structClient.get m .stm, structClient.get m .originBufRaw, structClient.get m .clientBufRaw]

/-- What `log_access_info` prints of `client_addr`. -/
def loggedPeer (m : ℕ → UInt8) : PrintedAddress :=
  printSocketAddress m (structClient.offset .clientAddr)

open EventRun in
/-- Every other member keeps what `create_client` gave it, the blocks are still those that
were allocated when the client is destroyed, and behind any request the peer's address and
port are logged. -/
structure PeerKept (value : ClientField → List UInt8) (m : ℕ → UInt8) (peer : PeerAddr) : Prop where
  fields : ∀ f, f ≠ .clientAddr → structClient.get m f = value f
  blocks : ∀ ws, clientBlocks (exec Assignment.perform m ws) =
    [value .stm, value .originBufRaw, value .clientBufRaw]
  logged : ∀ ws b ws', loggedPeer (exec Assignment.perform m (ws ++ .request b :: ws')) =
    peer.printed

/-! ## Proofs -/

open EventRun

variable {m : ℕ → UInt8} {f : ClientField} {peer : PeerAddr} {sock : UInt32} {buffsize : ℕ}
    {p : ClientBlocks}

theorem createClientValue_length (f : ClientField) :
    (createClientValue sock buffsize p f).length = structClient.size f := by
  cases f <;> simp [createClientValue, bufferBytes] <;> rfl

theorem get_createClientBytes (f : ClientField) :
    structClient.get (createClientBytes sock buffsize p m) f =
      createClientValue sock buffsize p f :=
  Layout.get_setAll createClientValue_length (structClient.complete f)

/-- Assignments to other members. -/
theorem get_exec_perform (hf : f = .clientAddr ∨ f = .stm ∨ f = .clientBufRaw ∨ f = .originBufRaw)
    (ws : List Assignment) :
    structClient.get (exec Assignment.perform m ws) f = structClient.get m f := by
  refine exec_invariant (P := fun m' => structClient.get m' f = structClient.get m f) rfl ?_
  intro m' w h
  have hne : w.field ≠ f := by
    obtain ⟨haddr, hstm, hclient, horigin⟩ := w.later
    rcases hf with rfl | rfl | rfl | rfl
    · exact haddr
    · exact hstm
    · exact hclient
    · exact horigin
  exact (Layout.get_set_of_ne (Nat.le_of_eq w.sized) hne).trans h

/-- What is printed of the 16 bytes of a `struct sockaddr_in`. -/
theorem loggedPeer_inet {port : Fin 2 → UInt8} {addr : Fin 4 → UInt8} {zero : Fin 8 → UInt8}
    (h : structClient.get m .clientAddr = (PeerAddr.inet port addr zero).bytes) :
    loggedPeer m = (PeerAddr.inet port addr zero).printed := by
  have hpart : ∀ {k l : ℕ}, k + l ≤ 16 → slice m (structClient.offset .clientAddr + k) l =
      ((PeerAddr.inet port addr zero).bytes.drop k).take l := by
    intro k l hle
    rw [← h]
    exact slice_inside hle
  have hfamily : slice m (structClient.offset .clientAddr) 2 = littleEndian 2 2 :=
    hpart (k := 0) (by decide)
  have hport : slice m (structClient.offset .clientAddr + 2) 2 = [port 0, port 1] :=
    hpart (by decide)
  have haddr : slice m (structClient.offset .clientAddr + 4) 4 = List.ofFn addr := hpart (by decide)
  have hhigh : m (structClient.offset .clientAddr + 2) = port 0 := (List.cons.inj hport).1
  have hlow : m (structClient.offset .clientAddr + 3) = port 1 :=
    (List.cons.inj (List.cons.inj hport).2).1
  rw [loggedPeer, printSocketAddress, hfamily, haddr, hhigh, hlow, if_pos rfl]
  rfl

theorem inet_kept {port : Fin 2 → UInt8} {addr : Fin 4 → UInt8} {zero : Fin 8 → UInt8}
    {value : ClientField → List UInt8} (hvalue : ∀ f, structClient.get m f = value f) :
    PeerKept value (storePeer m (.inet port addr zero)) (.inet port addr zero) := by
  have hlength : (PeerAddr.inet port addr zero).bytes.length = structClient.size .clientAddr := by
    simp [PeerAddr.bytes]
    rfl
  have hother : ∀ f, f ≠ .clientAddr →
      structClient.get (storePeer m (.inet port addr zero)) f = value f := by
    intro f hf
    exact (Layout.get_set_of_ne (Nat.le_of_eq hlength) (Ne.symm hf)).trans (hvalue f)
  refine ⟨hother, ?_, ?_⟩
  · intro ws
    rw [clientBlocks, get_exec_perform (by simp), get_exec_perform (by simp),
      get_exec_perform (by simp), hother _ (by decide), hother _ (by decide), hother _ (by decide)]
  · intro ws b ws'
    apply loggedPeer_inet
    rw [get_exec_perform (.inl rfl)]
    exact Layout.get_set_self hlength

/-- A request changes the ninth byte of an IPv6 address. -/
theorem loggedPeer_inet6 {port : Fin 2 → UInt8} {flowinfo : Fin 4 → UInt8} {addr : Fin 16 → UInt8}
    {scopeId : Fin 4 → UInt8} (b : UInt8) :
    ∃ numeric n,
      loggedPeer
        (Assignment.perform (storePeer m (.inet6 port flowinfo addr scopeId)) (.request b)) =
      .address numeric n ∧ numeric[8]? = some b := by
  set peer := PeerAddr.inet6 port flowinfo addr scopeId with hpeer
  set m' := Assignment.perform (storePeer m peer) (.request b) with hm'
  have hlength : peer.bytes.length = 28 := by simp [hpeer, PeerAddr.bytes]
  -- the address type is stored behind the family, over the ninth byte
  have hfamily : slice m' (structClient.offset .clientAddr) 2 = littleEndian 2 10 := by
    have hle : structClient.offset .clientAddr + 2 ≤ structClient.offset .atyp := by decide
    have hbelow : slice m' (structClient.offset .clientAddr) 2 =
        slice (storePeer m peer) (structClient.offset .clientAddr) 2 := slice_store_below _ hle
    have hself : slice (storePeer m peer) (structClient.offset .clientAddr) 28 = peer.bytes := by
      rw [← hlength]
      exact slice_store_self _
    rw [hbelow, ← slice_take (show 2 ≤ 28 by decide), hself]
    rfl
  have hatyp : structClient.get m' .atyp = littleEndian 4 b.toNat :=
    Layout.get_set_self (Assignment.request b).sized
  have hfirst : m' (structClient.offset .atyp) = b := by
    have hhead := congrArg (fun l => l[0]?) hatyp
    have hlow : (littleEndian 4 b.toNat)[0]? = some b := by simp [littleEndian]
    rw [Layout.get] at hhead
    rw [slice_getElem? (by decide), hlow] at hhead
    exact Option.some.inj hhead
  refine ⟨slice m' (structClient.offset .clientAddr + 8) 16,
    ntohs (m' (structClient.offset .clientAddr + 2), m' (structClient.offset .clientAddr + 3)),
    ?_, ?_⟩
  · rw [loggedPeer, printSocketAddress, hfamily, if_neg (by decide), if_pos rfl]
  · rw [slice_getElem? (by decide)]
    exact congrArg some hfirst

/-- The address of a peer is kept if and only if it is an IPv4 one. -/
theorem peer_address_kept_iff (sock : UInt32) (buffsize : ℕ) (p : ClientBlocks) (m : ℕ → UInt8)
    (peer : PeerAddr) :
    PeerKept (createClientValue sock buffsize p)
      (storePeer (createClientBytes sock buffsize p m) peer) peer ↔
      peer.isInet = true := by
  cases peer with
  | inet port addr zero => exact iff_of_true (inet_kept get_createClientBytes) rfl
  | inet6 port flowinfo addr scopeId =>
    refine iff_of_false (fun h => ?_) (by simp [PeerAddr.isInet])
    have hbyte : ∀ b : UInt8, addr 8 = b := by
      intro b
      obtain ⟨numeric, n, hlog, hb⟩ := loggedPeer_inet6 (m := createClientBytes sock buffsize p m) b
      have hprinted : PrintedAddress.address numeric n = .address (List.ofFn addr) _ :=
        hlog.symm.trans (h.logged [] b [])
      rw [(PrintedAddress.address.inj hprinted).1] at hb
      exact Option.some.inj hb
    exact absurd ((hbyte 1).symm.trans (hbyte 3)) (by decide)

/-- ::1, port 1080 -/
def loopback6 : PeerAddr :=
  .inet6 (fun i => if i = 0 then 4 else 0x38) (fun _ => 0) (fun i => if i = 15 then 1 else 0)
    (fun _ => 0)

def someBlocks : ClientBlocks := ⟨0x555500001000, 0x555500002000, 0x555500003000⟩

/-- The low half of `client_buf_raw` is lost, and another address is logged. -/
theorem loopback6_is_not_kept :
    let m := storePeer (createClientBytes 3 2048 someBlocks fun _ => 0) loopback6
    structClient.get m .clientBufRaw = littleEndian 8 0x555500000000 ∧
      loggedPeer (Assignment.perform m (.request 1)) =
        .address [0, 0, 0, 0, 0, 0, 0, 0, 1, 0, 0, 0, 0, 0, 0, 1] 1080 ∧
      ¬ PeerKept (createClientValue 3 2048 someBlocks) m loopback6 := by
  intro m
  have hraw : structClient.get m .clientBufRaw = littleEndian 8 0x555500000000 := by decide +kernel
  refine ⟨hraw, by decide +kernel, fun h => ?_⟩
  have hfield := h.fields .clientBufRaw (by decide)
  rw [hraw] at hfield
  exact absurd hfield (by decide +kernel)

end Socks5d
