import Socks5d.Selector
import Socks5d.Users
import Socks5d.Pop3Sniffer

/-! # Clients and the world they run in

The structures of `clients.h` and `state.c`, the descriptor table of the kernel,
the outcomes of system calls, and `closeClient`. -/

namespace Socks5d

inductive Socks5State
  | authMethod | plainAuth | request | resolving | connecting | proxy | done | writeRemaining
deriving DecidableEq, Repr

/-- The value of the constant in `enum socks5_states`. -/
def Socks5State.toNat : Socks5State → ℕ
  | .authMethod => 0
  | .plainAuth => 1
  | .request => 2
  | .resolving => 3
  | .connecting => 4
  | .proxy => 5
  | .done => 6
  | .writeRemaining => 7

/-- A word of `enum socket_ends` bits. -/
structure SocketEnds where
  clientWrite : Bool
  clientRead : Bool
  originWrite : Bool
  originRead : Bool
deriving DecidableEq, Repr

namespace SocketEnds

instance : OrOp SocketEnds := ⟨fun a b => ⟨a.clientWrite || b.clientWrite,
  a.clientRead || b.clientRead, a.originWrite || b.originWrite, a.originRead || b.originRead⟩⟩
instance : AndOp SocketEnds := ⟨fun a b => ⟨a.clientWrite && b.clientWrite,
  a.clientRead && b.clientRead, a.originWrite && b.originWrite, a.originRead && b.originRead⟩⟩
instance : Complement SocketEnds :=
  ⟨fun a => ⟨!a.clientWrite, !a.clientRead, !a.originWrite, !a.originRead⟩⟩

end SocketEnds

def clientWriteEnd : SocketEnds := ⟨true, false, false, false⟩
def clientReadEnd : SocketEnds := ⟨false, true, false, false⟩
def clientEnds : SocketEnds := ⟨true, true, false, false⟩
def originWriteEnd : SocketEnds := ⟨false, false, true, false⟩
def originReadEnd : SocketEnds := ⟨false, false, false, true⟩
def originEnds : SocketEnds := ⟨false, false, true, true⟩

/-- A non-zero word. -/
def SocketEnds.any (x : SocketEnds) : Bool :=
  x.clientWrite || x.clientRead || x.originWrite || x.originRead

def hasFlag (x f : SocketEnds) : Bool := (x &&& f).any

section
variable (x y : SocketEnds)

@[simp] theorem SocketEnds.and_clientWrite :
    (x &&& y).clientWrite = (x.clientWrite && y.clientWrite) := rfl
@[simp] theorem SocketEnds.and_clientRead :
    (x &&& y).clientRead = (x.clientRead && y.clientRead) := rfl
@[simp] theorem SocketEnds.and_originWrite :
    (x &&& y).originWrite = (x.originWrite && y.originWrite) := rfl
@[simp] theorem SocketEnds.and_originRead :
    (x &&& y).originRead = (x.originRead && y.originRead) := rfl

@[simp] theorem SocketEnds.mk_and_mk (a b c d a' b' c' d' : Bool) :
    (⟨a, b, c, d⟩ &&& ⟨a', b', c', d'⟩ : SocketEnds) = ⟨a && a', b && b', c && c', d && d'⟩ := rfl

@[simp] theorem SocketEnds.compl_mk (a b c d : Bool) :
    (~~~⟨a, b, c, d⟩ : SocketEnds) = ⟨!a, !b, !c, !d⟩ := rfl

@[simp] theorem SocketEnds.mk_or_mk (a b c d a' b' c' d' : Bool) :
    (⟨a, b, c, d⟩ ||| ⟨a', b', c', d'⟩ : SocketEnds) = ⟨a || a', b || b', c || c', d || d'⟩ := rfl

@[simp] theorem SocketEnds.or_clientWrite :
    (x ||| y).clientWrite = (x.clientWrite || y.clientWrite) := rfl
@[simp] theorem SocketEnds.or_clientRead :
    (x ||| y).clientRead = (x.clientRead || y.clientRead) := rfl
@[simp] theorem SocketEnds.or_originWrite :
    (x ||| y).originWrite = (x.originWrite || y.originWrite) := rfl
@[simp] theorem SocketEnds.or_originRead :
    (x ||| y).originRead = (x.originRead || y.originRead) := rfl

@[simp] theorem SocketEnds.compl_clientWrite : (~~~x).clientWrite = !x.clientWrite := rfl
@[simp] theorem SocketEnds.compl_clientRead : (~~~x).clientRead = !x.clientRead := rfl
@[simp] theorem SocketEnds.compl_originWrite : (~~~x).originWrite = !x.originWrite := rfl
@[simp] theorem SocketEnds.compl_originRead : (~~~x).originRead = !x.originRead := rfl

@[simp] theorem hasFlag_clientWrite : hasFlag x clientWriteEnd = x.clientWrite := by
  simp [hasFlag, SocketEnds.any, clientWriteEnd]

@[simp] theorem hasFlag_clientRead : hasFlag x clientReadEnd = x.clientRead := by
  simp [hasFlag, SocketEnds.any, clientReadEnd]

@[simp] theorem hasFlag_originWrite : hasFlag x originWriteEnd = x.originWrite := by
  simp [hasFlag, SocketEnds.any, originWriteEnd]

@[simp] theorem hasFlag_originRead : hasFlag x originReadEnd = x.originRead := by
  simp [hasFlag, SocketEnds.any, originReadEnd]

@[simp] theorem hasFlag_client : hasFlag x clientEnds = (x.clientWrite || x.clientRead) := by
  simp [hasFlag, SocketEnds.any, clientEnds]

@[simp] theorem hasFlag_reads :
    hasFlag x (clientReadEnd ||| originReadEnd) = (x.clientRead || x.originRead) := by
  simp [hasFlag, SocketEnds.any, clientReadEnd, originReadEnd]

@[simp] theorem hasFlag_origin : hasFlag x originEnds = (x.originWrite || x.originRead) := by
  simp [hasFlag, SocketEnds.any, originEnds]

end

abbrev ClientId := ℕ
abbrev SockId := ℕ

/-- Two bytes of a port as they lie in memory, in network order. -/
abbrev Port := UInt8 × UInt8

inductive AddrFamily
  | inet | inet6
deriving DecidableEq, Repr

structure AddrInfo where
  family : AddrFamily
  addr : List UInt8
  port : Port
deriving DecidableEq, Repr

/-- `c->curr_addr`: null, an address allocated by the request parser, the same
after `free`, or an element of the resolution with the rest of its list. -/
inductive CurrAddr
  | null
  | owned (a : AddrInfo)
  | freed
  | resolved (a : AddrInfo) (aiNext : List AddrInfo)
deriving DecidableEq, Repr

structure Client where
  clientSock : ℤ
  originSock : ℤ
  atyp : UInt8
  clientBuf : Buffer
  originBuf : Buffer
  socksUser : List UInt8
  activeEnds : SocketEnds
  destFqdn : Option (List UInt8)
  destPort : Port
  resolution : List AddrInfo
  currAddr : CurrAddr
  /-- `stm->current`, null before the first event. -/
  current : Option Socks5State
  pop3Parser : Option Pop3Parser

def stmState (c : Client) : Socks5State := c.current.getD .authMethod

/-- The handler and attachment of a registration. -/
inductive Handler
  | master
  | monitor
  | socks5 (id : ClientId)
  | mgmt
deriving DecidableEq, Repr

/-- What the outside can see of a client, in the order in which it happens. -/
inductive Obs
  | accepted (id : ClientId) (sock : SockId)
  | opened (id : ClientId) (sock : SockId)
  | closed (id : ClientId) (fd : ℤ) (sock : Option SockId)
  | recvClient (id : ClientId) (bs : List UInt8)
  | recvOrigin (id : ClientId) (bs : List UInt8)
  | sentClient (id : ClientId) (bs : List UInt8)
  | sentOrigin (id : ClientId) (bs : List UInt8)
  | consumed (id : ClientId) (bs : List UInt8)
  | replied (id : ClientId) (bs : List UInt8)
  | greeting (id : ClientId) (version : UInt8) (methods : List UInt8) (users : UserTable)
  | credentials (id : ClientId) (user pass : List UInt8) (users : UserTable)
  | resolving (id : ClientId)
  | destroyed (id : ClientId)
deriving DecidableEq

structure Job where
  fd : ℤ
  /-- The client whose resolver posted the job; the source keeps only `fd`. -/
  id : ClientId
deriving DecidableEq, Repr

structure World where
  selector : FdSelector Handler
  /-- The descriptor table of the process. -/
  fdTable : ℤ → Option SockId
  nextSock : SockId
  users : UserTable
  buffsize : ℕ
  dissectorState : Bool
  transferredBytes : UInt64
  allConnections : UInt64
  proxyClientCount : UInt32
  mgmtClientCount : UInt32
  /-- Clients whose resolver thread is running. -/
  resolvers : List ClientId
  resolutionJobs : List Job
  log : List Obs

/-! ## System calls -/

/-- `read` returns bytes (none at end of file), `EAGAIN` or another error. -/
inductive ReadResult
  | data (bs : List UInt8)
  | again
  | error

inductive SendResult
  | sent (n : ℕ)
  | again
  | error
deriving DecidableEq

inductive Errno
  | eaddrnotavail | econnreset | econnrefused | enetunreach | ehostunreach | etimedout | other
deriving DecidableEq, Repr

inductive ConnectResult
  | success
  | inProgress
  | failed (e : Errno)
deriving DecidableEq

/-- The outcomes of the system calls and allocations one handler may make. -/
structure Env where
  read : ReadResult
  send : SendResult
  /-- The descriptor `socket` or `accept` would return. -/
  socket : Option ℤ
  connect : ConnectResult
  soError : Option Errno
  sockname : List UInt8 × Port
  mallocClient : Bool
  mallocFqdn : Bool
  mallocAddrinfo : Bool
  mallocSockaddr : Bool
  mallocParser : Bool
  rawClient : ℕ → UInt8
  rawOrigin : ℕ → UInt8

def ReadResult.isAgain : ReadResult → Bool
  | .again => true
  | _ => false

/-- `checkEOF`; `again` tells that `errno` is `EAGAIN`. -/
def checkEOF (count : ℤ) (again : Bool) : Bool := count = 0 || (count < 0 && !again)

def socketBuffsize : ℕ := 2048

/-- The bytes `read` delivers when asked for at most `size`. -/
def ReadResult.bytes (r : ReadResult) (size : ℕ) : List UInt8 :=
  match r with
  | .data bs => bs.take size
  | _ => []

def ReadResult.count (r : ReadResult) (size : ℕ) : ℤ :=
  match r with
  | .data bs => (bs.take size).length
  | _ => -1

/-- How much `read_from_sock` asks for. -/
def readSize (b : Buffer) : ℕ := min (bufferWritePtr b) socketBuffsize

theorem bytes_length_le (r : ReadResult) (b : Buffer) :
    (r.bytes (readSize b)).length ≤ bufferWritePtr b := by
  cases r with
  | data bs =>
    have hle : (bs.take (readSize b)).length ≤ readSize b := List.length_take_le _ bs
    exact Nat.le_trans hle (Nat.min_le_left _ _)
  | again => exact Nat.zero_le _
  | error => exact Nat.zero_le _

def readFromSock (r : ReadResult) (b : Buffer) : Buffer × ℤ :=
  (bufferPut b (r.bytes (readSize b)) (bytes_length_le r b), r.count (readSize b))

/-- The number of bytes `send` accepts out of `size`. -/
def SendResult.accepted (r : SendResult) (size : ℕ) : ℕ :=
  match r with
  | .sent n => min n size
  | _ => 0

theorem accepted_le (r : SendResult) (size : ℕ) : r.accepted size ≤ size := by
  cases r with
  | sent n => exact Nat.min_le_right n size
  | again => exact Nat.zero_le _
  | error => exact Nat.zero_le _

/-- The buffer afterwards and the result: the bytes left, or -1. -/
def writeToSock (r : SendResult) (b : Buffer) : Buffer × ℤ :=
  let size := b.write - b.read
  match r with
  | .sent _ => (bufferReadAdv b (r.accepted size) (accepted_le r size), size - r.accepted size)
  | _ => (b, -1)

theorem writeToSock_readPtr (s : SendResult) (b : Buffer) :
    bufferReadPtr (writeToSock s b).1 = (bufferReadPtr b).drop (s.accepted (b.write - b.read)) := by
  cases s with
  | sent n => exact bufferReadAdv_readPtr (accepted_le _ _)
  | again => rfl
  | error => rfl

theorem writeToSock_write_le (s : SendResult) (b : Buffer) :
    (writeToSock s b).1.write ≤ b.write ∧ (writeToSock s b).1.limit = b.limit := by
  cases s with
  | sent n =>
    exact ⟨bufferReadAdv_write_le (accepted_le _ _), bufferReadAdv_limit (accepted_le _ _)⟩
  | again => exact ⟨Nat.le_refl _, rfl⟩
  | error => exact ⟨Nat.le_refl _, rfl⟩

/-- The ways in which the process dies. -/
inductive Fault
  /-- `abort()` in the state machine engine: no handler for a read, write or
  block event, or a state above `max_state`. -/
  | noReadReady (st : Socks5State)
  | noWriteReady (st : Socks5State)
  | noBlockReady (st : Socks5State)
  | badState
  /-- `abort()` in the relay: the event is for neither socket of the client. -/
  | foreignFd
  | assertion
  /-- `log_access_info` reads a null `dest_fqdn` or a freed `curr_addr`. -/
  | logAccessInfo
  /-- A missing destination is read while connecting or sniffing. -/
  | badAddress
  /-- A null function of a registration is called. -/
  | nullHandler
  /-- A freed client is used, by a socket event or by its resolver. -/
  | staleEvent
  | staleResolver
  | doubleFree
deriving DecidableEq, Repr

/-! ## Operations of a handler

A handler runs for one client `id`; `x.c` is that client and `x.w` the rest. -/

structure Ctx where
  id : ClientId
  c : Client
  w : World

namespace Ctx

def log (x : Ctx) (o : Obs) : Ctx := { x with w := { x.w with log := x.w.log ++ [o] } }

def sel (x : Ctx) (s : FdSelector Handler × SelectorStatus) : Ctx :=
  { x with w := { x.w with selector := s.1 } }

/-! Assignments to one field of the client. -/

def setOrigin (x : Ctx) (fd : ℤ) : Ctx := { x with c := { x.c with originSock := fd } }

def setAtyp (x : Ctx) (atyp : UInt8) : Ctx := { x with c := { x.c with atyp := atyp } }

def setUser (x : Ctx) (user : List UInt8) : Ctx := { x with c := { x.c with socksUser := user } }

def setAddr (x : Ctx) (addr : CurrAddr) : Ctx := { x with c := { x.c with currAddr := addr } }

def setDest (x : Ctx) (fqdn : List UInt8) (port : Port) : Ctx :=
  { x with c := { x.c with destFqdn := some fqdn, destPort := port } }

def setEnds (x : Ctx) (ends : SocketEnds) : Ctx := { x with c := { x.c with activeEnds := ends } }

def setCurrent (x : Ctx) (st : Socks5State) : Ctx := { x with c := { x.c with current := some st } }

def setParser (x : Ctx) (p : Option Pop3Parser) : Ctx :=
  { x with c := { x.c with pop3Parser := p } }

/-- `close`, with the source's test that the descriptor is positive. -/
def close (x : Ctx) (fd : ℤ) : Ctx :=
  if 0 < fd then
    { x with w := { x.w with
      fdTable := Function.update x.w.fdTable fd none
      log := x.w.log ++ [.closed x.id fd (x.w.fdTable fd)] } }
  else x

end Ctx

/-- One half of `enable_write`. Both halves unmask the client socket. -/
def wake (b : Bool) (fd : ℤ) (x : Ctx) : Ctx :=
  if b then
    let x := x.sel (selectorAddInterest x.w.selector fd opWrite)
    x.sel (selectorUnmaskInterest x.w.selector x.c.clientSock opWrite)
  else x

def enableWrite (x : Ctx) : Ctx :=
  let x := wake (hasFlag x.c.activeEnds clientWriteEnd) x.c.clientSock x
  wake (hasFlag x.c.activeEnds originWriteEnd) x.c.originSock x

/-- The removal of an interest when an end closes; `shutdown` follows it. -/
def dropInterest (b : Bool) (fd : ℤ) (i : FdInterest) (x : Ctx) : Ctx :=
  if b then x.sel (selectorRemoveInterest x.w.selector fd i) else x

/-- The end of a socket both of whose ends are closed. -/
def retire (b : Bool) (fd : ℤ) (x : Ctx) : Ctx :=
  if b then (x.sel (selectorUnregisterFd x.w.selector fd)).close fd else x

/-- One activation of `closeClient` up to its recursive calls. -/
def closeEnds (level : SocketEnds) (x : Ctx) : Ctx :=
  let x := dropInterest (hasFlag level clientReadEnd) x.c.clientSock opRead x
  let x := dropInterest (hasFlag level originWriteEnd) x.c.originSock opWrite x
  let x := dropInterest (hasFlag level clientWriteEnd) x.c.clientSock opWrite x
  let x := dropInterest (hasFlag level originReadEnd) x.c.originSock opRead x
  let x := x.setEnds (x.c.activeEnds &&& ~~~level)
  let x := retire (hasFlag level clientEnds && !hasFlag x.c.activeEnds clientEnds) x.c.clientSock x
  retire (hasFlag level originEnds && !hasFlag x.c.activeEnds originEnds) x.c.originSock x

/-- `closeClient` with a bound on the depth of its recursion. -/
def closeClientAux : ℕ → SocketEnds → Ctx → Ctx × Socks5State
  | 0, _, x => (x, stmState x.c)
  | n + 1, level, x =>
    let level := level &&& x.c.activeEnds
    let x := closeEnds level x
    if hasFlag level clientWriteEnd then closeClientAux n (clientReadEnd ||| originEnds) x
    else if hasFlag level originWriteEnd then closeClientAux n clientReadEnd x
    else if !x.c.activeEnds.any then (x, .done)
    else if !hasFlag x.c.activeEnds (clientReadEnd ||| originReadEnd) then (x, .writeRemaining)
    else (enableWrite x, stmState x.c)

/-- Each recursive call follows the closing of an end that is not closed again,
and only the two writing ends lead to one: three activations are enough. -/
def closeClient (x : Ctx) (level : SocketEnds) : Ctx × Socks5State := closeClientAux 3 level x

end Socks5d
