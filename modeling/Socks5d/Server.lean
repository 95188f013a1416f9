import Socks5d.Lib.Run
import Socks5d.Clients

/-! # The server

The state machine engine of `stm.c` over the table `state_actions`, the accept
handlers, the resolver threads, and the dispatch of `handle_iteration`. -/

namespace Socks5d

/-- What a handler leaves: the world, and the client unless it was destroyed. -/
structure Outcome where
  w : World
  c : Option Client

def maxState : ℕ := Socks5State.writeRemaining.toNat

def startNameResolution (x : Ctx) : Ctx :=
  { x with w := { x.w with resolvers := x.id :: x.w.resolvers } }.log (.resolving x.id)

def createConnection (x : Ctx) : Ctx :=
  x.sel (selectorAddInterest x.w.selector x.c.clientSock opWrite)

/-- The structures of the client are freed; `curr_addr` is freed unless it
belongs to a resolution. -/
def clientDestroy (x : Ctx) : Except Fault Outcome :=
  if x.c.resolution = [] ∧ x.c.currAddr = .freed then .error .doubleFree
  else
    let x := x.log (.destroyed x.id)
    .ok ⟨{ x.w with proxyClientCount := x.w.proxyClientCount - 1 }, none⟩

def onArrival (st : Socks5State) (x : Ctx) : Except Fault Outcome :=
  match st with
  | .resolving => let x := startNameResolution x; .ok ⟨x.w, some x.c⟩
  | .connecting => let x := createConnection x; .ok ⟨x.w, some x.c⟩
  | .done => clientDestroy x
  | .writeRemaining => let x := enableWrite x; .ok ⟨x.w, some x.c⟩
  | .authMethod | .plainAuth | .request | .proxy => .ok ⟨x.w, some x.c⟩

def onReadReady : Socks5State → Option (Env → ℤ → Ctx → Except Fault (Ctx × Socks5State))
  | .authMethod => some readAuthMethod
  | .plainAuth => some readPlainAuth
  | .request => some readProxyRequest
  | .proxy => some handleProxyRead
  | .resolving | .connecting | .done | .writeRemaining => none

def onWriteReady : Socks5State → Option (Env → ℤ → Ctx → Except Fault (Ctx × Socks5State))
  | .plainAuth | .request | .resolving | .proxy | .writeRemaining => some handleProxyWrite
  | .connecting => some originCheckConnection
  | .authMethod | .done => none

def onBlockReady : Socks5State → Option (Ctx → Ctx × Socks5State)
  | .resolving => some handleFinishedResolution
  | _ => none

def handleFirst (x : Ctx) : Ctx :=
  if x.c.current = none then x.setCurrent .authMethod else x

def jump (r : Ctx × Socks5State) : Except Fault Outcome :=
  if maxState < r.2.toNat then .error .badState
  else if r.1.c.current = some r.2 then .ok ⟨r.1.w, some r.1.c⟩
  else onArrival r.2 (r.1.setCurrent r.2)

def stmHandlerRead (e : Env) (fd : ℤ) (x : Ctx) : Except Fault Outcome :=
  let x := handleFirst x
  match onReadReady (stmState x.c) with
  | none => .error (.noReadReady (stmState x.c))
  | some h => match h e fd x with
    | .error f => .error f
    | .ok r => jump r

def stmHandlerWrite (e : Env) (fd : ℤ) (x : Ctx) : Except Fault Outcome :=
  let x := handleFirst x
  match onWriteReady (stmState x.c) with
  | none => .error (.noWriteReady (stmState x.c))
  | some h => match h e fd x with
    | .error f => .error f
    | .ok r => jump r

/-- What an event can come to: there is no handler for it, the handler fails, or the machine
jumps. -/
theorem stmHandlerRead_runs {e : Env} {fd : ℤ} {x : Ctx} {st : Socks5State}
    (hst : stmState (handleFirst x).c = st) :
    (onReadReady st = none ∧ stmHandlerRead e fd x = .error (.noReadReady st)) ∨
    ∃ handler, onReadReady st = some handler ∧
      ((∃ f, handler e fd (handleFirst x) = .error f ∧ stmHandlerRead e fd x = .error f) ∨
      ∃ r, handler e fd (handleFirst x) = .ok r ∧ stmHandlerRead e fd x = jump r) := by
  subst hst
  unfold stmHandlerRead
  dsimp only
  cases onReadReady (stmState (handleFirst x).c) with
  | none => exact .inl ⟨rfl, rfl⟩
  | some handler =>
    dsimp only
    cases hr : handler e fd (handleFirst x) with
    | error f => exact .inr ⟨handler, rfl, .inl ⟨f, hr, rfl⟩⟩
    | ok r => exact .inr ⟨handler, rfl, .inr ⟨r, hr, rfl⟩⟩

theorem stmHandlerWrite_runs {e : Env} {fd : ℤ} {x : Ctx} {st : Socks5State}
    (hst : stmState (handleFirst x).c = st) :
    (onWriteReady st = none ∧ stmHandlerWrite e fd x = .error (.noWriteReady st)) ∨
    ∃ handler, onWriteReady st = some handler ∧
      ((∃ f, handler e fd (handleFirst x) = .error f ∧ stmHandlerWrite e fd x = .error f) ∨
      ∃ r, handler e fd (handleFirst x) = .ok r ∧ stmHandlerWrite e fd x = jump r) := by
  subst hst
  unfold stmHandlerWrite
  dsimp only
  cases onWriteReady (stmState (handleFirst x).c) with
  | none => exact .inl ⟨rfl, rfl⟩
  | some handler =>
    dsimp only
    cases hr : handler e fd (handleFirst x) with
    | error f => exact .inr ⟨handler, rfl, .inl ⟨f, hr, rfl⟩⟩
    | ok r => exact .inr ⟨handler, rfl, .inr ⟨r, hr, rfl⟩⟩

theorem stmHandlerRead_eq {e : Env} {fd : ℤ} {x : Ctx} {st : Socks5State}
    {handler : Env → ℤ → Ctx → Except Fault (Ctx × Socks5State)}
    (hst : stmState (handleFirst x).c = st) (h : onReadReady st = some handler) :
    stmHandlerRead e fd x = (handler e fd (handleFirst x)).bind jump := by
  subst hst
  unfold stmHandlerRead
  dsimp only
  rw [h]
  dsimp only
  cases handler e fd (handleFirst x) <;> rfl

theorem stmHandlerWrite_eq {e : Env} {fd : ℤ} {x : Ctx} {st : Socks5State}
    {handler : Env → ℤ → Ctx → Except Fault (Ctx × Socks5State)}
    (hst : stmState (handleFirst x).c = st) (h : onWriteReady st = some handler) :
    stmHandlerWrite e fd x = (handler e fd (handleFirst x)).bind jump := by
  subst hst
  unfold stmHandlerWrite
  dsimp only
  rw [h]
  dsimp only
  cases handler e fd (handleFirst x) <;> rfl

def stmHandlerBlock (x : Ctx) : Except Fault Outcome :=
  let x := handleFirst x
  match onBlockReady (stmState x.c) with
  | none => .error (.noBlockReady (stmState x.c))
  | some h => jump (h x)

structure Server where
  w : World
  /-- The clients that are allocated. -/
  heap : ClientId → Option Client
  nextId : ClientId
  halted : Option Fault

namespace Server

def fault (s : Server) (f : Fault) : Server := { s with halted := some f }

/-- Run a handler for client `id`, reading its structure from the heap. -/
def run (s : Server) (id : ClientId) (h : Ctx → Except Fault Outcome) : Server :=
  match s.heap id with
  | none => s.fault .staleEvent
  | some c => match h ⟨id, c, s.w⟩ with
    | .error f => s.fault f
    | .ok o => { s with w := o.w, heap := Function.update s.heap id o.c }

end Server

def createClient (sock : ℤ) (buffsize : ℕ) (e : Env) : Client where
  clientSock := sock
  originSock := -1
  atyp := 0
  clientBuf := bufferInit buffsize e.rawClient
  originBuf := bufferInit buffsize e.rawOrigin
  socksUser := [0x3f]
  activeEnds := clientEnds
  destFqdn := none
  destPort := (0, 0)
  resolution := []
  currAddr := .null
  current := none
  pop3Parser := none

/-- Neither handler counts a connection before it has room for it. -/
def addProxyClient (w : World) : Option World :=
  if w.mgmtClientCount + w.proxyClientCount * 2 ≤ 1020 - 2 then
    some { w with
      proxyClientCount := w.proxyClientCount + 1
      allConnections := w.allConnections + 1 }
  else none

def addMgmtClient (w : World) : Option World :=
  if w.mgmtClientCount + w.proxyClientCount * 2 ≤ 1020 - 1 then
    some { w with
      mgmtClientCount := w.mgmtClientCount + 1
      allConnections := w.allConnections + 1 }
  else none

def rmProxyClient (w : World) : World := { w with proxyClientCount := w.proxyClientCount - 1 }

def rmMgmtClient (w : World) : World := { w with mgmtClientCount := w.mgmtClientCount - 1 }

/-- The status of the registration is ignored, as in the source. -/
def masterReadHandler (e : Env) (s : Server) : Server :=
  match addProxyClient s.w with
  | none => s
  | some w =>
    match freshFd w e.socket with
    | none => { s with w := rmProxyClient w }
    | some fd =>
      -- a socket without a client structure is closed at once
      if !e.mallocClient then { s with w := rmProxyClient w }
      else
        let id := s.nextId
        let w := { w with
          fdTable := Function.update w.fdTable fd (some w.nextSock)
          nextSock := w.nextSock + 1
          selector := (selectorRegister true w.selector fd opRead (.socks5 id)).1
          log := w.log ++ [.accepted id w.nextSock] }
        { s with
          w := w
          heap := Function.update s.heap id (some (createClient fd w.buffsize e))
          nextId := id + 1 }

/-- `handle_mgmt_close` already lowers the counter, so the two late exits lower
it twice. -/
def mgmtMasterReadHandler (e : Env) (s : Server) : Server :=
  match addMgmtClient s.w with
  | none => s
  | some w =>
    match freshFd w e.socket with
    | none => { s with w := rmMgmtClient w }
    | some fd =>
      if !e.mallocClient then { s with w := rmMgmtClient (rmMgmtClient w) }
      else
        let r := selectorRegister true w.selector fd (opWrite ||| opRead) .mgmt
        if r.2 ≠ .success then { s with w := rmMgmtClient (rmMgmtClient w) }
        else
          { s with w := { w with
            fdTable := Function.update w.fdTable fd (some w.nextSock)
            nextSock := w.nextSock + 1
            selector := r.1 } }

/-- `handle_read` of a registration. What management connections do to the rest
of the server has events of its own. -/
def handleRead (key : Option Handler) (fd : ℤ) (e : Env) (s : Server) : Server :=
  match key with
  | some (.socks5 id) => s.run id (stmHandlerRead e fd)
  | some .master => masterReadHandler e s
  | some .monitor => mgmtMasterReadHandler e s
  | some .mgmt => s
  | none => s.fault .nullHandler

/-- `handle_write` of the entry's handler `it`, called with the attachment `key`. -/
def handleWrite (it key : Option Handler) (fd : ℤ) (e : Env) (s : Server) : Server :=
  match it, key with
  | some (.socks5 _), some (.socks5 id) => s.run id (stmHandlerWrite e fd)
  | some .mgmt, _ => s
  | some (.socks5 _), _ => s.fault .staleEvent
  | _, _ => s.fault .nullHandler

/-- The read half of the body of the loop of `handle_iteration` for descriptor `i`;
`r` is its bit in the set `pselect` returned. -/
def readHalf (i : ℕ) (r : Bool) (e : Env) (s : Server) : Server :=
  let item := s.w.selector.fds i
  if r && item.interest.read then handleRead item.data item.fd e s else s

/-- The write half: the interest is that of the entry as it is now, but `fd` and
`key` were read before the read half ran. -/
def writeHalf (i : ℕ) (fd : ℤ) (key : Option Handler) (w : Bool) (e : Env) (s : Server) : Server :=
  let item := s.w.selector.fds i
  if s.halted.isNone && w && item.interest.write then handleWrite item.data key fd e s else s

def dispatch (i : ℕ) (r w : Bool) (er ew : Env) (s : Server) : Server :=
  let item := s.w.selector.fds i
  if !itemUsed item then s else writeHalf i item.fd item.data w ew (readHalf i r er s)

/-- The resolver of client `id` ends: `addrs` is empty when `getaddrinfo` fails. -/
def threadNameResolution (id : ClientId) (addrs : List AddrInfo) (s : Server) : Server :=
  if id ∉ s.w.resolvers then s
  else
    match s.heap id with
    | none => s.fault .staleResolver
    | some c =>
      { s with
        w := { s.w with
          resolvers := s.w.resolvers.erase id
          resolutionJobs := ⟨c.clientSock, id⟩ :: s.w.resolutionJobs }
        heap := Function.update s.heap id (some { c with resolution := addrs }) }

/-- One turn of the loop of `handle_block_notifications`. -/
def handleBlockNotifications (s : Server) : Server :=
  match s.w.resolutionJobs with
  | [] => s
  | j :: jobs =>
    let s : Server := { s with w := { s.w with resolutionJobs := jobs } }
    match item? s.w.selector j.fd with
    | none => s
    | some it => match it.data with
      | some (.socks5 id) => s.run id stmHandlerBlock
      | _ => s.fault .nullHandler

def minSocksBuffsize : ℕ := 512
def maxSocksBuffsize : ℕ := 10241

inductive Event
  | dispatch (i : ℕ) (r w : Bool) (er ew : Env)
  | resolved (id : ClientId) (addrs : List AddrInfo)
  | notify
  /-- The management commands that change what SOCKS clients see. -/
  | addUser (userpass : List UInt8)
  | setBuffsize (size : ℕ)
  | setDissector (state : Bool)
  /-- A management connection on `fd` ends. -/
  | mgmtClose (fd : ℤ)

def mgmtClose (fd : ℤ) (s : Server) : Server :=
  match item? s.w.selector fd with
  | some it =>
    if it.data = some .mgmt then
      { s with w := rmMgmtClient { s.w with
        fdTable := Function.update s.w.fdTable fd none
        selector := (selectorUnregisterFd s.w.selector fd).1 } }
    else s
  | none => s

/-- Nothing happens after the process has died. -/
def step (s : Server) (ev : Event) : Server :=
  if s.halted.isSome then s
  else
    match ev with
    | .dispatch i r w er ew => dispatch i r w er ew s
    | .resolved id addrs => threadNameResolution id addrs s
    | .notify => handleBlockNotifications s
    | .addUser userpass => { s with w := { s.w with users := (addUser s.w.users userpass).2.1 } }
    | .setBuffsize size =>
      if minSocksBuffsize < size ∧ size < maxSocksBuffsize then
        { s with w := { s.w with buffsize := size } }
      else s
    | .setDissector state => { s with w := { s.w with dissectorState := state } }
    | .mgmtClose fd => mgmtClose fd s

/-! ## The state in which `main` enters its loop -/

def registerAll (h : Handler) (fds : List ℤ) (s : FdSelector Handler) : FdSelector Handler :=
  fds.foldl (fun s fd => (selectorRegister true s fd opRead h).1) s

def emptySelector : FdSelector Handler :=
  (selectorNew true 1024).getD ⟨fun _ => itemInit, 0, 0, fun _ => false, fun _ => false⟩

/-- Standard input is closed first, so the first listening socket has descriptor
0; `masters` and `monitors` are the other ones. -/
def boot (users : UserTable) (masters monitors : List ℤ) : Server where
  w := {
    selector := registerAll .monitor monitors (registerAll .master (0 :: masters) emptySelector)
    fdTable := fun fd =>
      let fds := 0 :: 1 :: 2 :: masters ++ monitors
      if fd ∈ fds then some (fds.idxOf fd) else none
    nextSock := 3 + masters.length + monitors.length
    users := users
    buffsize := 2048
    dissectorState := true
    transferredBytes := 0
    allConnections := 0
    proxyClientCount := 0
    mgmtClientCount := 0
    resolvers := []
    resolutionJobs := []
    log := [] }
  heap := fun _ => none
  nextId := 0
  halted := none

/-! ## Events for examples -/

/-- Every call succeeds: `read` delivers `bs`, and a new socket gets descriptor `fd`. -/
def Env.fine (bs : List UInt8) (fd : ℤ) : Env where
  read := .data bs
  send := .sent 4096
  socket := some fd
  connect := .success
  soError := none
  sockname := ([127, 0, 0, 1], (0, 80))
  mallocClient := true
  mallocFqdn := true
  mallocAddrinfo := true
  mallocSockaddr := true
  mallocParser := true
  rawClient := fun _ => 0
  rawOrigin := fun _ => 0

def readable (i : ℕ) (e : Env) : Event := .dispatch i true false e e

def writable (i : ℕ) (e : Env) : Event := .dispatch i false true e e

/-- A client is accepted on `fd`, sends a greeting, and is answered. -/
def greet (fd : ℕ) : List Event :=
  [readable 0 (.fine [] fd), readable fd (.fine [0x5, 0x1, 0x0] fd), writable fd (.fine [] fd)]

/-- CONNECT to 127.0.0.1, port 80. -/
def connectRequest : List UInt8 := [0x5, 0x1, 0x0, 0x1, 127, 0, 0, 1, 0, 80]

/-- The client on `fd` asks for a connection, which is made on `fd'`. -/
def join (fd fd' : ℕ) : List Event :=
  [readable fd (.fine connectRequest fd), writable fd (.fine [] fd'), writable fd' (.fine [] fd')]

end Socks5d
