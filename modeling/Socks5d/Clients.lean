import Socks5d.Handshake

/-! # Connecting and relaying: the handlers of `clients.c` -/

namespace Socks5d

def checkConnectionError : Errno → ServerReplyType
  | .eaddrnotavail => .addressNotSupported
  | .econnreset => .notAllowed
  | .econnrefused => .connectionRefused
  | .enetunreach => .networkUnreachable
  | .ehostunreach => .hostUnreachable
  | .etimedout => .ttlExpired
  | .other => .serverFailure

/-- `socket` and `accept` return a descriptor that is not in use. -/
def freshFd (w : World) (fd : Option ℤ) : Option ℤ :=
  match fd with
  | some fd => if 0 ≤ fd ∧ w.fdTable fd = none then some fd else none
  | none => none

namespace Ctx

/-- A new socket of the client at descriptor `fd`. -/
def openSock (x : Ctx) (fd : ℤ) : Ctx :=
  { x with w := { x.w with
    fdTable := Function.update x.w.fdTable fd (some x.w.nextSock)
    nextSock := x.w.nextSock + 1
    log := x.w.log ++ [.opened x.id x.w.nextSock] } }

def addBytes (x : Ctx) (n : ℤ) : Ctx :=
  { x with w := { x.w with transferredBytes := x.w.transferredBytes + UInt64.ofInt n } }

end Ctx

/-- `try_connect` from the successful `socket` on: `fd` is the new descriptor. -/
def connectTo (e : Env) (fd : ℤ) (x : Ctx) : Except Fault (Ctx × Socks5State) :=
  let x := (x.setOrigin fd).openSock fd
  match e.connect with
  | .failed err => replyAndClose x (checkConnectionError err)
  | _ =>
    let r := selectorRegister true x.w.selector fd opWrite (.socks5 x.id)
    if r.2 ≠ .success then replyAndClose (x.close fd) .serverFailure
    else .ok (x.sel r, .connecting)

/-- The assertion that there is an address, then one attempt at it. -/
def tryConnect (e : Env) (x : Ctx) : Except Fault (Ctx × Socks5State) :=
  match x.c.currAddr with
  | .null => .error .assertion
  | .freed => .error .badAddress
  | _ =>
    match freshFd x.w e.socket with
    | none => replyAndClose (x.setOrigin (-1)) .serverFailure
    | some fd => connectTo e fd x

def pop3Port : ℕ := 110

def ntohs (p : Port) : ℕ := p.1.toNat * 256 + p.2.toNat

/-- The port tested against `POP3_PORT`: it is read for IPv4 only. -/
def sniffedPort (a : AddrInfo) : ℕ :=
  match a.family with
  | .inet => ntohs a.port
  | .inet6 => 0

/-- The address type a success is reported with. -/
def AddrFamily.atyp : AddrFamily → Atyp
  | .inet => .ipv4
  | .inet6 => .ipv6

/-- The ends and the interests of both sockets of a client that starts to relay. -/
def joinOrigin (x : Ctx) : Ctx :=
  let x := x.setEnds (x.c.activeEnds ||| originEnds)
  let x := x.sel (selectorSetInterest x.w.selector x.c.originSock (opRead ||| opWrite))
  x.sel (selectorSetInterest x.w.selector x.c.clientSock (opRead ||| opWrite))

/-- The branch of `origin_check_connection` for an established connection to `a`. -/
def enterProxy (e : Env) (a : AddrInfo) (x : Ctx) : Except Fault (Ctx × Socks5State) :=
  let x := joinOrigin x
  match serverReply x .succeeded a.family.atyp e.sockname.1 e.sockname.2 with
  | .error f => .error f
  | .ok x =>
    let x := if sniffedPort a = pop3Port then
      x.setParser (if e.mallocParser then some newParser else none) else x
    .ok (x, .proxy)

/-- The branch for a failed attempt: `next` is the rest of the address list. -/
def nextAddress (e : Env) (err : Errno) (next : List AddrInfo) (x : Ctx) :
    Except Fault (Ctx × Socks5State) :=
  let x := x.sel (selectorUnregisterFd x.w.selector x.c.originSock)
  match next with
  | a :: rest => tryConnect e (x.setAddr (.resolved a rest))
  | [] => replyAndClose x (checkConnectionError err)

def originCheckConnection (e : Env) (fd : ℤ) (x : Ctx) : Except Fault (Ctx × Socks5State) :=
  if fd = x.c.clientSock then
    let x := x.sel (selectorRemoveInterest x.w.selector x.c.clientSock opWrite)
    if x.c.currAddr = .null then replyAndClose x .hostUnreachable else tryConnect e x
  else
    match e.soError, x.c.currAddr with
    | _, .null | _, .freed => .error .badAddress
    | none, .owned a => enterProxy e a x
    | none, .resolved a _ => enterProxy e a x
    | some err, .owned _ => nextAddress e err [] x
    | some err, .resolved _ next => nextAddress e err next x

def handleFinishedResolution (x : Ctx) : Ctx × Socks5State :=
  let curr := match x.c.resolution with
    | [] => CurrAddr.null
    | a :: next => .resolved a next
  (x.setAddr curr, .connecting)

namespace Ctx

/-- `read_from_sock` on the origin socket, into `client_buf`. -/
def readOrigin (x : Ctx) (e : Env) : Ctx :=
  let x' := { x with c := { x.c with clientBuf := (readFromSock e.read x.c.clientBuf).1 } }
  x'.log (.recvOrigin x.id (e.read.bytes (readSize x.c.clientBuf)))

def readOriginCount (x : Ctx) (e : Env) : ℤ := (readFromSock e.read x.c.clientBuf).2

/-- `write_to_sock` on the client socket, out of `client_buf`. -/
def writeClient (x : Ctx) (e : Env) : Ctx :=
  let x' := { x with c := { x.c with clientBuf := (writeToSock e.send x.c.clientBuf).1 } }
  x'.log (.sentClient x.id ((bufferReadPtr x.c.clientBuf).take
    (e.send.accepted (x.c.clientBuf.write - x.c.clientBuf.read))))

def writeClientLeft (x : Ctx) (e : Env) : ℤ := (writeToSock e.send x.c.clientBuf).2

/-- `write_to_sock` on the origin socket, out of `origin_buf`. -/
def writeOrigin (x : Ctx) (e : Env) : Ctx :=
  let x' := { x with c := { x.c with originBuf := (writeToSock e.send x.c.originBuf).1 } }
  x'.log (.sentOrigin x.id ((bufferReadPtr x.c.originBuf).take
    (e.send.accepted (x.c.originBuf.write - x.c.originBuf.read))))

def writeOriginLeft (x : Ctx) (e : Env) : ℤ := (writeToSock e.send x.c.originBuf).2

end Ctx

/-- `log_sniffer_info`, as far as it can fail: unlike `log_access_info` it does
not test for a null address. -/
def logSnifferInfo (c : Client) : Except Fault Unit :=
  if c.atyp = atypDomainName then
    if c.destFqdn = none then .error .badAddress else .ok ()
  else if c.currAddr = .null ∨ c.currAddr = .freed then .error .badAddress else .ok ()

/-- The client after `pop3_parse` has left parser `p`, which walked the memory of
the request buffer. -/
def Ctx.sniffed (x : Ctx) (p : Pop3Parser) : Ctx :=
  { x with c := { x.c with
    pop3Parser := some p
    originBuf := { x.c.originBuf with data := p.buf.data } } }

/-- The sniffing step after a read from the client. -/
def sniff (x : Ctx) : Except Fault Ctx :=
  match x.c.pop3Parser with
  | none => .ok x
  | some p =>
    if !x.w.dissectorState then .ok x
    else
      let r := pop3Parse p x.c.originBuf
      let x := x.sniffed r.2
      if r.1 then
        match logSnifferInfo x.c with
        | .error f => .error f
        | .ok () => .ok x
      else .ok x

/-- A parser is installed when the origin answers like a POP3 server. -/
def installParser (e : Env) (x : Ctx) : Ctx :=
  let first := x.c.clientBuf.data x.c.clientBuf.read
  if x.c.pop3Parser.isNone && (first = 0x2b || first = 0x2d) then
    x.setParser (if e.mallocParser then some newParser else none)
  else x

def handleProxyRead (e : Env) (fd : ℤ) (x : Ctx) : Except Fault (Ctx × Socks5State) :=
  if x.c.clientSock = fd then
    if !bufferCanWrite x.c.originBuf then
      .ok (x.sel (selectorMaskInterest x.w.selector x.c.clientSock opRead), stmState x.c)
    else
      let count := x.readClientCount e
      let x := x.readClient e
      if checkEOF count e.read.isAgain then .ok (closeClient x clientReadEnd)
      else
        let x := x.sel (selectorUnmaskInterest x.w.selector x.c.originSock opWrite)
        match sniff x with
        | .error f => .error f
        | .ok x => .ok (x, stmState x.c)
  else if x.c.originSock = fd then
    if !bufferCanWrite x.c.clientBuf then
      .ok (x.sel (selectorMaskInterest x.w.selector x.c.originSock opRead), stmState x.c)
    else
      let count := x.readOriginCount e
      let x := x.readOrigin e
      if checkEOF count e.read.isAgain then .ok (closeClient x originReadEnd)
      else
        let x := x.sel (selectorUnmaskInterest x.w.selector x.c.clientSock opWrite)
        .ok (installParser e x, stmState x.c)
  else .error .foreignFd

/-- The last lines of `handle_proxy_write`; `size` was offered and `left` is the
result of the write. -/
def countBytes (size : ℕ) (left : ℤ) (x : Ctx) : Ctx × Socks5State :=
  (if stmState x.c = .proxy then x.addBytes (size - left) else x, stmState x.c)

def handleProxyWrite (e : Env) (fd : ℤ) (x : Ctx) : Except Fault (Ctx × Socks5State) :=
  if x.c.clientSock = fd then
    if !bufferCanRead x.c.clientBuf then
      if !hasFlag x.c.activeEnds originReadEnd &&
          Socks5State.proxy.toNat ≤ (stmState x.c).toNat then
        .ok (closeClient x clientWriteEnd)
      else .ok (x.sel (selectorMaskInterest x.w.selector fd opWrite), stmState x.c)
    else
      let size := x.c.clientBuf.write - x.c.clientBuf.read
      let left := x.writeClientLeft e
      let x := x.writeClient e
      if left ≠ 0 && checkEOF left (e.send = .again) then .ok (closeClient x clientWriteEnd)
      else
        let x := x.sel (selectorUnmaskInterest x.w.selector x.c.originSock opRead)
        .ok (countBytes size left x)
  else if x.c.originSock = fd then
    if !bufferCanRead x.c.originBuf then
      if !hasFlag x.c.activeEnds clientReadEnd then .ok (closeClient x originWriteEnd)
      else .ok (x.sel (selectorMaskInterest x.w.selector fd opWrite), stmState x.c)
    else
      let size := x.c.originBuf.write - x.c.originBuf.read
      let left := x.writeOriginLeft e
      let x := x.writeOrigin e
      if left ≠ 0 && checkEOF left (e.send = .again) then .ok (closeClient x originWriteEnd)
      else
        let x := x.sel (selectorUnmaskInterest x.w.selector x.c.clientSock opRead)
        .ok (countBytes size left x)
  else .error .foreignFd

end Socks5d
