import Socks5d.Client

/-! # The SOCKS5 handshake of `handshake.c` -/

namespace Socks5d

def serverVersion : UInt8 := 0x05
def plainAuthVersion : UInt8 := 0x01
def emptyIp : List UInt8 := [0, 0, 0, 0]

inductive ServerReplyType
  | succeeded | serverFailure | notAllowed | networkUnreachable | hostUnreachable
  | connectionRefused | ttlExpired | commandNotSupported | addressNotSupported
deriving DecidableEq, Repr

def ServerReplyType.code : ServerReplyType → UInt8
  | .succeeded => 0
  | .serverFailure => 1
  | .notAllowed => 2
  | .networkUnreachable => 3
  | .hostUnreachable => 4
  | .connectionRefused => 5
  | .ttlExpired => 6
  | .commandNotSupported => 7
  | .addressNotSupported => 8

def atypIpv4 : UInt8 := 0x01
def atypDomainName : UInt8 := 0x03
def atypIpv6 : UInt8 := 0x04

namespace Ctx

/-- `read_from_sock` on the client socket, into `origin_buf`. -/
def readClient (x : Ctx) (e : Env) : Ctx :=
  let x' := { x with c := { x.c with originBuf := (readFromSock e.read x.c.originBuf).1 } }
  x'.log (.recvClient x.id (e.read.bytes (readSize x.c.originBuf)))

/-- The value `read_from_sock` returns there. -/
def readClientCount (x : Ctx) (e : Env) : ℤ := (readFromSock e.read x.c.originBuf).2

/-- `buffer_read_adv` over a handshake message. -/
def consume (x : Ctx) (n : ℕ) (h : n ≤ x.c.originBuf.write - x.c.originBuf.read) : Ctx :=
  let x' := { x with c := { x.c with originBuf := bufferReadAdv x.c.originBuf n h } }
  x'.log (.consumed x.id ((bufferReadPtr x.c.originBuf).take n))

/-- The number of unread bytes of `origin_buf`. -/
def available (x : Ctx) : ℕ := x.c.originBuf.write - x.c.originBuf.read

end Ctx

def simpleReply (x : Ctx) (version method : UInt8) : Ctx :=
  let b := bufferWrite (bufferWrite x.c.clientBuf version) method
  { x with c := { x.c with clientBuf := b } }.log (.replied x.id [version, method])

/-- The methods the server accepts, `0x0` and `0x2`. -/
inductive AuthMethod
  | noAuth | userPass
deriving DecidableEq, Repr

/-- The decision of the loop over the offered methods. -/
def chooseMethod (nUsers : ℕ) : List UInt8 → Option AuthMethod
  | [] => none
  | m :: ms =>
    if m = 0x0 then if nUsers ≠ 0 then chooseMethod nUsers ms else some .noAuth
    else if m = 0x2 then if nUsers = 0 then chooseMethod nUsers ms else some .userPass
    else chooseMethod nUsers ms

/-- What `read_auth_method` does with a complete greeting. -/
def answerGreeting (x : Ctx) (version : UInt8) (methods : List UInt8) : Ctx × Socks5State :=
  let x := x.log (.greeting x.id version methods x.w.users)
  if version ≠ serverVersion then closeClient (simpleReply x serverVersion 0xFF) clientReadEnd
  else
    match chooseMethod x.w.users.length methods with
    | some .noAuth =>
      let x := simpleReply x serverVersion 0x0
      (x.sel (selectorAddInterest x.w.selector x.c.clientSock opWrite), .request)
    | some .userPass =>
      let x := simpleReply x serverVersion 0x2
      (x.sel (selectorAddInterest x.w.selector x.c.clientSock opWrite), .plainAuth)
    | none => closeClient (simpleReply x serverVersion 0xFF) clientReadEnd

def readAuthMethod (e : Env) (fd : ℤ) (x : Ctx) : Except Fault (Ctx × Socks5State) :=
  if x.c.clientSock ≠ fd then .error .assertion
  else
    let count := x.readClientCount e
    let x := x.readClient e
    if checkEOF count e.read.isAgain then .ok (closeClient x clientReadEnd)
    else
      let b := x.c.originBuf
      let nMethods := (bufferPeek b 1).toNat
      if h : x.available < 2 ∨ x.available < nMethods + 2 then .ok (x, stmState x.c)
      else
        let methods := (List.range nMethods).map fun i => bufferPeek b (2 + i)
        let x := x.consume (nMethods + 2) (by unfold Ctx.available at h; omega)
        .ok (answerGreeting x (bufferPeek b 0) methods)

/-- What `read_plain_auth` does with a complete message. The copies of the two
strings end at their first zero byte. -/
def answerCredentials (x : Ctx) (version : UInt8) (user pass : List UInt8) : Ctx × Socks5State :=
  if version ≠ plainAuthVersion then
    closeClient (simpleReply x plainAuthVersion 0xFF) clientReadEnd
  else
    let x := x.setUser (cString user)
    let x := x.log (.credentials x.id (cString user) (cString pass) x.w.users)
    if tryCredentials x.w.users (cString user) (cString pass) then
      let x := simpleReply x plainAuthVersion 0x0
      (x.sel (selectorAddInterest x.w.selector x.c.clientSock opWrite), .request)
    else closeClient (simpleReply x plainAuthVersion 0x1) clientReadEnd

def readPlainAuth (e : Env) (fd : ℤ) (x : Ctx) : Except Fault (Ctx × Socks5State) :=
  if x.c.clientSock ≠ fd then .error .assertion
  else
    let count := x.readClientCount e
    let x := x.readClient e
    if checkEOF count e.read.isAgain then .ok (closeClient x clientReadEnd)
    else
      let b := x.c.originBuf
      let userLen := (bufferPeek b 1).toNat
      if x.available < 2 ∨ x.available < 2 + userLen then .ok (x, stmState x.c)
      else
        -- read before it is known to have arrived
        let passLen := (bufferPeek b (2 + userLen)).toNat
        if h : x.available < 3 + userLen + passLen then .ok (x, stmState x.c)
        else
          let user := (List.range userLen).map fun i => bufferPeek b (2 + i)
          let pass := (List.range passLen).map fun i => bufferPeek b (3 + userLen + i)
          let x := x.consume (3 + userLen + passLen) (by unfold Ctx.available at h; omega)
          .ok (answerCredentials x (bufferPeek b 0) user pass)

/-- `log_access_info`, as far as it can fail: the destination it formats. -/
def logAccessInfo (c : Client) : Except Fault Unit :=
  if c.atyp = atypDomainName then
    if c.destFqdn = none then .error .logAccessInfo else .ok ()
  else if c.currAddr = .freed then .error .logAccessInfo else .ok ()

inductive Atyp
  | ipv4 | domainName | ipv6
deriving DecidableEq, Repr

def Atyp.code : Atyp → UInt8
  | .ipv4 => atypIpv4
  | .domainName => atypDomainName
  | .ipv6 => atypIpv6

/-- The length of the address of a reply. -/
def Atyp.addrLen (atyp : Atyp) (addr : List UInt8) : ℕ :=
  match atyp with
  | .ipv4 => 4
  | .ipv6 => 16
  | .domainName => (cString addr).length

/-- The first `n` bytes of memory that starts with `addr`. -/
def takeBytes (addr : List UInt8) (n : ℕ) : List UInt8 := (List.range n).map fun i => addr.getD i 0

@[simp] theorem takeBytes_length (addr : List UInt8) (n : ℕ) : (takeBytes addr n).length = n := by
  simp [takeBytes]

/-- The four header bytes of a reply, each dropped when the buffer is full. -/
def replyHeader (b : Buffer) (reply : ServerReplyType) (atyp : Atyp) : Buffer :=
  bufferWrite (bufferWrite (bufferWrite (bufferWrite b serverVersion) reply.code) 0) atyp.code

theorem takeBytes_le_writePtr {b : Buffer} {addr : List UInt8} {n : ℕ}
    (h : ¬ bufferWritePtr b < n + 2) : (takeBytes addr n).length ≤ bufferWritePtr b := by
  rw [takeBytes_length]
  omega

theorem port_le_writePtr {b : Buffer} {addr : List UInt8} {n : ℕ} {port : Port}
    (h : ¬ bufferWritePtr b < n + 2) : [port.1, port.2].length ≤
      bufferWritePtr (bufferPut b (takeBytes addr n) (takeBytes_le_writePtr h)) := by
  simp only [bufferWritePtr, bufferPut_limit, bufferPut_write, takeBytes_length,
    List.length_cons, List.length_nil] at h ⊢
  omega

def replyBuffer (b : Buffer) (reply : ServerReplyType) (atyp : Atyp) (addr : List UInt8)
    (port : Port) : Buffer :=
  let b := replyHeader b reply atyp
  let addrLen := atyp.addrLen addr
  if h : bufferWritePtr b < addrLen + 2 then b
  else
    let b' := bufferPut b (takeBytes addr addrLen) (takeBytes_le_writePtr h)
    bufferPut b' [port.1, port.2] (port_le_writePtr h)

def replyBytes (reply : ServerReplyType) (atyp : Atyp) (addr : List UInt8) (port : Port) :
    List UInt8 :=
  [serverVersion, reply.code, 0, atyp.code] ++ takeBytes addr (atyp.addrLen addr) ++
    [port.1, port.2]

def putReply (x : Ctx) (reply : ServerReplyType) (atyp : Atyp) (addr : List UInt8)
    (port : Port) : Ctx :=
  { x with c := { x.c with clientBuf := replyBuffer x.c.clientBuf reply atyp addr port } }.log
    (.replied x.id (replyBytes reply atyp addr port))

def serverReply (x : Ctx) (reply : ServerReplyType) (atyp : Atyp) (addr : List UInt8)
    (port : Port) : Except Fault Ctx :=
  match logAccessInfo x.c with
  | .error f => .error f
  | .ok () => .ok (putReply x reply atyp addr port)

/-- The error exits: an empty reply, and the reading end closes. -/
def replyAndClose (x : Ctx) (reply : ServerReplyType) : Except Fault (Ctx × Socks5State) :=
  match serverReply x reply .ipv4 emptyIp (0, 0) with
  | .error f => .error f
  | .ok x => .ok (closeClient x clientReadEnd)

/-- What `read_proxy_request` does with a complete CONNECT request; `b` is the
buffer as it was before the request was consumed. -/
def startRequest (e : Env) (b : Buffer) (atyp : UInt8) (addrLen : ℕ) (x : Ctx) :
    Except Fault (Ctx × Socks5State) :=
  let x := x.sel (selectorRemoveInterest x.w.selector x.c.clientSock opRead)
  let port : Port := (bufferPeek b (4 + addrLen), bufferPeek b (5 + addrLen))
  if atyp = atypDomainName then
    if !e.mallocFqdn then replyAndClose x .serverFailure
    else
      let fqdn := (List.range (addrLen - 1)).map fun i => bufferPeek b (5 + i)
      .ok (x.setDest fqdn port, .resolving)
  else if !e.mallocAddrinfo then replyAndClose (x.setAddr .null) .serverFailure
  else if !e.mallocSockaddr then replyAndClose (x.setAddr .freed) .serverFailure
  else
    let family := if atyp = atypIpv4 then AddrFamily.inet else AddrFamily.inet6
    let addr := (List.range addrLen).map fun i => bufferPeek b (4 + i)
    .ok (x.setAddr (.owned ⟨family, addr, port⟩), .connecting)

/-- The length of the address field, when the type is known. -/
def requestAddrLen (b : Buffer) (atyp : UInt8) : Option ℕ :=
  if atyp = atypIpv4 then some 4
  else if atyp = atypIpv6 then some 16
  else if atyp = atypDomainName then some (1 + (bufferPeek b 4).toNat)
  else none

def cmdConnect : UInt8 := 0x01

def readProxyRequest (e : Env) (fd : ℤ) (x : Ctx) : Except Fault (Ctx × Socks5State) :=
  if x.c.clientSock ≠ fd then .error .assertion
  else
    let count := x.readClientCount e
    let x := x.readClient e
    if checkEOF count e.read.isAgain then replyAndClose x .commandNotSupported
    else
      let b := x.c.originBuf
      if x.available < 5 then .ok (x, stmState x.c)
      else
        let atyp := bufferPeek b 3
        let x := x.setAtyp atyp
        match requestAddrLen b atyp with
        | none => replyAndClose x .addressNotSupported
        | some addrLen =>
          if h : x.available < 6 + addrLen then .ok (x, stmState x.c)
          else
            let x := x.consume (addrLen + 6) (by unfold Ctx.available at h; omega)
            if bufferPeek b 1 ≠ cmdConnect then replyAndClose x .commandNotSupported
            else startRequest e b atyp addrLen x

end Socks5d
