import Mathlib.Algebra.Group.Int.Defs
import Socks5d.MgmtProtocol
import Socks5d.Server

/-! # Management connections: `mgmt.c`

A session is one management connection together with the server; what other
connections do in between are events of the server. -/

namespace Socks5d
open Memory Scanner

def mgmtBuffsize : ℕ := 2048

structure MgmtClient where
  fd : ℤ
  writeBuf : Buffer
  pendingBuf : Buffer
  input : Input
  quitted : Bool

/-- A command that `processMgmtClient` acts on, with the string it hands on and the
text it leaves in `response_buf`. -/
structure Act where
  cmd : MgmtCommand
  arg : Option (List UInt8)
  response : List UInt8
deriving DecidableEq, Repr

inductive MgmtObs
  | received (bs : List UInt8)
  | acted (a : Act)
  | sent (bs : List UInt8)
deriving DecidableEq, Repr

structure Session where
  server : Server
  /-- The table of `tokens.c`, which is filled before the server starts. -/
  tokens : List (List UInt8)
  c : MgmtClient
  interest : FdInterest
  closed : Bool
  log : List MgmtObs

namespace Session

def setInput (s : Session) (inp : Input) : Session := { s with c := { s.c with input := inp } }

def setBuf (s : Session) (buf : ℕ → UInt8) : Session := s.setInput { s.c.input with buf := buf }

def setCond (s : Session) (cond : Cond) : Session := s.setInput { s.c.input with cond := cond }

def setWorld (s : Session) (w : World) : Session := { s with server := { s.server with w := w } }

def setWrite (s : Session) (b : Buffer) : Session := { s with c := { s.c with writeBuf := b } }

def setPending (s : Session) (b : Buffer) : Session := { s with c := { s.c with pendingBuf := b } }

def observe (s : Session) (o : MgmtObs) : Session := { s with log := s.log ++ [o] }

/-- `selector_unregister_fd`, which calls `handle_mgmt_close`. -/
def unregister (s : Session) : Session :=
  { s with server := mgmtClose s.c.fd s.server, closed := true }

section
variable (s : Session) (o : MgmtObs) (b : Buffer) (inp : Input)

@[simp] theorem observe_c : (s.observe o).c = s.c := rfl
@[simp] theorem observe_log : (s.observe o).log = s.log ++ [o] := rfl
@[simp] theorem setWrite_log : (s.setWrite b).log = s.log := rfl
@[simp] theorem setWrite_writeBuf : (s.setWrite b).c.writeBuf = b := rfl
@[simp] theorem setWrite_pendingBuf : (s.setWrite b).c.pendingBuf = s.c.pendingBuf := rfl
@[simp] theorem setPending_log : (s.setPending b).log = s.log := rfl
@[simp] theorem setPending_writeBuf : (s.setPending b).c.writeBuf = s.c.writeBuf := rfl
@[simp] theorem setPending_pendingBuf : (s.setPending b).c.pendingBuf = b := rfl
@[simp] theorem setInput_log : (s.setInput inp).log = s.log := rfl
@[simp] theorem setInput_writeBuf : (s.setInput inp).c.writeBuf = s.c.writeBuf := rfl
@[simp] theorem setInput_pendingBuf : (s.setInput inp).c.pendingBuf = s.c.pendingBuf := rfl

end

end Session

/-! ## The C library -/

def asc (s : String) : List UInt8 := s.toList.map byte

/-- `%lu` and `%d` of a number that is not negative. -/
def decimal (n : ℕ) : List UInt8 := (Nat.toDigits 10 n).map byte

theorem decimal_length_le {n k : ℕ} (hk : 0 < k) (h : n < 10 ^ k) : (decimal n).length ≤ k := by
  rw [decimal, List.length_map]
  exact (Nat.length_toDigits_le_iff (by decide) hk).mpr h

theorem decimal_digit {n : ℕ} {c : UInt8} (h : c ∈ decimal n) :
    0x30 ≤ c.toNat ∧ c.toNat ≤ 0x39 := by
  obtain ⟨d, hd, rfl⟩ := List.mem_map.mp h
  have hdigit := Nat.isDigit_of_mem_toDigits (by decide) (by decide) hd
  rw [Char.isDigit, Bool.and_eq_true, decide_eq_true_eq, decide_eq_true_eq] at hdigit
  have hlow : 48 ≤ d.toNat := UInt32.le_iff_toNat_le.mp hdigit.1
  have hhigh : d.toNat ≤ 57 := UInt32.le_iff_toNat_le.mp hdigit.2
  rw [byte, UInt8.toNat_ofNat']
  omega

theorem decimal_no_zero (n : ℕ) : 0 ∉ decimal n := fun h => absurd (decimal_digit h).1 (by decide)

def isspace (c : UInt8) : Bool := c = 0x20 || (0x9 ≤ c && c ≤ 0xd)

def digitsValue (s : List UInt8) : ℕ :=
  (s.takeWhile isNumarg).foldl (fun n c => 10 * n + (c.toNat - 0x30)) 0

/-- `strtol` in base 10, which saturates at the limits of a `long`. -/
def strtol (s : List UInt8) : ℤ :=
  match s.dropWhile isspace with
  | 0x2d :: s => max (-digitsValue s) (-2 ^ 63)
  | 0x2b :: s => min (digitsValue s) (2 ^ 63 - 1)
  | s => min (digitsValue s) (2 ^ 63 - 1)

/-- The `long` is cut to an `int`. -/
def atoi (s : List UInt8) : ℤ := (strtol s).bmod (2 ^ 32)

/-- An `int` as `size_t`. -/
def sizeT (n : ℤ) : ℕ := (n % 2 ^ 64).toNat

/-! ## Responses -/

def successStatus : List UInt8 := asc "+OK"
def errorStatus : List UInt8 := asc "-ERR"
def lineDelimiter : List UInt8 := asc "\r\n"
def multilineDelimiter : List UInt8 := asc "."

/-- A format with the status first and a line delimiter last. -/
def single (status : List UInt8) (text : String) : List UInt8 := status ++ asc text ++ lineDelimiter

def hello : List UInt8 := single successStatus
  " mgmt server ready. Authenticate using TOKEN to access all functionalities"
def invalidCmdText : List UInt8 := single errorStatus " Invalid command for this stage "
def invalidArgText : List UInt8 := single errorStatus " Invalid arguments for command"
def correctPassword : List UInt8 := single successStatus " Welcome!"
def incorrectPassword : List UInt8 := single errorStatus " Incorrect password - try again"
def quitText : List UInt8 := single successStatus " Quitting..."
def setBuffsizeText : List UInt8 := single successStatus " Buffsize updated "
def setBuffsizeError : List UInt8 := single errorStatus " Error updating buffsize "
def setDissectorText : List UInt8 := single successStatus " Dissector status updated "
def setDissectorError : List UInt8 := single errorStatus " Error updating dissector status "

def statsText (w : World) : List UInt8 :=
  single successStatus " Showing stats (B)yte (H)istorical connections (C)urrent connections..." ++
    asc "B" ++ decimal w.transferredBytes.toNat ++ lineDelimiter ++
    asc "H" ++ decimal w.allConnections.toNat ++ lineDelimiter ++
    asc "C" ++ decimal (w.proxyClientCount + w.mgmtClientCount).toNat ++ lineDelimiter ++
    multilineDelimiter ++ lineDelimiter

/-- The format of `BUFFSIZE` and `DISSECTOR-STATUS`. -/
def valueText (value : List UInt8) : List UInt8 :=
  single successStatus " " ++ value ++ lineDelimiter ++ multilineDelimiter ++ lineDelimiter

def addUserText (user : List UInt8) : List UInt8 :=
  successStatus ++ asc " Added user " ++ user ++ lineDelimiter

def addUserError (user : List UInt8) : List UInt8 :=
  errorStatus ++ asc " Error adding user " ++ user ++ lineDelimiter

def capaMessage : List UInt8 :=
  asc "+OK \r\nTOKEN\r\nUSERS\r\nSTATS\r\nBUFFSIZE\r\nSET-BUFFSIZE\r\nDISSECTOR-STATUS\r\nSET-DISSECTOR-STATUS\r\n.\r\n"

def usersHead : List UInt8 := successStatus ++ asc " Listing users... \r\n"

/-- The first line, to which the rest is added with `strcat`. -/
def usersText (users : UserTable) : List UInt8 :=
  usersHead ++ (users.map fun u => u.username ++ lineDelimiter).flatten ++ asc ".\r\n"

/-! ## Commands -/

/-- What the body of the loop leaves: `response_buf` as a string, and `response_len`. -/
structure Executed where
  s : Session
  arg : Option (List UInt8)
  response : List UInt8
  responseLen : ℕ

/-- `snprintf` to `response_buf`: the text is cut, its length is not. -/
def snprintf (s : Session) (arg : Option (List UInt8)) (text : List UInt8) : Executed :=
  ⟨s, arg, text.take (mgmtBuffsize - 1), text.length⟩

/-- The string at `args`. Behind the buffer lies a byte that stays zero. -/
def Input.argText (inp : Input) (args : ℕ) : List UInt8 :=
  cString (slice inp.buf args (inp.bufSize + 1 - args))

/-- `arg[argLen] = '\0'` -/
def Session.terminate (s : Session) (arge : ℕ) : Session :=
  s.setBuf (store s.c.input.buf arge [0])

def executeToken (args arge : ℕ) (s : Session) : Executed :=
  let s := s.terminate arge
  let arg := s.c.input.argText args
  if checkToken s.tokens arg then snprintf (s.setCond .trns) (some arg) correctPassword
  else snprintf s (some arg) incorrectPassword

def executeSetBuffsize (args arge : ℕ) (s : Session) : Executed :=
  let s := s.terminate arge
  let arg := s.c.input.argText args
  let newSize := sizeT (atoi arg)
  if minSocksBuffsize < newSize ∧ newSize < maxSocksBuffsize then
    snprintf (s.setWorld { s.server.w with buffsize := newSize }) (some arg) setBuffsizeText
  else snprintf s (some arg) setBuffsizeError

/-- The argument is lowered in place. -/
def executeSetDissector (args arge : ℕ) (s : Session) : Executed :=
  let s := s.terminate arge
  let arg := s.c.input.argText args
  let lower := arg.map tolower
  let s := s.setBuf (store s.c.input.buf args lower)
  if lower = asc "on" then
    snprintf (s.setWorld { s.server.w with dissectorState := true }) (some arg) setDissectorText
  else if lower = asc "off" then
    snprintf (s.setWorld { s.server.w with dissectorState := false }) (some arg) setDissectorText
  else snprintf s (some arg) setDissectorError

/-- `add_user` ends the name in place, so that the response shows no password. -/
def executeAddUser (args arge : ℕ) (s : Session) : Executed :=
  let s := s.terminate arge
  let arg := s.c.input.argText args
  let r := addUser s.server.w.users arg
  let s := if colon ∈ arg then s.setBuf (store s.c.input.buf (args + r.2.2.length) [0]) else s
  let s := s.setWorld { s.server.w with users := r.2.1 }
  snprintf s (some arg) (if r.1 then addUserText r.2.2 else addUserError r.2.2)

/-- The `switch` of `processMgmtClient`; `args` and `arge` are null for the commands
that do not use them. -/
def execute (cmd : MgmtCommand) (arg : Option (ℕ × ℕ)) (s : Session) : Executed :=
  let args := (arg.getD (0, 0)).1
  let arge := (arg.getD (0, 0)).2
  match cmd with
  | .incomplete => ⟨s, none, [], 0⟩
  | .invalidCmd => snprintf s none invalidCmdText
  | .invalidArgs => snprintf s none invalidArgText
  | .capa => snprintf s none capaMessage
  | .token => executeToken args arge s
  | .stats => snprintf s none (statsText s.server.w)
  | .users => ⟨s, none, usersText s.server.w.users, usersHead.length⟩
  | .getBuffsize => snprintf s none (valueText (decimal s.server.w.buffsize))
  | .setBuffsize => executeSetBuffsize args arge s
  | .getDissectorStatus =>
    snprintf s none (valueText (if s.server.w.dissectorState then asc "on" else asc "off"))
  | .setDissectorStatus => executeSetDissector args arge s
  | .addUser => executeAddUser args arge s
  | .quit => snprintf { s with c := { s.c with quitted := true } } none quitText

/-- A response that does not fit is dropped. -/
def writeResponse (b : Buffer) (response : List UInt8) : Buffer :=
  if h : response.length ≤ bufferWritePtr b then bufferPut b response h else b

/-- One turn of the loop of `processMgmtClient`, and whether there is another. -/
def turn (s : Session) : Session × Bool :=
  let p := parseMgmtRequest s.c.input
  let s := s.setInput p.input
  if p.cmd = .incomplete then (s, false)
  else
    let space := bufferWritePtr s.c.writeBuf
    let r := execute p.cmd p.arg s
    let s := r.s.observe (.acted ⟨p.cmd, r.arg, r.response⟩)
    -- without room, the response waits and parsing stops
    if space < r.responseLen then (s.setPending (writeResponse s.c.pendingBuf r.response), false)
    else (s.setWrite (writeResponse s.c.writeBuf r.response), true)

def processLoop : ℕ → Session → Session
  | 0, s => s
  | n + 1, s => if (turn s).2 then processLoop n (turn s).1 else (turn s).1

/-- Each turn but the last takes a byte of the input, which bounds their number. -/
def processMgmtClient (s : Session) : Session :=
  processLoop (s.c.input.lim - s.c.input.tok + 1) s

/-! ## Handlers -/

def handleMgmtRead (r : ReadResult) (s : Session) : Session :=
  if bufferCanRead s.c.pendingBuf then s
  else
    let f := fillBuffer s.c.input r
    let s := (s.setInput f.1).observe (.received (r.bytes s.c.input.free))
    if checkEOF f.2 r.isAgain then s.unregister
    else { processMgmtClient s with interest := opWrite ||| opRead }

/-- The part of `copy_from_buf` that succeeds. -/
def copyFromBuf (s : Session)
    (h : (bufferReadPtr s.c.pendingBuf).length ≤ bufferWritePtr s.c.writeBuf) : Session :=
  (s.setPending (bufferReadAdv s.c.pendingBuf (s.c.pendingBuf.write - s.c.pendingBuf.read)
    (Nat.le_refl _))).setWrite (bufferPut s.c.writeBuf (bufferReadPtr s.c.pendingBuf) h)

/-- Pending responses are copied when all of them fit, and then parsing goes on. -/
def unblock (s : Session) : Session :=
  if bufferCanRead s.c.pendingBuf then
    if h : (bufferReadPtr s.c.pendingBuf).length ≤ bufferWritePtr s.c.writeBuf then
      processMgmtClient (copyFromBuf s h)
    else s
  else s

def handleMgmtWrite (r : SendResult) (s : Session) : Session :=
  if !bufferCanRead s.c.writeBuf && !bufferCanRead s.c.pendingBuf then
    { s with interest := opRead }
  else
    let s := unblock s
    let b := writeToSock r s.c.writeBuf
    let size := s.c.writeBuf.write - s.c.writeBuf.read
    let s := (s.setWrite b.1).observe (.sent ((bufferReadPtr s.c.writeBuf).take (r.accepted size)))
    if b.2 = 0 then (if s.c.quitted then s.unregister else s)
    else if b.2 < 0 then s.unregister
    else s

/-! ## Runs -/

/-- What the memory of a new `mgmt_client` happens to hold. -/
structure RawMgmt where
  write : ℕ → UInt8
  pending : ℕ → UInt8
  read : ℕ → UInt8

def createMgmtClient (sock : ℤ) (raw : RawMgmt) : MgmtClient where
  fd := sock
  writeBuf := bufferInit mgmtBuffsize raw.write
  pendingBuf := bufferInit mgmtBuffsize raw.pending
  input := initState ⟨raw.read, mgmtBuffsize, 0, 0, 0, 0, none, .pass⟩
  quitted := false

/-- A connection that the server has accepted and greeted. -/
def openSession (server : Server) (tokens : List (List UInt8)) (sock : ℤ) (raw : RawMgmt) :
    Session :=
  let c := createMgmtClient sock raw
  { server := server
    tokens := tokens
    c := { c with writeBuf := writeResponse c.writeBuf hello }
    interest := opWrite ||| opRead
    closed := false
    log := [] }

inductive MgmtEvent
  | read (r : ReadResult)
  | write (r : SendResult)
  /-- Somebody else acts. -/
  | server (ev : Event)

def Session.idle (s : Session) : Bool := s.closed || s.server.halted.isSome

def sessionStep (s : Session) : MgmtEvent → Session
  | .read r => if s.idle || !s.interest.read then s else handleMgmtRead r s
  | .write r => if s.idle || !s.interest.write then s else handleMgmtWrite r s
  | .server ev => { s with server := step s.server ev }

/-! ## What is seen of a session -/

def acts (log : List MgmtObs) : List Act := log.filterMap fun
  | .acted a => some a
  | _ => none

def received (log : List MgmtObs) : List UInt8 := (log.map fun
  | .received bs => bs
  | _ => []).flatten

def sent (log : List MgmtObs) : List UInt8 := (log.map fun
  | .sent bs => bs
  | _ => []).flatten

section
variable (l l' : List MgmtObs) (bs : List UInt8) (a : Act)

@[simp] theorem acts_append : acts (l ++ l') = acts l ++ acts l' := List.filterMap_append
@[simp] theorem acts_received : acts [.received bs] = [] := rfl
@[simp] theorem acts_acted : acts [.acted a] = [a] := rfl
@[simp] theorem acts_sent : acts [.sent bs] = [] := rfl

@[simp] theorem received_append : received (l ++ l') = received l ++ received l' := by
  simp [received]

@[simp] theorem received_received : received [.received bs] = bs := by simp [received]
@[simp] theorem received_acted : received [.acted a] = [] := rfl
@[simp] theorem received_sent : received [.sent bs] = [] := rfl

@[simp] theorem sent_append : sent (l ++ l') = sent l ++ sent l' := by simp [sent]
@[simp] theorem sent_received : sent [.received bs] = [] := rfl
@[simp] theorem sent_acted : sent [.acted a] = [] := rfl
@[simp] theorem sent_sent : sent [.sent bs] = bs := by simp [sent]

end

end Socks5d
