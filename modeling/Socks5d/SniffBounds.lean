import Socks5d.ByteQueue
import Socks5d.Capture

/-! # Accesses of the POP3 sniffer

`pop3_sniffer.c` once more, at its arrays and at the pointers of its buffer: `PtrParser` is
`struct pop3_parser`, and `none` is an access outside of an array, an assertion that fails or a
loop that goes on for too long. A character is compared with one of the five of a keyword only,
although the string has a sixth byte. -/

namespace Socks5d
open Memory

/-- `struct pop3_parser`. -/
structure PtrParser where
  state : PopState
  passwordComplete : Bool
  userComplete : Bool
  user : Vector UInt8 maxCredentialsLen
  pass : Vector UInt8 maxCredentialsLen
  buf : PtrBuffer
  readPtr : UInt16
  writePtr : UInt16

/-- `field[i] = c`. -/
def setChar (field : Vector UInt8 maxCredentialsLen) (i : UInt16) (c : UInt8) :
    Option (Vector UInt8 maxCredentialsLen) :=
  if h : i.toNat < maxCredentialsLen then some (field.set i.toNat c h) else none

namespace PtrParser

def unknownCmd (p : PtrParser) (c : UInt8) : PopState :=
  if c = 0x0a then (if p.userComplete then .passCmd else .userCmd) else .unknownCmd

/-- The common body of `user_cmd` and `pass_cmd`. -/
def matchKeyword (str : List UInt8) (here fill : PopState) (p : PtrParser) (c : UInt8) :
    Option PtrParser :=
  (str[p.readPtr.toNat]?).bind fun k =>
    if tolower c = tolower k then
      let p := { p with readPtr := p.readPtr + 1 }
      -- the string ends with a zero
      ((str ++ [0])[p.readPtr.toNat]?).map fun e =>
        if e = 0 then { p with readPtr := 0, state := fill } else { p with state := here }
    else some { p with state := p.unknownCmd c }

def userCmd (p : PtrParser) (c : UInt8) : Option PtrParser :=
  matchKeyword pop3UserStr .userCmd .fillUser p c

def passCmd (p : PtrParser) (c : UInt8) : Option PtrParser :=
  matchKeyword pop3PassStr .passCmd .fillPass p c

def fillUser (p : PtrParser) (c : UInt8) : Option PtrParser :=
  if c = 0x0a then
    (setChar p.user p.writePtr 0).map fun user =>
      { p with user := user, writePtr := 0, userComplete := true, state := .passCmd }
  else if p.writePtr.toNat + 1 = maxCredentialsLen then some { p with state := .unknownCmd }
  else
    (setChar p.user p.writePtr c).map fun user =>
      { p with user := user, writePtr := p.writePtr + 1, state := .fillUser }

def fillPass (p : PtrParser) (c : UInt8) : Option PtrParser :=
  if c = 0x0a then
    (setChar p.pass p.writePtr 0).map fun pass =>
      { p with pass := pass, writePtr := 0, passwordComplete := true, state := .passCmd }
  else if p.writePtr.toNat + 1 = maxCredentialsLen then some { p with state := .unknownCmd }
  else
    (setChar p.pass p.writePtr c).map fun pass =>
      { p with pass := pass, writePtr := p.writePtr + 1, state := .fillPass }

def initParser (p : PtrParser) : PtrParser :=
  { p with
    state := .userCmd
    readPtr := 0
    writePtr := 0
    passwordComplete := false
    userComplete := false }

def step (p : PtrParser) (c : UInt8) : Option PtrParser :=
  match p.state with
  | .userCmd => p.userCmd c
  | .fillUser => p.fillUser c
  | .passCmd => p.passCmd c
  | .fillPass => p.fillPass c
  | .unknownCmd => some { p with state := p.unknownCmd c }

/-- The fields as the rest of the development has them. -/
def fields (p : PtrParser) : Pop3Parser where
  state := p.state
  passwordComplete := p.passwordComplete
  userComplete := p.userComplete
  user i := p.user[i]?.getD 0
  pass i := p.pass[i]?.getD 0
  buf := bufferInit 0 fun _ => 0
  readPtr := p.readPtr.toNat
  writePtr := p.writePtr.toNat

end PtrParser

/-- The parser, the buffer `pop3_parse` is called with, and the memory. -/
structure PopCall where
  p : PtrParser
  request : PtrBuffer
  mem : ℕ → UInt8

namespace PopCall

/-- The parser's own buffer. -/
def buf (x : PopCall) : BufferState := ⟨x.p.buf, x.mem, 0, []⟩

/-- The condition of the loop of `pop3_consume`. -/
def again (x : PopCall) : Bool := x.buf.canRead && !x.p.passwordComplete

def turn (x : PopCall) : Option PopCall :=
  x.buf.read.bind fun s =>
    (PtrParser.step { x.p with buf := s.b } (s.out.headD 0)).map fun p =>
      { x with p := p, mem := s.mem }

/-- The loop, which may take `n` turns. -/
def consume : ℕ → PopCall → Option PopCall
  | 0, x => if x.again then none else some x
  | n + 1, x => if x.again then x.turn.bind (consume n) else some x

def parse (x : PopCall) : Option (Bool × PopCall) :=
  let b : PtrBuffer := {
    data := x.request.data
    read := x.request.read
    write := x.request.write
    limit := x.request.limit }
  (consume (b.write - b.read) { x with p := { x.p with buf := b } }).map fun x =>
    if x.p.userComplete && x.p.passwordComplete then (true, { x with p := x.p.initParser })
    else (false, x)

end PopCall

/-- A buffer that is not broken, and the memory it points to. -/
structure PopRequest where
  b : PtrBuffer
  mem : ℕ → UInt8
  data_le_read : b.data ≤ b.read
  read_le_write : b.read ≤ b.write
  write_le_limit : b.write ≤ b.limit

def PopRequest.buffer (r : PopRequest) : Buffer where
  data i := r.mem (r.b.data + i)
  limit := r.b.limit - r.b.data
  read := r.b.read - r.b.data
  write := r.b.write - r.b.data
  read_le_write := Nat.sub_le_sub_right r.read_le_write _
  write_le_limit := Nat.sub_le_sub_right r.write_le_limit _

/-- One call of `pop3_parse` after the other: the result of each, with its buffer and the memory
as they are after it, and the parser in the end. -/
def sniffAll :
    PtrParser → List PopRequest → Option (List (Bool × PtrBuffer × (ℕ → UInt8)) × PtrParser)
  | p, [] => some ([], p)
  | p, r :: requests =>
    (PopCall.parse ⟨p, r.b, r.mem⟩).bind fun x =>
      (sniffAll x.2.p requests).map fun y => ((x.1, x.2.request, x.2.mem) :: y.1, y.2)

/-! ## What the parser stands for -/

/-- The cursors are in range, and the fields are those of `p`. -/
structure InArrays (q : PtrParser) (p : Pop3Parser) : Prop where
  state : q.state = p.state
  passwordComplete : q.passwordComplete = p.passwordComplete
  userComplete : q.userComplete = p.userComplete
  user : ∀ i (h : i < maxCredentialsLen), q.user[i] = p.user i
  pass : ∀ i (h : i < maxCredentialsLen), q.pass[i] = p.pass i
  readPtr : q.readPtr.toNat = p.readPtr
  writePtr : q.writePtr.toNat = p.writePtr
  readPtr_le : p.readPtr ≤ 4
  writePtr_le : p.writePtr ≤ maxCredentialsLen - 1

variable {q : PtrParser} {p : Pop3Parser} {c : UInt8}

theorem setChar_ok {field : Vector UInt8 maxCredentialsLen} {f : ℕ → UInt8} {i : UInt16} {n : ℕ}
    (hi : i.toNat = n) (hn : n ≤ maxCredentialsLen - 1)
    (h : ∀ k (hk : k < maxCredentialsLen), field[k] = f k) (c : UInt8) :
    ∃ field', setChar field i c = some field' ∧
      ∀ k (hk : k < maxCredentialsLen), field'[k] = Function.update f n c k := by
  have hlt : i.toNat < maxCredentialsLen := by
    unfold maxCredentialsLen at hn ⊢
    omega
  refine ⟨field.set i.toNat c hlt, dif_pos hlt, ?_⟩
  intro k hk
  rw [Vector.getElem_set, hi, h k hk, Function.update_apply]
  simp only [eq_comm]

theorem InArrays.unknownCmd_eq (h : InArrays q p) (c : UInt8) :
    q.unknownCmd c = unknownCmd p c := by
  unfold PtrParser.unknownCmd unknownCmd
  rw [h.userComplete]

/-- The zero behind the keyword is what `getD` gives there. -/
theorem keyword_getElem? {str : List UInt8} {i : ℕ} (h : i ≤ str.length) :
    (str ++ [0])[i]? = some (str.getD i 0) := by
  rw [List.getD_eq_getElem?_getD]
  by_cases hlt : i < str.length
  · rw [List.getElem?_append_left hlt, List.getElem?_eq_getElem hlt, Option.getD_some]
  · have hi : i = str.length := by omega
    rw [hi, List.getElem?_concat_length, List.getElem?_eq_none (Nat.le_refl _), Option.getD_none]

theorem InArrays.matchKeyword (h : InArrays q p) {str : List UInt8} (hstr : str.length = 5)
    (here fill : PopState) (c : UInt8) :
    ∃ q', PtrParser.matchKeyword str here fill q c = some q' ∧
      q'.buf = q.buf ∧ InArrays q' (matchKeyword str here fill p c) := by
  have hle := h.readPtr_le
  have hsucc : (q.readPtr + 1).toNat = p.readPtr + 1 := by
    rw [UInt16.toNat_add, h.readPtr, UInt16.toNat_one]
    omega
  have hchar : str[q.readPtr.toNat]? = some (str.getD p.readPtr 0) := by
    rw [h.readPtr, List.getD_eq_getElem?_getD, List.getElem?_eq_getElem (by omega),
      Option.getD_some]
  unfold PtrParser.matchKeyword Socks5d.matchKeyword
  rw [hchar, Option.bind_some]
  dsimp only
  rw [hsucc, keyword_getElem? (by omega), Option.map_some]
  split_ifs with hc he
  · exact ⟨_, rfl, rfl, ⟨rfl, h.passwordComplete, h.userComplete, h.user, h.pass, rfl, h.writePtr,
      Nat.zero_le _, h.writePtr_le⟩⟩
  · -- a character that is not the zero is not behind the last one
    have hlt : p.readPtr + 1 < str.length := by
      by_contra hno
      apply he
      rw [List.getD_eq_getElem?_getD, List.getElem?_eq_none (by omega), Option.getD_none]
    exact ⟨_, rfl, rfl, ⟨rfl, h.passwordComplete, h.userComplete, h.user, h.pass, hsucc, h.writePtr,
      by dsimp only; omega, h.writePtr_le⟩⟩
  · exact ⟨_, rfl, rfl, ⟨h.unknownCmd_eq c, h.passwordComplete, h.userComplete, h.user, h.pass,
      h.readPtr, h.writePtr, hle, h.writePtr_le⟩⟩

/-- The cursor moves on only if a character fits behind it. -/
theorem InArrays.writePtr_succ (h : InArrays q p) (hfull : ¬ p.writePtr + 1 = maxCredentialsLen) :
    (q.writePtr + 1).toNat = p.writePtr + 1 ∧ p.writePtr + 1 ≤ maxCredentialsLen - 1 := by
  have hle := h.writePtr_le
  unfold maxCredentialsLen at hle hfull ⊢
  rw [UInt16.toNat_add, h.writePtr, UInt16.toNat_one]
  omega

theorem InArrays.fillUser (h : InArrays q p) (c : UInt8) :
    ∃ q', q.fillUser c = some q' ∧ q'.buf = q.buf ∧ InArrays q' (fillUser p c) := by
  unfold PtrParser.fillUser Socks5d.fillUser
  rw [h.writePtr]
  split_ifs with hc hfull
  · obtain ⟨user, hset, huser⟩ := setChar_ok h.writePtr h.writePtr_le h.user 0
    rw [hset, Option.map_some]
    exact ⟨_, rfl, rfl, ⟨rfl, h.passwordComplete, rfl, huser, h.pass, h.readPtr, rfl, h.readPtr_le,
      Nat.zero_le _⟩⟩
  · exact ⟨_, rfl, rfl, ⟨rfl, h.passwordComplete, h.userComplete, h.user, h.pass, h.readPtr,
      h.writePtr, h.readPtr_le, h.writePtr_le⟩⟩
  · obtain ⟨user, hset, huser⟩ := setChar_ok h.writePtr h.writePtr_le h.user c
    obtain ⟨hsucc, hfits⟩ := h.writePtr_succ hfull
    rw [hset, Option.map_some]
    exact ⟨_, rfl, rfl, ⟨rfl, h.passwordComplete, h.userComplete, huser, h.pass, h.readPtr, hsucc,
      h.readPtr_le, hfits⟩⟩

theorem InArrays.fillPass (h : InArrays q p) (c : UInt8) :
    ∃ q', q.fillPass c = some q' ∧ q'.buf = q.buf ∧ InArrays q' (fillPass p c) := by
  unfold PtrParser.fillPass Socks5d.fillPass
  rw [h.writePtr]
  split_ifs with hc hfull
  · obtain ⟨pass, hset, hpass⟩ := setChar_ok h.writePtr h.writePtr_le h.pass 0
    rw [hset, Option.map_some]
    exact ⟨_, rfl, rfl, ⟨rfl, rfl, h.userComplete, h.user, hpass, h.readPtr, rfl, h.readPtr_le,
      Nat.zero_le _⟩⟩
  · exact ⟨_, rfl, rfl, ⟨rfl, h.passwordComplete, h.userComplete, h.user, h.pass, h.readPtr,
      h.writePtr, h.readPtr_le, h.writePtr_le⟩⟩
  · obtain ⟨pass, hset, hpass⟩ := setChar_ok h.writePtr h.writePtr_le h.pass c
    obtain ⟨hsucc, hfits⟩ := h.writePtr_succ hfull
    rw [hset, Option.map_some]
    exact ⟨_, rfl, rfl, ⟨rfl, h.passwordComplete, h.userComplete, h.user, hpass, h.readPtr, hsucc,
      h.readPtr_le, hfits⟩⟩

/-- The cursors outlive the keyword or the field they were moved for, but in any state the next
byte finds them in range. -/
theorem InArrays.step (h : InArrays q p) (c : UInt8) :
    ∃ q', q.step c = some q' ∧ q'.buf = q.buf ∧ InArrays q' (popStep p c) := by
  unfold PtrParser.step popStep
  rw [h.state]
  cases p.state with
  | userCmd => exact h.matchKeyword rfl _ _ c
  | fillUser => exact h.fillUser c
  | passCmd => exact h.matchKeyword rfl _ _ c
  | fillPass => exact h.fillPass c
  | unknownCmd =>
    exact ⟨_, rfl, rfl, ⟨h.unknownCmd_eq c, h.passwordComplete, h.userComplete, h.user, h.pass,
      h.readPtr, h.writePtr, h.readPtr_le, h.writePtr_le⟩⟩

theorem InArrays.initParser (h : InArrays q p) : InArrays q.initParser (initParser p) :=
  ⟨rfl, rfl, rfl, h.user, h.pass, rfl, rfl, Nat.zero_le _, Nat.zero_le _⟩

/-- `init_parser` puts both cursors in range, whatever the memory held. -/
theorem inArrays_initParser (q : PtrParser) : InArrays q.initParser (initParser q.fields) := by
  have hfield : ∀ (field : Vector UInt8 maxCredentialsLen) i (h : i < maxCredentialsLen),
      field[i] = field[i]?.getD 0 := by
    intro field i h
    rw [Vector.getElem?_eq_getElem h, Option.getD_some]
  exact ⟨rfl, rfl, rfl, hfield q.user, hfield q.pass, rfl, rfl, Nat.zero_le _, Nat.zero_le _⟩

/-! ## The loop -/

/-- The parser's own buffer points to the bytes of the buffer of `p`. -/
structure PopCall.Stands (x : PopCall) (p : Pop3Parser) : Prop where
  parser : InArrays x.p p
  buf : ∃ base mem₀, Represents base mem₀ x.buf p.buf

variable {x : PopCall} {n : ℕ}

theorem PopCall.Stands.again_eq (h : x.Stands p) :
    x.again = (bufferCanRead p.buf && !p.passwordComplete) := by
  obtain ⟨base, mem₀, hrep⟩ := h.buf
  rw [PopCall.again, hrep.canRead, h.parser.passwordComplete]

theorem bufferRead_eq {b : Buffer} (hn : 1 ≤ b.write - b.read) :
    bufferRead b = (bufferPeek b 0, bufferReadAdv b 1 hn) := by
  have hcan : bufferCanRead b = true := decide_eq_true (by omega)
  exact dif_pos hcan

theorem PopCall.Stands.turn (h : x.Stands p) (hn : 1 ≤ p.buf.write - p.buf.read) :
    ∃ x', x.turn = some x' ∧
      x'.Stands (popStep (p.setBuf (bufferRead p.buf).2) (bufferRead p.buf).1) ∧
      x'.request = x.request ∧ x'.mem = x.mem := by
  obtain ⟨base, mem₀, hrep⟩ := h.buf
  obtain ⟨s, hs, hrep', -, hmem, hout⟩ := hrep.takeByte hn
  have hparser : InArrays { x.p with buf := s.b } (p.setBuf (bufferRead p.buf).2) :=
    ⟨h.parser.state, h.parser.passwordComplete, h.parser.userComplete, h.parser.user,
      h.parser.pass, h.parser.readPtr, h.parser.writePtr, h.parser.readPtr_le,
      h.parser.writePtr_le⟩
  obtain ⟨q, hq, hbuf, hstep⟩ := hparser.step (bufferRead p.buf).1
  have hbyte : s.out.headD 0 = (bufferRead p.buf).1 := by
    rw [hout, bufferRead_eq hn]
    rfl
  unfold PopCall.turn
  rw [hs, Option.bind_some, hbyte, hq, Option.map_some]
  refine ⟨_, rfl, ⟨hstep, base, mem₀, ?_⟩, rfl, hmem⟩
  rw [popStep_buf]
  change Represents base mem₀ _ (bufferRead p.buf).2
  rw [bufferRead_eq hn]
  exact hrep'.of_eq hbuf rfl

/-- The loop takes no more turns than there are bytes to read. -/
theorem PopCall.Stands.consume (h : x.Stands p) (hn : p.buf.write - p.buf.read = n) :
    ∃ x', x.consume n = some x' ∧ x'.Stands (pop3Consume n p) ∧ x'.request = x.request ∧
      x'.mem = x.mem := by
  induction n generalizing x p with
  | zero =>
    have hcan : bufferCanRead p.buf = false := decide_eq_false (by omega)
    rw [PopCall.consume, h.again_eq, hcan, Bool.false_and]
    exact ⟨x, rfl, h, rfl, rfl⟩
  | succ n ih =>
    rw [PopCall.consume, h.again_eq, pop3Consume_succ]
    split_ifs with hagain
    · obtain ⟨x₁, hx₁, h₁, hrequest₁, hmem₁⟩ := h.turn (by omega)
      have hleft : (bufferRead p.buf).2.write - (bufferRead p.buf).2.read = n := by
        have hlen := congrArg List.length (bufferReadAdv_readPtr (b := p.buf) (n := 1) (by omega))
        rw [List.length_drop, bufferReadPtr_length, bufferReadPtr_length] at hlen
        rw [bufferRead_eq (by omega), hlen]
        omega
      obtain ⟨x', hx', h', hrequest, hmem⟩ := ih h₁ (by rw [popStep_buf]; exact hleft)
      rw [hx₁, Option.bind_some]
      exact ⟨x', hx', h', hrequest.trans hrequest₁, hmem.trans hmem₁⟩
    · exact ⟨x, rfl, h, rfl, rfl⟩

theorem PopRequest.represents (r : PopRequest) (q : PtrParser) :
    Represents r.b.data r.mem (PopCall.buf ⟨{ q with buf := r.b }, r.b, r.mem⟩) r.buffer := by
  have hread := r.data_le_read
  have hwrite := r.read_le_write
  have hlimit := r.write_le_limit
  exact ⟨rfl, by change r.b.limit = _ + (_ - _); omega, by change r.b.read = _ + (_ - _); omega,
    by change r.b.write = _ + (_ - _); omega, rfl, fun _ _ => rfl⟩

/-- A call of `pop3_parse`, of any parser whose cursors are in range. -/
theorem InArrays.parse (h : InArrays q p) (r : PopRequest) :
    ∃ x, PopCall.parse ⟨q, r.b, r.mem⟩ = some ((pop3Parse p r.buffer).1, x) ∧
      InArrays x.p (pop3Parse p r.buffer).2 ∧ x.request = r.b ∧ x.mem = r.mem := by
  have hstands : PopCall.Stands ⟨{ q with buf := r.b }, r.b, r.mem⟩ (p.setBuf r.buffer) :=
    ⟨⟨h.state, h.passwordComplete, h.userComplete, h.user, h.pass, h.readPtr, h.writePtr,
      h.readPtr_le, h.writePtr_le⟩, _, _, r.represents q⟩
  have hlen : r.buffer.write - r.buffer.read = r.b.write - r.b.read := by
    have hread := r.data_le_read
    change r.b.write - r.b.data - (r.b.read - r.b.data) = _
    omega
  obtain ⟨x, hx, h', hrequest, hmem⟩ := hstands.consume hlen
  have hmodel : pop3Parse p r.buffer =
      let m := pop3Consume (r.b.write - r.b.read) (p.setBuf r.buffer)
      if m.userComplete && m.passwordComplete then (true, Socks5d.initParser m)
      else (false, m) := by
    rw [← hlen]
    rfl
  rw [hmodel]
  generalize pop3Consume (r.b.write - r.b.read) (p.setBuf r.buffer) = m at h' ⊢
  unfold PopCall.parse
  dsimp only
  rw [hx, Option.map_some, h'.parser.userComplete, h'.parser.passwordComplete]
  split_ifs
  · exact ⟨_, rfl, h'.parser.initParser, hrequest, hmem⟩
  · exact ⟨_, rfl, h'.parser, hrequest, hmem⟩

/-- What the calls return, each with the buffer and the memory it was given. -/
def unchanged (answers : List Bool) (requests : List PopRequest) :
    List (Bool × PtrBuffer × (ℕ → UInt8)) :=
  List.zipWith (fun ans r => (ans, r.b, r.mem)) answers requests

theorem InArrays.calls (h : InArrays q p) (requests : List PopRequest) :
    ∃ q', sniffAll q requests =
        some (unchanged (popRun p (requests.map PopRequest.buffer)).1 requests, q') ∧
      InArrays q' (popRun p (requests.map PopRequest.buffer)).2 := by
  induction requests generalizing q p with
  | nil => exact ⟨q, rfl, h⟩
  | cons r requests ih =>
    obtain ⟨x, hx, hparser, hrequest, hmem⟩ := h.parse r
    obtain ⟨q', hq', h'⟩ := ih hparser
    unfold Socks5d.sniffAll
    rw [hx, Option.bind_some, hq', Option.map_some, hrequest, hmem]
    exact ⟨q', rfl, h'⟩

/-- For every parser that `init_parser` was called for, and all bytes in any pieces: no access is
out of range and every loop ends, each call leaves the bytes and the pointers of its buffer as they
were, and the results are those of the model. -/
theorem sniffer_stays_in_its_arrays (q : PtrParser) (requests : List PopRequest) :
    ∃ q', sniffAll q.initParser requests = some
        (unchanged (popRun (initParser q.fields) (requests.map PopRequest.buffer)).1 requests, q') ∧
      InArrays q' (popRun (initParser q.fields) (requests.map PopRequest.buffer)).2 :=
  (inArrays_initParser q).calls requests

/-- Behind a name that is too long, an empty one ends at the last character of the field. -/
example :
    let p := (asc "USER " ++ List.replicate 40 0x61 ++ lineFeed :: asc "USER ").foldl popStep
      newParser
    p.state = .fillUser ∧ p.writePtr = maxCredentialsLen - 1 := by
  decide +kernel

end Socks5d
