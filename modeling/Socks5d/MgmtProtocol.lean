import Socks5d.Lib.Memory
import Socks5d.Lib.Scanner
import Socks5d.Client

/-! # The lexer of the management protocol

`mgmt_protocol.c` and the automaton generated from `mgmt_protocol.re`. Every rule that
ends does so with the first CR LF it can read, so that the first rule to accept also has
the longest match. Pointers into the input are offsets from `buf`. -/

namespace Socks5d
open Memory Scanner

inductive MgmtCommand
  | invalidCmd | incomplete | token | stats | capa | users | getBuffsize | setBuffsize
  | getDissectorStatus | setDissectorStatus | addUser | quit | invalidArgs
deriving DecidableEq, Repr

/-- The start conditions, `enum YYCONDTYPE`. -/
inductive Cond
  | pass | trns
deriving DecidableEq, Repr

inductive Tag
  | yyt1 | yyt2
deriving DecidableEq, Repr

/-- Where the generated code takes `arge` from: the end of a repetition is tagged,
that of a fixed text is two bytes before the cursor. -/
inductive ArgEnd
  | none | tagged | fixed
deriving DecidableEq, Repr

structure Action where
  cmd : MgmtCommand
  argEnd : ArgEnd
deriving DecidableEq, Repr

abbrev MgmtPattern := Pattern UInt8 Tag
abbrev MgmtRule := Rule UInt8 Tag Action
abbrev MgmtThread := Thread UInt8 Tag Action

/-! ## Rules -/

def byte (c : Char) : UInt8 := UInt8.ofNat c.toNat

/-- A text in single quotes matches in either case. -/
def word (s : String) : MgmtPattern :=
  s.toList.map fun c => .one fun b => b = byte c.toLower || b = byte c.toUpper

/-- A text in double quotes. -/
def literal (s : String) : MgmtPattern := s.toList.map fun c => .one fun b => b = byte c

def crlf : MgmtPattern := [.one (· = 0xd), .one (· = 0xa)]

def isSpace (b : UInt8) : Bool := b = 0x20

/-- `print`, which here includes the byte 0x7f. -/
def isPrint (b : UInt8) : Bool := 0x20 ≤ b && b ≤ 0x7f

def isArg (b : UInt8) : Bool := isPrint b && !isSpace b

def isNumarg (b : UInt8) : Bool := 0x30 ≤ b && b ≤ 0x39

def some1 (p : UInt8 → Bool) : MgmtPattern := [.one p, .star p]

/-- `[ ]+ @args p+ @arge [ ]*` -/
def argument (p : UInt8 → Bool) : MgmtPattern :=
  some1 isSpace ++ [.tag .yyt1] ++ some1 p ++ [.tag .yyt2, .star isSpace]

/-- `[ ]+ @args s @arge` -/
def keyword (s : String) : MgmtPattern := some1 isSpace ++ [.tag .yyt1] ++ literal s

def cmds : List String :=
  ["pass", "users", "list", "buffsize", "set-buffsize", "dissector-status", "set-dissector-status"]

/-- A line of its own, in the condition given or in all. -/
def line (cond : Option Cond) (p : MgmtPattern) (cmd : MgmtCommand) (argEnd : ArgEnd) :
    Option Cond × MgmtRule := (cond, ⟨p ++ crlf, ⟨cmd, argEnd⟩⟩)

def requestRules : List (Option Cond × MgmtRule) :=
  [line (some .pass) (word "token" ++ argument isArg) .token .tagged,
    line (some .trns) (word "stats" ++ [.star isSpace]) .stats .none,
    line (some .trns) (word "users" ++ [.star isSpace]) .users .none,
    line (some .trns) (word "buffsize" ++ [.star isSpace]) .getBuffsize .none,
    line (some .trns) (word "set-buffsize" ++ argument isNumarg) .setBuffsize .tagged,
    line (some .trns) (word "dissector-status" ++ some1 isSpace) .getDissectorStatus .none,
    line (some .trns) (word "set-dissector-status" ++ keyword "on") .setDissectorStatus .fixed,
    line (some .trns) (word "set-dissector-status" ++ keyword "off") .setDissectorStatus .fixed,
    line (some .trns) (word "add-user" ++ argument isArg) .addUser .tagged,
    line none (word "quit" ++ [.star isSpace]) .quit .none,
    line none (word "capa" ++ [.star isSpace]) .capa .none] ++
  cmds.map (fun c => line none (word c ++ some1 isSpace ++ [.star (· ≠ 0xd)]) .invalidArgs .none) ++
  [line none (some1 isPrint) .invalidCmd .none,
    line none [] .invalidCmd .none]

def rulesOf (cond : Cond) : List MgmtRule :=
  requestRules.filterMap fun r => if r.1 = none ∨ r.1 = some cond then some r.2 else none

/-! ## Input -/

structure Input where
  buf : ℕ → UInt8
  bufSize : ℕ
  lim : ℕ
  cur : ℕ
  mar : ℕ
  tok : ℕ
  /-- `none` for -1; else the automaton as `YYFILL` left it. The pointers `yyt1` and
  `yyt2` are kept with the threads that have set them. -/
  state : Option (List MgmtThread)
  cond : Cond

def initState (inp : Input) : Input :=
  { inp with
    tok := inp.bufSize
    cur := inp.bufSize
    mar := inp.bufSize
    lim := inp.bufSize
    state := none
    cond := .pass
    buf := store inp.buf inp.bufSize [0] }

/-- How much `fillBuffer` asks for. -/
def Input.free (inp : Input) : ℕ := inp.bufSize - (inp.lim - inp.tok)

/-- The four pointers of the scan move with the text; `yyt1` and `yyt2` stay what they
are. -/
def fillBuffer (inp : Input) (r : ReadResult) : Input × ℤ :=
  let shift := inp.tok
  let lim := inp.lim - shift
  let bs := r.bytes inp.free
  ({ inp with
    buf := store (store (move inp.buf 0 shift (inp.bufSize - shift)) lim bs) (lim + bs.length) [0]
    lim := lim + bs.length
    cur := inp.cur - shift
    mar := inp.mar - shift
    tok := inp.tok - shift }, r.count inp.free)

/-! ## Parsing -/

structure Parsed where
  cmd : MgmtCommand
  /-- `args` and `arge`, unless both are null. -/
  arg : Option (ℕ × ℕ)
  len : ℕ
  input : Input

/-- What the generated code stores in `args` and `arge` before a rule's action. -/
def argsOf (th : MgmtThread) (cur : ℕ) : Option (ℕ × ℕ) :=
  match th.rule.result.argEnd, th.marks.lookup .yyt1, th.marks.lookup .yyt2 with
  | .tagged, some args, some arge => some (args, arge)
  | .fixed, some args, _ => some (args, cur - 2)
  | _, _, _ => none

/-- The code behind the rules. -/
def finish (cmd : MgmtCommand) (arg : Option (ℕ × ℕ)) (inp : Input) : Parsed :=
  ⟨cmd, arg, inp.cur - inp.tok, { inp with tok := inp.cur, mar := inp.cur, state := none }⟩

/-- The marker is set behind the first byte of a token, and nowhere else. -/
def Input.marker (inp : Input) : ℕ :=
  if inp.cur = inp.tok ∧ inp.cur < inp.lim then inp.tok + 1 else inp.mar

def scan (ths : List MgmtThread) (inp : Input) : Parsed :=
  match run ths inp.cur (slice inp.buf inp.cur (inp.lim - inp.cur)) with
  | .accept th cur => finish th.rule.result.cmd (argsOf th cur) { inp with cur := cur }
  | .dead => finish .invalidCmd none { inp with cur := inp.marker }
  | .more ths =>
    ⟨.incomplete, none, 0, { inp with cur := inp.lim, mar := inp.marker, state := some ths }⟩

/-- When nothing was read since the lexer stopped, it takes that for the end. -/
def parseMgmtRequest (inp : Input) : Parsed :=
  match inp.state with
  | none => scan (start (rulesOf inp.cond)) inp
  | some ths =>
    if inp.lim ≤ inp.cur then
      if inp.cur = inp.tok then finish .incomplete none inp
      else finish .invalidCmd none { inp with cur := inp.mar }
    else scan ths inp

end Socks5d
