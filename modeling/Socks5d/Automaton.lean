import Socks5d.Lib.GotoScanner
import Socks5d.MgmtProtocol

/-! # The automaton that re2c generated

`mgmt_protocol.re.c`, block by block under its labels: `yyc_pass` is 1 and `yyc_trns` is 76, two
numbers that re2c left out. -/

namespace Socks5d
open Memory Scanner GotoScanner

namespace Automaton
open ByteSet

/-! ## Bytes -/

def cr : ByteSet := single 0xd

def lf : ByteSet := single 0xa

def nul : ByteSet := single 0

def space : ByteSet := single 0x20

def print : ByteSet := range 0x20 0x7f

def graph : ByteSet := range 0x21 0x7f

def digit : ByteSet := range 0x30 0x39

def char (c : Char) : ByteSet := single (byte c)

/-- Both cases of a letter. -/
def letter (c : Char) : ByteSet := (char c.toLower).union (char c.toUpper)

def printBut (cs : List Char) : ByteSet := cs.foldl (fun s c => s.diff (letter c)) print

/-! ## Blocks -/

def case (on : ByteSet) (goto : ℕ) : Arm Tag := ⟨on, none, [], goto⟩

/-- `if (in->lim <= in->cur)`, then `in->state = fill` and `return MGMT_INCOMPLETE`. -/
def ends (on : ByteSet) (fill goto : ℕ) : Arm Tag := ⟨on, some fill, [], goto⟩

def tag (on : ByteSet) (t : Tag) (goto : ℕ) : Arm Tag := ⟨on, none, [t], goto⟩

/-- The blocks that those of one start condition jump to. -/
structure Half where
  invalid : ℕ
  back : ℕ
  cr : ℕ
  print : ℕ
  line : ℕ

def pass : Half := ⟨3, 17, 16, 18, 19⟩

def trns : Half := ⟨78, 92, 91, 93, 94⟩

def byLetter (cr print fill failure : ℕ) (cs : List (Char × ℕ)) : List (Arm Tag) :=
  [case Automaton.cr cr, case (printBut (cs.map (·.1))) print] ++
    cs.map (fun c => case (letter c.1) c.2) ++ [ends univ fill failure]

/-- The block behind the first byte. -/
def initial (h : Half) (fill : ℕ) (cs : List (Char × ℕ)) : Block Tag Action :=
  .read .mark fill (byLetter h.cr h.print fill h.invalid cs)

/-- A block inside of a word. -/
def letters (h : Half) (fill : ℕ) (cs : List (Char × ℕ)) : Block Tag Action :=
  .read .next fill
    ([ends nul fill h.back] ++ cs.map (fun c => case (letter c.1) c.2) ++ [case univ h.line])

def spaces (h : Half) (fill cr self : ℕ) : Block Tag Action :=
  .read .next fill
    [case Automaton.cr cr, case space self, case graph h.print, ends univ fill h.back]

def lineEnd (h : Half) (fill lf : ℕ) : Block Tag Action :=
  .read .next fill [case Automaton.lf lf, ends univ fill h.back]

def arms13 : List (Arm Tag) := [case cr 16, case print 18, ends univ 13 17]

def arms50 : List (Arm Tag) := [case cr 16, case space 59, tag graph .yyt1 64, ends univ 50 17]

def arms76 : List (Arm Tag) := [case cr 91, case print 93, ends univ 76 92]

def arms110 : List (Arm Tag) := [case cr 140, ends univ 110 129]

def arms135 : List (Arm Tag) := [case cr 91, case space 160, tag graph .yyt1 167, ends univ 135 92]

def passBlocks : Program Tag Action :=
  [(1, .read .stay 0 (byLetter 4 5 0 2
      [('b', 6), ('c', 7), ('d', 8), ('l', 9), ('p', 10),
        ('q', 11), ('s', 12), ('t', 13), ('u', 14)])),
    (2, .accept .next ⟨.invalidCmd, .none⟩),
    (3, .accept .stay ⟨.invalidCmd, .none⟩),
    (4, .read .next 1 [case lf 15, ends univ 1 3]),
    (5, initial pass 2 []),
    (6, initial pass 3 [('u', 20)]),
    (7, initial pass 4 [('a', 21)]),
    (8, initial pass 5 [('i', 22)]),
    (9, initial pass 6 [('i', 23)]),
    (10, initial pass 7 [('a', 24)]),
    (11, initial pass 8 [('u', 25)]),
    (12, initial pass 9 [('e', 26)]),
    (13, initial pass 10 [('o', 27)]),
    (14, initial pass 11 [('s', 28)]),
    (15, .accept .next ⟨.invalidCmd, .none⟩),
    (16, lineEnd pass 12 29),
    (17, .restore 3),
    (18, .read .next 13 arms13),
    (19, .switch arms13),
    (20, letters pass 14 [('f', 30)]),
    (21, letters pass 15 [('p', 31)]),
    (22, letters pass 16 [('s', 32)]),
    (23, letters pass 17 [('s', 33)]),
    (24, letters pass 18 [('s', 34)]),
    (25, letters pass 19 [('i', 35)]),
    (26, letters pass 20 [('t', 36)]),
    (27, letters pass 21 [('k', 37)]),
    (28, letters pass 22 [('e', 38)]),
    (29, .accept .next ⟨.invalidCmd, .none⟩),
    (30, letters pass 23 [('f', 39)]),
    (31, letters pass 24 [('a', 40)]),
    (32, letters pass 25 [('s', 41)]),
    (33, letters pass 26 [('t', 42)]),
    (34, letters pass 27 [('s', 42)]),
    (35, letters pass 28 [('t', 43)]),
    (36, letters pass 29 [('-', 44)]),
    (37, letters pass 30 [('e', 45)]),
    (38, letters pass 31 [('r', 34)]),
    (39, letters pass 32 [('s', 46)]),
    (40, spaces pass 33 47 40),
    (41, letters pass 34 [('e', 48)]),
    (42, letters pass 35 [(' ', 49)]),
    (43, spaces pass 36 50 43),
    (44, letters pass 37 [('b', 51), ('d', 52)]),
    (45, letters pass 38 [('n', 53)]),
    (46, letters pass 39 [('i', 54)]),
    (47, lineEnd pass 40 55),
    (48, letters pass 41 [('c', 56)]),
    (49, .read .next 42 [case cr 57, ends univ 42 49]),
    (50, lineEnd pass 43 58),
    (51, letters pass 44 [('u', 20)]),
    (52, letters pass 45 [('i', 22)]),
    (53, .read .next 46 [ends nul 46 17, case graph 18, case univ 60]),
    (54, letters pass 47 [('z', 61)]),
    (55, .accept .next ⟨.capa, .none⟩),
    (56, letters pass 48 [('t', 62)]),
    (57, lineEnd pass 49 63),
    (58, .accept .next ⟨.quit, .none⟩),
    (59, .read .next 50 arms50),
    (60, .switch arms50),
    (61, letters pass 51 [('e', 42)]),
    (62, letters pass 52 [('o', 65)]),
    (63, .accept .next ⟨.invalidArgs, .none⟩),
    (64, .read .next 53 [tag cr .yyt2 66, tag space .yyt2 67, case graph 64, ends univ 53 17]),
    (65, letters pass 54 [('r', 68)]),
    (66, lineEnd pass 55 69),
    (67, spaces pass 56 66 67),
    (68, letters pass 57 [('-', 70)]),
    (69, .accept .next ⟨.token, .tagged⟩),
    (70, letters pass 58 [('s', 71)]),
    (71, letters pass 59 [('t', 72)]),
    (72, letters pass 60 [('a', 73)]),
    (73, letters pass 61 [('t', 74)]),
    (74, letters pass 62 [('u', 34)]),
    (75, .accept .stay ⟨.incomplete, .none⟩)]

def trnsBlocks : Program Tag Action :=
  [(76, .read .stay 63 (byLetter 79 80 63 77
      [('a', 81), ('b', 82), ('c', 83), ('d', 84), ('l', 85), ('p', 86),
        ('q', 87), ('s', 88), ('u', 89)])),
    (77, .accept .next ⟨.invalidCmd, .none⟩),
    (78, .accept .stay ⟨.invalidCmd, .none⟩),
    (79, .read .next 64 [case lf 90, ends univ 64 78]),
    (80, initial trns 65 []),
    (81, initial trns 66 [('d', 95)]),
    (82, initial trns 67 [('u', 96)]),
    (83, initial trns 68 [('a', 97)]),
    (84, initial trns 69 [('i', 98)]),
    (85, initial trns 70 [('i', 99)]),
    (86, initial trns 71 [('a', 100)]),
    (87, initial trns 72 [('u', 101)]),
    (88, initial trns 73 [('e', 102), ('t', 103)]),
    (89, initial trns 74 [('s', 104)]),
    (90, .accept .next ⟨.invalidCmd, .none⟩),
    (91, lineEnd trns 75 105),
    (92, .restore 78),
    (93, .read .next 76 arms76),
    (94, .switch arms76),
    (95, letters trns 77 [('d', 106)]),
    (96, letters trns 78 [('f', 107)]),
    (97, letters trns 79 [('p', 108)]),
    (98, letters trns 80 [('s', 109)]),
    (99, letters trns 81 [('s', 110)]),
    (100, letters trns 82 [('s', 111)]),
    (101, letters trns 83 [('i', 112)]),
    (102, letters trns 84 [('t', 113)]),
    (103, letters trns 85 [('a', 114)]),
    (104, letters trns 86 [('e', 115)]),
    (105, .accept .next ⟨.invalidCmd, .none⟩),
    (106, letters trns 87 [('-', 116)]),
    (107, letters trns 88 [('f', 117)]),
    (108, letters trns 89 [('a', 118)]),
    (109, letters trns 90 [('s', 119)]),
    (110, letters trns 91 [('t', 120)]),
    (111, letters trns 92 [('s', 120)]),
    (112, letters trns 93 [('t', 121)]),
    (113, letters trns 94 [('-', 122)]),
    (114, letters trns 95 [('t', 123)]),
    (115, letters trns 96 [('r', 124)]),
    (116, letters trns 97 [('u', 125)]),
    (117, letters trns 98 [('s', 126)]),
    (118, spaces trns 99 127 118),
    (119, letters trns 100 [('e', 128)]),
    (120, letters trns 101 [(' ', 129)]),
    (121, spaces trns 102 131 121),
    (122, letters trns 103 [('b', 132), ('d', 133)]),
    (123, letters trns 104 [('s', 134)]),
    (124, letters trns 105 [('s', 135)]),
    (125, letters trns 106 [('s', 136)]),
    (126, letters trns 107 [('i', 137)]),
    (127, lineEnd trns 108 138),
    (128, letters trns 109 [('c', 139)]),
    (129, .read .next 110 arms110),
    (130, .switch arms110),
    (131, lineEnd trns 111 141),
    (132, letters trns 112 [('u', 142)]),
    (133, letters trns 113 [('i', 143)]),
    (134, spaces trns 114 144 134),
    (135, .read .next 115 [ends nul 115 92, case cr 145, case space 146, case univ 94]),
    (136, letters trns 116 [('e', 147)]),
    (137, letters trns 117 [('z', 148)]),
    (138, .accept .next ⟨.capa, .none⟩),
    (139, letters trns 118 [('t', 149)]),
    (140, lineEnd trns 119 150),
    (141, .accept .next ⟨.quit, .none⟩),
    (142, letters trns 120 [('f', 151)]),
    (143, letters trns 121 [('s', 152)]),
    (144, lineEnd trns 122 153),
    (145, lineEnd trns 123 154),
    (146, .read .next 124 [case cr 145, case space 146, ends univ 124 129]),
    (147, letters trns 125 [('r', 155)]),
    (148, letters trns 126 [('e', 156)]),
    (149, letters trns 127 [('o', 157)]),
    (150, .accept .next ⟨.invalidArgs, .none⟩),
    (151, letters trns 128 [('f', 158)]),
    (152, letters trns 129 [('s', 159)]),
    (153, .accept .next ⟨.stats, .none⟩),
    (154, .accept .next ⟨.users, .none⟩),
    (155, .read .next 130 [ends nul 130 92, case graph 93, case univ 161]),
    (156, .read .next 131 [ends nul 131 92, case cr 162, case space 163, case univ 94]),
    (157, letters trns 132 [('r', 164)]),
    (158, letters trns 133 [('s', 165)]),
    (159, letters trns 134 [('e', 166)]),
    (160, .read .next 135 arms135),
    (161, .switch arms135),
    (162, lineEnd trns 136 168),
    (163, .read .next 137 [case cr 162, case space 163, ends univ 137 129]),
    (164, letters trns 138 [('-', 169)]),
    (165, letters trns 139 [('i', 170)]),
    (166, letters trns 140 [('c', 171)]),
    (167, .read .next 141
      [tag cr .yyt2 172, tag space .yyt2 173, case graph 167, ends univ 141 92]),
    (168, .accept .next ⟨.getBuffsize, .none⟩),
    (169, letters trns 142 [('s', 174)]),
    (170, letters trns 143 [('z', 175)]),
    (171, letters trns 144 [('t', 176)]),
    (172, lineEnd trns 145 177),
    (173, spaces trns 146 172 173),
    (174, letters trns 147 [('t', 178)]),
    (175, letters trns 148 [('e', 179)]),
    (176, letters trns 149 [('o', 180)]),
    (177, .accept .next ⟨.addUser, .tagged⟩),
    (178, letters trns 150 [('a', 181)]),
    (179, letters trns 151 [(' ', 182)]),
    (180, letters trns 152 [('r', 183)]),
    (181, letters trns 153 [('t', 184)]),
    (182, .read .next 154 [case cr 140, case space 182, tag digit .yyt1 185, ends univ 154 129]),
    (183, letters trns 155 [('-', 186)]),
    (184, letters trns 156 [('u', 187)]),
    (185, .read .next 157
      [tag cr .yyt2 188, tag space .yyt2 189, case digit 185, ends univ 157 129]),
    (186, letters trns 158 [('s', 190)]),
    (187, letters trns 159 [('s', 191)]),
    (188, lineEnd trns 160 192),
    (189, .read .next 161 [case cr 188, case space 189, ends univ 161 129]),
    (190, letters trns 162 [('t', 193)]),
    (191, letters trns 163 [(' ', 194)]),
    (192, .accept .next ⟨.setBuffsize, .tagged⟩),
    (193, letters trns 164 [('a', 195)]),
    (194, .read .next 165 [case cr 196, case space 194, ends univ 165 129]),
    (195, letters trns 166 [('t', 197)]),
    (196, lineEnd trns 167 198),
    (197, letters trns 168 [('u', 199)]),
    (198, .accept .next ⟨.getDissectorStatus, .none⟩),
    (199, letters trns 169 [('s', 200)]),
    (200, letters trns 170 [(' ', 201)]),
    (201, .read .next 171
      [case cr 140, case space 201, tag (char 'o') .yyt1 202, ends univ 171 129]),
    (202, .read .next 172
      [ends nul 172 129, case (char 'f') 203, case (char 'n') 204, case univ 130]),
    (203, .read .next 173 [ends nul 173 129, case (char 'f') 204, case univ 130]),
    (204, .read .next 174 [case cr 205, ends univ 174 129]),
    (205, lineEnd trns 175 206),
    (206, .accept .next ⟨.setDissectorStatus, .fixed⟩),
    (207, .accept .stay ⟨.incomplete, .none⟩)]

def blocks : Program Tag Action := passBlocks ++ trnsBlocks

/-! ## The function around the blocks -/

/-- The registers `yyt1` and `yyt2` are whatever the memory held before they are first set. -/
structure Input where
  buf : ℕ → UInt8
  bufSize : ℕ
  lim : ℕ
  cur : ℕ
  mar : ℕ
  tok : ℕ
  /-- `none` for -1. -/
  state : Option ℕ
  cond : Cond
  yyt1 : ℕ
  yyt2 : ℕ

def Input.regs (inp : Input) : Regs Tag :=
  ⟨inp.buf, inp.lim, inp.cur, inp.mar, fun t => match t with
    | .yyt1 => inp.yyt1
    | .yyt2 => inp.yyt2⟩

def Input.setRegs (inp : Input) (m : Regs Tag) : Input :=
  { inp with
    buf := m.buf
    lim := m.lim
    cur := m.cur
    mar := m.mar
    yyt1 := m.reg .yyt1
    yyt2 := m.reg .yyt2 }

def initState (inp : Input) : Input :=
  { inp with
    tok := inp.bufSize
    cur := inp.bufSize
    mar := inp.bufSize
    lim := inp.bufSize
    state := none
    cond := .pass
    buf := store inp.buf inp.bufSize [0] }

def Input.free (inp : Input) : ℕ := inp.bufSize - (inp.lim - inp.tok)

def fillBuffer (inp : Input) (r : ReadResult) : Input × ℤ :=
  let shift := inp.tok
  let lim := inp.lim - shift
  let bs := r.bytes inp.free
  ({ inp with
    buf := store (store (move inp.buf 0 shift (inp.bufSize - shift)) lim bs) (lim + bs.length) [0]
    lim := lim + bs.length
    cur := inp.cur - shift
    mar := inp.mar - shift
    tok := inp.tok - shift }, r.count inp.free)

/-- `switch (YYGETSTATE)`, if `lim <= cur`. -/
def atEnd (k : ℕ) : ℕ :=
  if k = 0 then 75 else if k ≤ 11 then 3 else if k ≤ 62 then 17 else if k = 63 then 207
  else if k ≤ 74 then 78 else 92

/-- `switch (YYGETSTATE)` and `switch (in->cond)`. No `yych` is read before it is set. -/
def Input.entry (inp : Input) : Point :=
  match inp.state, inp.cond with
  | none, .pass => .label 1 0
  | none, .trns => .label 76 0
  | some k, _ => if inp.lim ≤ inp.cur then .label (atEnd k) 0 else .fill k

structure Parsed where
  cmd : MgmtCommand
  arg : Option (ℕ × ℕ)
  len : ℕ
  input : Input

def argsOf (a : Action) (m : Regs Tag) : Option (ℕ × ℕ) :=
  match a.argEnd with
  | .none => none
  | .tagged => some (m.reg .yyt1, m.reg .yyt2)
  | .fixed => some (m.reg .yyt1, m.cur - 2)

def finish (cmd : MgmtCommand) (arg : Option (ℕ × ℕ)) (inp : Input) : Parsed :=
  ⟨cmd, arg, inp.cur - inp.tok, { inp with tok := inp.cur, mar := inp.cur, state := none }⟩

/-- `YYFILL` returns at once, and stores nothing through the pointers. -/
def outcome (inp : Input) : Status Tag Action → Option Parsed
  | .result a m => some (finish a.cmd (argsOf a m) (inp.setRegs m))
  | .incomplete k m => some ⟨.incomplete, none, 0, { inp.setRegs m with state := some k }⟩
  | .goes _ _ => none

/-- More jumps than a call makes. -/
def Input.jumps (inp : Input) : ℕ := 5 * (inp.lim - inp.cur) + 2

/-- There is no answer if the blocks jump more often. -/
def parseMgmtRequest (inp : Input) : Option Parsed :=
  (run blocks inp.jumps inp.entry inp.regs).bind (outcome inp)

end Automaton

end Socks5d
