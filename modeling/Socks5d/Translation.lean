import Socks5d.Automaton
import Socks5d.Window

/-! # The automaton and the rules

The blocks that re2c generated do what the rules of `mgmt_protocol.re` say, whatever the lexer is
called with and in whatever order. The rules are given once more as sets of bytes, so that the
blocks can be checked against them. -/

namespace Socks5d
open Memory Scanner GotoScanner EventRun

namespace Automaton
open ByteSet

/-! ## The rules, as sets of bytes -/

def word (cs : List Char) : List (Piece Tag) := cs.map fun c => .one (letter c)

def literal (cs : List Char) : List (Piece Tag) := cs.map fun c => .one (char c)

def crlf : List (Piece Tag) := [.one cr, .one lf]

def some1 (s : ByteSet) : List (Piece Tag) := [.one s, .star s]

def argument (s : ByteSet) : List (Piece Tag) :=
  some1 space ++ [.tag .yyt1] ++ some1 s ++ [.tag .yyt2, .star space]

def keyword (cs : List Char) : List (Piece Tag) := some1 space ++ [.tag .yyt1] ++ literal cs

def line (cond : Option Cond) (p : List (Piece Tag)) (cmd : MgmtCommand) (argEnd : ArgEnd) :
    Option Cond × ByteRule Tag Action := (cond, ⟨p ++ crlf, ⟨cmd, argEnd⟩⟩)

def passWord : List Char := ['p', 'a', 's', 's']
def users : List Char := ['u', 's', 'e', 'r', 's']
def buffsize : List Char := ['b', 'u', 'f', 'f', 's', 'i', 'z', 'e']
def dissectorStatus : List Char :=
  ['d', 'i', 's', 's', 'e', 'c', 't', 'o', 'r', '-', 's', 't', 'a', 't', 'u', 's']
def set : List Char := ['s', 'e', 't', '-']

def cmds : List (List Char) :=
  [passWord, users, ['l', 'i', 's', 't'], buffsize, set ++ buffsize, dissectorStatus,
    set ++ dissectorStatus]

def byteRules : List (Option Cond × ByteRule Tag Action) :=
  [line (some .pass) (word ['t', 'o', 'k', 'e', 'n'] ++ argument graph) .token .tagged,
    line (some .trns) (word ['s', 't', 'a', 't', 's'] ++ [.star space]) .stats .none,
    line (some .trns) (word users ++ [.star space]) .users .none,
    line (some .trns) (word buffsize ++ [.star space]) .getBuffsize .none,
    line (some .trns) (word (set ++ buffsize) ++ argument digit) .setBuffsize .tagged,
    line (some .trns) (word dissectorStatus ++ some1 space) .getDissectorStatus .none,
    line (some .trns) (word (set ++ dissectorStatus) ++ keyword ['o', 'n']) .setDissectorStatus
      .fixed,
    line (some .trns) (word (set ++ dissectorStatus) ++ keyword ['o', 'f', 'f']) .setDissectorStatus
      .fixed,
    line (some .trns) (word ['a', 'd', 'd', '-', 'u', 's', 'e', 'r'] ++ argument graph) .addUser
      .tagged,
    line none (word ['q', 'u', 'i', 't'] ++ [.star space]) .quit .none,
    line none (word ['c', 'a', 'p', 'a'] ++ [.star space]) .capa .none] ++
  cmds.map (fun c =>
    line none (word c ++ some1 space ++ [.star (univ.diff cr)]) .invalidArgs .none) ++
  [line none (some1 print) .invalidCmd .none,
    line none [] .invalidCmd .none]

def byteRulesOf (cond : Cond) : List (ByteRule Tag Action) :=
  byteRules.filterMap fun r => if r.1 = none ∨ r.1 = some cond then some r.2 else none

def needs (a : Action) : List Tag :=
  match a.argEnd with
  | .none => []
  | .tagged => [.yyt1, .yyt2]
  | .fixed => [.yyt1]

def checker (cond : Cond) : Checker Tag Action where
  blocks := (Index.build 8 blocks).1
  switches := (Index.build 8 (switches blocks)).1
  rules := byteRulesOf cond
  sentinel := 0
  atEnd := atEnd
  failure := ⟨.invalidCmd, .none⟩
  nothing := ⟨.incomplete, .none⟩
  needs := needs

/-- Before the first byte, at the label of a start condition. -/
def startKnown (cond : Cond) : Known Tag where
  fill := match cond with
    | .pass => 0
    | .trns => 63
  depth := some 0
  marked := false
  spots := startSpots (byteRulesOf cond)

theorem blocks_sorted : (blocks.map Prod.fst).Pairwise (· < ·) := by
  apply List.isChain_iff_pairwise.mp
  decide +kernel

theorem switches_sorted : ((switches blocks).map Prod.fst).Pairwise (· < ·) := by
  apply List.isChain_iff_pairwise.mp
  decide +kernel

/-- The blocks of a start condition are checked against its rules. -/
theorem explored (cond : Cond) :
    (explore (checker cond) 2000 [startKnown cond] []).isSome = true := by
  cases cond with
  | pass => decide +kernel
  | trns => decide +kernel

/-! ### They are the rules -/

variable {b : UInt8} {s : ByteSet} {p : UInt8 → Bool}

abbrev atoms (ps : List (Piece Tag)) : MgmtPattern := ps.map Piece.atom

theorem mem_letter (c : Char) :
    (letter c).mem = fun b => decide (b = byte c.toLower) || decide (b = byte c.toUpper) := by
  funext b
  simp [letter, char]

theorem mem_space : space.mem = isSpace := by
  funext b
  simp [space, isSpace]

theorem mem_print : print.mem = isPrint := by
  funext b
  simp [print, isPrint]

theorem mem_graph : graph.mem = isArg := by
  funext b
  rw [Bool.eq_iff_iff]
  simp [graph, isArg, isPrint, isSpace, UInt8.le_iff_toNat_le, ← UInt8.toNat_inj]
  omega

theorem mem_digit : digit.mem = isNumarg := by
  funext b
  simp [digit, isNumarg]

theorem mem_notCr : (univ.diff cr).mem = fun b => decide (b ≠ 0xd) := by
  funext b
  simp [cr]

theorem atoms_word (cs : List Char) : atoms (word cs) = Socks5d.word (String.ofList cs) := by
  simp only [atoms, word, Socks5d.word, List.map_map, String.toList_ofList]
  congr 1
  funext c
  simp only [Function.comp_apply, Piece.atom, mem_letter]

theorem atoms_literal (cs : List Char) :
    atoms (literal cs) = Socks5d.literal (String.ofList cs) := by
  simp only [atoms, literal, Socks5d.literal, List.map_map, String.toList_ofList]
  congr 1
  funext c
  simp only [Function.comp_apply, Piece.atom, char]
  congr 1
  funext b
  exact mem_single

theorem atoms_crlf : atoms crlf = Socks5d.crlf := by
  simp only [atoms, crlf, Socks5d.crlf, List.map_cons, List.map_nil, Piece.atom]
  congr 2
  · funext b
    exact mem_single
  · congr 1
    funext b
    exact mem_single

theorem atoms_some1 (h : s.mem = p) : atoms (some1 s) = Socks5d.some1 p := by
  rw [← h]
  rfl

theorem atoms_argument (h : s.mem = p) : atoms (argument s) = Socks5d.argument p := by
  rw [← h, Socks5d.argument, ← mem_space]
  rfl

theorem atoms_keyword (cs : List Char) :
    atoms (keyword cs) = Socks5d.keyword (String.ofList cs) := by
  rw [Socks5d.keyword, ← atoms_literal, ← mem_space]
  rfl

def ruleOf (r : Option Cond × ByteRule Tag Action) : Option Cond × MgmtRule := (r.1, r.2.rule)

theorem ruleOf_line (cond : Option Cond) (ps : List (Piece Tag)) (cmd : MgmtCommand)
    (argEnd : ArgEnd) :
    ruleOf (line cond ps cmd argEnd) = Socks5d.line cond (atoms ps) cmd argEnd := by
  rw [Socks5d.line, ← atoms_crlf]
  simp only [ruleOf, line, ByteRule.rule, atoms, List.map_append]

theorem requestRules_bytes : requestRules = byteRules.map ruleOf := by
  have hstar : ∀ (s : ByteSet) (p : UInt8 → Bool), s.mem = p →
      atoms [.star s] = [.star p] := by
    intro s p h
    rw [← h]
    rfl
  have happend : ∀ ps qs : List (Piece Tag), atoms (ps ++ qs) = atoms ps ++ atoms qs :=
    fun _ _ => List.map_append
  simp only [byteRules, List.map_append, List.map_cons, List.map_nil, ruleOf_line, happend,
    atoms_word, atoms_argument mem_graph, atoms_argument mem_digit, atoms_keyword,
    hstar _ _ mem_space, atoms_some1 mem_space, atoms_some1 mem_print, List.map_map]
  have hcmds : Socks5d.cmds = cmds.map String.ofList := rfl
  have hinvalid : (ruleOf ∘ fun c => line none (word c ++ some1 space ++ [.star (univ.diff cr)])
      .invalidArgs .none) = (fun c => Socks5d.line none
        (Socks5d.word c ++ Socks5d.some1 isSpace ++ [.star (· ≠ 0xd)]) .invalidArgs .none) ∘
          String.ofList := by
    funext c
    simp only [Function.comp_apply, ruleOf_line, happend, atoms_word, atoms_some1 mem_space,
      hstar _ _ mem_notCr]
  rw [hinvalid, requestRules, hcmds, List.map_map]
  rfl

theorem rulesOf_bytes (cond : Cond) : rulesOf cond = (byteRulesOf cond).map ByteRule.rule := by
  rw [rulesOf, requestRules_bytes, byteRulesOf, List.map_filterMap, List.filterMap_map]
  congr 1
  funext r
  by_cases h : r.1 = none ∨ r.1 = some cond
  · have h' : (ruleOf r).1 = none ∨ (ruleOf r).1 = some cond := h
    rw [Function.comp_apply, if_pos h', if_pos h]
    rfl
  · have h' : ¬((ruleOf r).1 = none ∨ (ruleOf r).1 = some cond) := h
    rw [Function.comp_apply, if_neg h', if_neg h]
    rfl

/-! ## A call -/

theorem fits (cond : Cond) : Indexes (checker cond) blocks :=
  ⟨fun h => Index.find_build blocks_sorted h, fun h => Index.find_build switches_sorted h⟩

def known (cond : Cond) : List (Known Tag) :=
  (explore (checker cond) 2000 [startKnown cond] []).getD []

theorem known_closed (cond : Cond) :
    Closed (checker cond) (known cond) ∧ startKnown cond ∈ known cond := by
  obtain ⟨l, hl⟩ := Option.isSome_iff_exists.mp (explored cond)
  have hknown : known cond = l := by rw [known, hl, Option.getD_some]
  obtain ⟨hclosed, -, htodo⟩ := explore_closed hl fun e he => by (cases he)
  rw [hknown]
  exact ⟨hclosed, htodo _ (List.mem_singleton_self _)⟩

/-- Where the automaton stopped, it knows what the threads are. -/
inductive Resumes (inp : Input) : Option (List MgmtThread) → Prop
  | fresh (h : inp.state = none) : Resumes inp none
  | stopped {cond : Cond} {e : Known Tag} {ths : List MgmtThread} (h : inp.state = some e.fill)
    (he : e ∈ known cond) (hst : Stands (checker cond) inp.tok e inp.regs ths) :
    Resumes inp (some ths)

/-- The automaton and the rules have the same text before them, which ends in a zero. -/
structure Follows (inp : Input) (inp' : Socks5d.Input) : Prop where
  buf : inp.buf = inp'.buf
  bufSize : inp.bufSize = inp'.bufSize
  lim : inp.lim = inp'.lim
  cur : inp.cur = inp'.cur
  tok : inp.tok = inp'.tok
  cond : inp.cond = inp'.cond
  sentinel : inp'.buf inp'.lim = 0
  sound : inp'.Sound
  resumes : Resumes inp inp'.state

/-- What a call of `parseMgmtRequest` tells its caller. -/
structure Answer where
  cmd : MgmtCommand
  arg : Option (ℕ × ℕ)
  len : ℕ
deriving DecidableEq

def Parsed.answer (p : Parsed) : Answer := ⟨p.cmd, p.arg, p.len⟩

def answerOf (p : Socks5d.Parsed) : Answer := ⟨p.cmd, p.arg, p.len⟩

variable {inp : Input} {inp' : Socks5d.Input} {m : Regs Tag} {th : MgmtThread} {cond : Cond}
  {ths : List MgmtThread} {st : Status Tag Action} {r : Result UInt8 Tag Action}

theorem lookup_marks {reg : Tag → ℕ} {ts : List Tag} {t : Tag} (h : t ∈ ts) :
    (marksOf reg ts).lookup t = some (reg t) := by
  induction ts with
  | nil => cases h
  | cons t' ts ih =>
    rw [marksOf, List.map_cons, List.lookup_cons]
    by_cases heq : t = t'
    · subst heq
      simp
    · rw [beq_eq_false_iff_ne.mpr heq]
      exact ih ((List.mem_cons.mp h).resolve_left heq)

/-- The registers hold what the rules have marked. -/
theorem argsOf_marks {ts : List Tag} (hmarks : th.marks = marksOf m.reg ts)
    (hneeds : ∀ t ∈ needs th.rule.result, t ∈ ts) :
    Socks5d.argsOf th m.cur = argsOf th.rule.result m := by
  rw [Socks5d.argsOf, argsOf, hmarks]
  rw [needs] at hneeds
  cases hend : th.rule.result.argEnd with
  | none => rfl
  | tagged =>
    rw [hend] at hneeds
    rw [lookup_marks (hneeds .yyt1 (by simp)), lookup_marks (hneeds .yyt2 (by simp))]
  | fixed =>
    rw [hend] at hneeds
    rw [lookup_marks (hneeds .yyt1 (by simp))]

theorem regs_setRegs : (inp.setRegs m).regs = m := by
  rw [Input.regs, Input.setRegs]
  congr 1
  funext t
  cases t with
  | yyt1 => rfl
  | yyt2 => rfl

/-- A token ends where the registers say. -/
theorem Follows.finish (h : Follows inp inp') (hbuf : m.buf = inp.buf) (hlim : m.lim = inp.lim)
    (cmd : MgmtCommand) (arg : Option (ℕ × ℕ))
    (hs : (Socks5d.finish cmd arg { inp' with cur := m.cur }).input.Sound) :
    (Automaton.finish cmd arg (inp.setRegs m)).answer =
        answerOf (Socks5d.finish cmd arg { inp' with cur := m.cur }) ∧
      Follows (Automaton.finish cmd arg (inp.setRegs m)).input
        (Socks5d.finish cmd arg { inp' with cur := m.cur }).input := by
  refine ⟨?_, hbuf.trans h.buf, h.bufSize, hlim.trans h.lim, rfl, rfl, h.cond, h.sentinel, hs,
    .fresh rfl⟩
  change (⟨cmd, arg, m.cur - inp.tok⟩ : Answer) = ⟨cmd, arg, m.cur - inp'.tok⟩
  rw [h.tok]

/-- If the blocks end as the threads do, the caller sees the same. -/
theorem Follows.scan (h : Follows inp inp')
    (hag : Agrees (checker cond) (known cond) inp.tok inp.regs
      (Scanner.run ths inp'.cur (slice inp'.buf inp'.cur (inp'.lim - inp'.cur))) st) :
    ∃ p, outcome inp st = some p ∧ p.answer = answerOf (Socks5d.scan ths inp') ∧
      Follows p.input (Socks5d.scan ths inp').input := by
  have hsound := (scan_sound h.sound ths).1
  have hcur := h.sound.tok_le
  unfold Socks5d.scan at hsound ⊢
  cases hr : Scanner.run ths inp'.cur (slice inp'.buf inp'.cur (inp'.lim - inp'.cur)) with
  | accept th pos =>
    rw [hr] at hag hsound
    cases hag with
    | @accept _ _ m ts hbuf hlim hpos hmarks hneeds =>
      subst hpos
      have hargs := argsOf_marks hmarks hneeds
      dsimp only at hsound ⊢
      rw [hargs] at hsound ⊢
      exact ⟨_, rfl, h.finish hbuf hlim _ _ hsound⟩
  | dead =>
    rw [hr] at hag hsound
    have hne := List.length_pos_iff.mpr (run_ne_nil hr)
    rw [slice_length] at hne
    have hmark := h.sound.marker (by omega)
    cases hag with
    | @dead m hbuf hlim hpos =>
      rw [h.tok] at hpos
      dsimp only at hsound ⊢
      rw [hmark, ← hpos] at hsound ⊢
      exact ⟨_, rfl, h.finish hbuf hlim .invalidCmd none hsound⟩
  | more ths' =>
    rw [hr] at hag hsound
    cases hag with
    | @more _ e m he hbuf hlim hpos hst =>
      refine ⟨_, rfl, rfl, hbuf.trans h.buf, h.bufSize, hlim.trans h.lim, hpos.trans h.lim, h.tok,
        h.cond, h.sentinel, hsound, .stopped rfl he ?_⟩
      change Stands _ inp.tok e (inp.setRegs m).regs ths'
      rw [regs_setRegs]
      exact hst

/-- From a fill label that the blocks come to at once. -/
theorem Follows.run (h : Follows inp inp') {e : Known Tag} (he : e ∈ known cond)
    (hst : Stands (checker cond) inp.tok e inp.regs ths) {i : ℕ} (hi : i ≤ 1)
    (hsteps : Steps blocks i inp.entry inp.regs (.goes (.fill e.fill) inp.regs)) :
    ∃ p, parseMgmtRequest inp = some p ∧ p.answer = answerOf (Socks5d.scan ths inp') ∧
      Follows p.input (Socks5d.scan ths inp').input := by
  have hle := h.sound.cur_le
  have hz : inp.regs.buf inp.regs.lim = 0 := by
    change inp.buf inp.lim = 0
    rw [h.buf, h.lim]
    exact h.sentinel
  obtain ⟨st, j, hj, hrun, hag⟩ := run_agrees (fits cond) (known_closed cond).1 he hst hz
    (by change inp.cur ≤ inp.lim; rw [h.cur, h.lim]; exact hle)
  have hregs : slice inp.regs.buf inp.regs.cur (inp.regs.lim - inp.regs.cur) =
      slice inp'.buf inp'.cur (inp'.lim - inp'.cur) := by
    rw [← h.buf, ← h.cur, ← h.lim]
    rfl
  have hcur : inp.regs.cur = inp'.cur := h.cur
  rw [hregs, hcur] at hag
  obtain ⟨p, hp, hanswer, hfollows⟩ := h.scan hag
  have hfinal : ∀ p' m', st ≠ .goes p' m' := by
    rintro p' m' rfl
    cases hp
  have hres := (hsteps.trans hrun).result (n := inp.jumps)
    (by
      change j ≤ 5 * (inp.lim - inp.cur) + 1 at hj
      change j + i ≤ 5 * (inp.lim - inp.cur) + 2
      omega) hfinal
  exact ⟨p, by rw [parseMgmtRequest, hres, Option.bind_some, hp], hanswer, hfollows⟩

/-- A call of the generated function. -/
theorem Follows.parse (h : Follows inp inp') :
    ∃ p, parseMgmtRequest inp = some p ∧
      p.answer = answerOf (Socks5d.parseMgmtRequest inp') ∧
      Follows p.input (Socks5d.parseMgmtRequest inp').input := by
  have hresumes := h.resumes
  have hsound := (parseMgmtRequest_sound h.sound).1
  unfold Socks5d.parseMgmtRequest at hsound ⊢
  cases hst' : inp'.state with
  | none =>
    rw [hst'] at hresumes
    cases hresumes with
    | fresh hstate =>
      have hcur : inp.cur = inp.tok := by rw [h.cur, h.tok, h.sound.fresh hst']
      have hstands : Stands (checker inp.cond) inp.tok (startKnown inp.cond) inp.regs
          (start (rulesOf inp'.cond)) := by
        refine ⟨⟨hcur.ge, fun hd => by (cases hd), fun d hd => ?_, fun hm => by (cases hm)⟩, ?_⟩
        · cases hd
          exact hcur
        · rw [← h.cond, rulesOf_bytes]
          exact (threads_start _ _).symm
      refine h.run (known_closed inp.cond).2 hstands (Nat.le_refl 1) (.one ?_)
      rw [Input.entry, hstate]
      cases inp.cond with
      | pass => rfl
      | trns => rfl
  | some ths =>
    rw [hst'] at hresumes hsound
    dsimp only at hsound ⊢
    cases hresumes with
    | @stopped cond e _ hstate he hst =>
      have hentry : inp'.lim ≤ inp'.cur → inp.entry = .label (atEnd e.fill) 0 := by
        intro hend
        rw [Input.entry, hstate]
        dsimp only
        rw [if_pos (by rw [h.lim, h.cur]; exact hend)]
      obtain ⟨st, j, hj, hsteps, hst'⟩ :=
        end_agrees (b := 0) (fits cond) (known_closed cond).1 he hst
      have hjumps : j ≤ inp.jumps := hj.trans (Nat.le_add_left 2 _)
      split_ifs at hsound ⊢ with hend htok
      · -- nothing has come at all
        rw [← h.cur, ← h.tok] at htok
        obtain ⟨-, rfl⟩ := hst'.resolve_right fun hr => absurd hr.1 (by
          change ¬ inp.tok < inp.cur
          omega)
        have hres := hsteps.result hjumps (by simp)
        have heta : ({ inp' with cur := inp.regs.cur } : Socks5d.Input) = inp' := by
          change ({ inp' with cur := inp.cur } : Socks5d.Input) = inp'
          rw [h.cur]
        have hfin := h.finish (m := inp.regs) rfl rfl .incomplete none (by rw [heta]; exact hsound)
        rw [heta] at hfin
        refine ⟨_, ?_, hfin⟩
        rw [parseMgmtRequest, hentry hend]
        change (GotoScanner.run blocks inp.jumps (.label ((checker cond).atEnd e.fill) 0)
          inp.regs).bind _ = _
        rw [hres]
        rfl
      · have hmark := h.sound.marked htok
        rw [← h.cur, ← h.tok] at htok
        obtain ⟨-, hdead⟩ := hst'.resolve_left fun hl => htok hl.1
        cases hdead with
        | @dead m hbuf hlim hcur =>
          rw [h.tok, ← hmark] at hcur
          rw [← hcur] at hsound ⊢
          have hres := hsteps.result hjumps (by simp)
          refine ⟨_, ?_, h.finish hbuf hlim .invalidCmd none hsound⟩
          rw [parseMgmtRequest, hentry hend]
          change (GotoScanner.run blocks inp.jumps (.label ((checker cond).atEnd e.fill) 0)
            inp.regs).bind _ = _
          rw [hres]
          rfl
      · refine h.run he hst (Nat.zero_le 1) ?_
        have hentry : inp.entry = .fill e.fill := by
          rw [Input.entry, hstate]
          dsimp only
          rw [if_neg (by rw [h.lim, h.cur]; exact hend)]
        rw [hentry]
        exact .zero

/-! ## Sequences of calls -/

theorem Follows.fill (h : Follows inp inp') (r : ReadResult) :
    (fillBuffer inp r).2 = (Socks5d.fillBuffer inp' r).2 ∧
      Follows (fillBuffer inp r).1 (Socks5d.fillBuffer inp' r).1 := by
  have hfree : inp.free = inp'.free := by
    rw [Input.free, Socks5d.Input.free, h.bufSize, h.lim, h.tok]
  refine ⟨?_, ?_, h.bufSize, ?_, ?_, ?_, h.cond, ?_, fillBuffer_sound h.sound r, ?_⟩
  · simp only [fillBuffer, Socks5d.fillBuffer, hfree]
  · simp only [fillBuffer, Socks5d.fillBuffer, hfree, h.buf, h.bufSize, h.lim, h.tok]
  · simp only [fillBuffer, Socks5d.fillBuffer, hfree, h.lim, h.tok]
  · simp only [fillBuffer, Socks5d.fillBuffer, h.cur, h.tok]
  · simp only [fillBuffer, Socks5d.fillBuffer, h.tok]
  · simp [Socks5d.fillBuffer, store]
  · have hresumes := h.resumes
    change Resumes _ inp'.state
    generalize inp'.state = st at hresumes ⊢
    cases hresumes with
    | fresh hstate => exact .fresh hstate
    | @stopped cond e ths hstate he hst =>
      have hle := hst.holds.le
      refine .stopped hstate he ⟨⟨?_, ?_, ?_, ?_⟩, hst.threads⟩
      · change inp.tok - inp.tok ≤ inp.cur - inp.tok
        omega
      · intro hd
        have hlt : inp.tok < inp.cur := hst.holds.beyond hd
        change inp.tok - inp.tok < inp.cur - inp.tok
        omega
      · intro d hd
        have hcur : inp.cur = inp.tok + d := hst.holds.depth d hd
        change inp.cur - inp.tok = inp.tok - inp.tok + d
        omega
      · intro hm
        have hmar : inp.mar = inp.tok + 1 := hst.holds.marked hm
        change inp.mar - inp.tok = inp.tok - inp.tok + 1
        omega

def Input.setCond (inp : Input) (cond : Cond) : Input := { inp with cond := cond }

theorem Follows.setCond (h : Follows inp inp') (cond : Cond) :
    Follows (inp.setCond cond) (inp'.setCond cond) := by
  refine ⟨h.buf, h.bufSize, h.lim, h.cur, h.tok, rfl, h.sentinel, h.sound.setCond cond, ?_⟩
  have hresumes := h.resumes
  change Resumes _ inp'.state
  generalize inp'.state = st at hresumes ⊢
  cases hresumes with
  | fresh hstate => exact .fresh hstate
  | stopped hstate he hst => exact .stopped hstate he hst

/-- What the rules make of the memory of an automaton. -/
def Input.rules (inp : Input) : Socks5d.Input :=
  ⟨inp.buf, inp.bufSize, inp.lim, inp.cur, inp.mar, inp.tok, none, inp.cond⟩

theorem initState_follows (inp : Input) :
    Follows (initState inp) (Socks5d.initState inp.rules) := by
  refine ⟨rfl, rfl, rfl, rfl, rfl, rfl, ?_, (lexerStart_covers inp.rules).sound, .fresh rfl⟩
  simp [Socks5d.initState, Input.rules, store]

/-- The input, and what the calls so far have answered. -/
structure Calls (ι : Type) where
  input : ι
  answers : List Answer

def ruleStep (x : Calls Socks5d.Input) : LexerOp → Calls Socks5d.Input
  | .fill r => { x with input := (Socks5d.fillBuffer x.input r).1 }
  | .parse cond =>
    let p := Socks5d.parseMgmtRequest (x.input.setCond cond)
    ⟨p.input, x.answers ++ [answerOf p]⟩

/-- Nothing is left once a call does not come to an end. -/
def codeStep : Option (Calls Input) → LexerOp → Option (Calls Input)
  | none, _ => none
  | some x, .fill r => some { x with input := (fillBuffer x.input r).1 }
  | some x, .parse cond => (parseMgmtRequest (x.input.setCond cond)).map fun p =>
    ⟨p.input, x.answers ++ [p.answer]⟩

/-- The calls have been answered as the rules say. -/
structure Answered (o : Option (Calls Input)) (y : Calls Socks5d.Input) : Prop where
  answered : ∃ x, o = some x ∧ x.answers = y.answers ∧ Follows x.input y.input

theorem Answered.step {o : Option (Calls Input)} {y : Calls Socks5d.Input} (h : Answered o y)
    (op : LexerOp) : Answered (codeStep o op) (ruleStep y op) := by
  obtain ⟨x, rfl, hanswers, hfollows⟩ := h.answered
  cases op with
  | fill r => exact ⟨_, rfl, hanswers, (hfollows.fill r).2⟩
  | parse cond =>
    obtain ⟨p, hp, hanswer, hnext⟩ := (hfollows.setCond cond).parse
    refine ⟨⟨p.input, x.answers ++ [p.answer]⟩, ?_, ?_, hnext⟩
    · rw [codeStep, hp, Option.map_some]
    · rw [hanswer, hanswers]
      rfl

/-- Whatever the memory holds, and whatever is called in whatever order: every call of the
generated function comes to an end, it answers what the rules say, with the same argument and the
same length, and it leaves the same text. -/
theorem automaton_does_what_the_rules_say (inp : Input) (ops : List LexerOp) :
    let y := exec ruleStep ⟨Socks5d.initState inp.rules, []⟩ ops
    ∃ x, exec codeStep (some ⟨initState inp, []⟩) ops = some x ∧ x.answers = y.answers ∧
      x.input.buf = y.input.buf ∧ x.input.tok = y.input.tok ∧ x.input.cur = y.input.cur ∧
      x.input.lim = y.input.lim := by
  intro y
  have h0 : Answered (some ⟨initState inp, []⟩) ⟨Socks5d.initState inp.rules, []⟩ :=
    ⟨_, rfl, rfl, initState_follows inp⟩
  have hall : Along ruleStep (fun _ _ => True) ⟨Socks5d.initState inp.rules, []⟩ ops :=
    along_of_forall fun _ _ => trivial
  have hrun : Answered (exec codeStep (some ⟨initState inp, []⟩) ops) y :=
    exec_simulation h0 (fun _ _ op _ h => h.step op) hall
  obtain ⟨x, hx, hanswers, hfollows⟩ := hrun.answered
  exact ⟨x, hx, hanswers, hfollows.buf, hfollows.tok, hfollows.cur, hfollows.lim⟩

end Automaton

end Socks5d
