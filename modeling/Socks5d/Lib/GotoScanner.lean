import Mathlib.Data.List.Induction
import Socks5d.Lib.ByteSet
import Socks5d.Lib.Memory
import Socks5d.Lib.Scanner

/-! # Scanners made of jumps

A program of labelled blocks reads a byte, chooses the arm of a `switch` and jumps. The input ends
in a sentinel, and where the program comes to it, it returns with the label at which to go on. If a
check of a finite table succeeds, the program does what a scanner does that follows rules. -/

namespace GotoScanner
open Scanner Memory

variable {τ ρ : Type*}

/-! ## Programs -/

/-- How a block is entered: the cursor moves, and the marker with it. -/
inductive Entry
  | stay | next | mark
deriving DecidableEq

/-- One arm of a `switch`. With `check = some k`, the program first returns with the label `k` if
the cursor is at the limit. -/
structure Arm (τ : Type*) where
  on : ByteSet
  check : Option ℕ
  tags : List τ
  goto : ℕ

inductive Block (τ ρ : Type*)
  /-- The label `fill` stands before the byte is read. -/
  | read (entry : Entry) (fill : ℕ) (arms : List (Arm τ))
  /-- A `switch` on the byte that was read last. -/
  | switch (arms : List (Arm τ))
  /-- The cursor goes back to the marker. -/
  | restore (goto : ℕ)
  | accept (entry : Entry) (result : ρ)

abbrev Program (τ ρ : Type*) := List (ℕ × Block τ ρ)

/-- The first row with a number. -/
def rowAt {β : Type*} : List (ℕ × β) → ℕ → Option β
  | [], _ => none
  | (k, x) :: l, n => if k = n then some x else rowAt l n

/-- The fill labels, each with the `switch` behind it. -/
def switches : Program τ ρ → List (ℕ × List (Arm τ))
  | [] => []
  | (_, .read _ k arms) :: P => (k, arms) :: switches P
  | (_, .switch _) :: P => switches P
  | (_, .restore _) :: P => switches P
  | (_, .accept _ _) :: P => switches P

def choose : List (Arm τ) → UInt8 → Option (Arm τ)
  | [], _ => none
  | arm :: arms, b => if arm.on.mem b then some arm else choose arms b

structure Regs (τ : Type*) where
  buf : ℕ → UInt8
  lim : ℕ
  cur : ℕ
  mar : ℕ
  reg : τ → ℕ

def Regs.enter (m : Regs τ) : Entry → Regs τ
  | .stay => m
  | .next => { m with cur := m.cur + 1 }
  | .mark => { m with cur := m.cur + 1, mar := m.cur + 1 }

def setTags [DecidableEq τ] (ts : List τ) (pos : ℕ) (reg : τ → ℕ) : τ → ℕ :=
  fun t => if t ∈ ts then pos else reg t

def Regs.set [DecidableEq τ] (m : Regs τ) (ts : List τ) : Regs τ :=
  { m with reg := setTags ts m.cur m.reg }

inductive Point
  | fill (k : ℕ)
  | label (n : ℕ) (yych : UInt8)

inductive Status (τ ρ : Type*)
  | goes (p : Point) (m : Regs τ)
  | result (r : ρ) (m : Regs τ)
  | incomplete (k : ℕ) (m : Regs τ)

section
variable [DecidableEq τ]

def Arm.take (arm : Arm τ) (yych : UInt8) (m : Regs τ) : Status τ ρ :=
  match arm.check with
  | some k =>
    if m.lim ≤ m.cur then .incomplete k m else .goes (.label arm.goto yych) (m.set arm.tags)
  | none => .goes (.label arm.goto yych) (m.set arm.tags)

def Block.exec (yych : UInt8) (m : Regs τ) : Block τ ρ → Option (Status τ ρ)
  | .read entry k _ => some (.goes (.fill k) (m.enter entry))
  | .switch arms => (choose arms yych).map fun arm => arm.take yych m
  | .restore n => some (.goes (.label n yych) { m with cur := m.mar })
  | .accept entry r => some (.result r (m.enter entry))

def step (P : Program τ ρ) (m : Regs τ) : Point → Option (Status τ ρ)
  | .fill k => (rowAt (switches P) k).bind fun arms =>
    (choose arms (m.buf m.cur)).map fun arm => arm.take (m.buf m.cur) m
  | .label n yych => (rowAt P n).bind fun bl => bl.exec yych m

/-- Nothing comes out when the fuel is too little, or when the program jumps nowhere. -/
def run (P : Program τ ρ) : ℕ → Point → Regs τ → Option (Status τ ρ)
  | 0, _, _ => none
  | n + 1, p, m => match step P m p with
    | some (.goes p' m') => run P n p' m'
    | r => r

end

/-! ## Rules as data -/

inductive Piece (τ : Type*)
  | one (s : ByteSet)
  | star (s : ByteSet)
  | tag (t : τ)

def Piece.atom : Piece τ → Atom UInt8 τ
  | .one s => .one s.mem
  | .star s => .star s.mem
  | .tag t => .tag t

structure ByteRule (τ ρ : Type*) where
  pattern : List (Piece τ)
  result : ρ

def ByteRule.rule (r : ByteRule τ ρ) : Rule UInt8 τ ρ := ⟨r.pattern.map Piece.atom, r.result⟩

/-- What a byte leaves of a pattern that has `k` pieces before it, and the tags that it passes. -/
def deriveFrom : ℕ → List (Piece τ) → Decision (Option (ℕ × List τ))
  | _, [] => .done none
  | k, .one s :: _ => .ask s fun a => .done (if a then some (k + 1, []) else none)
  | k, .star s :: q => .ask s fun a => if a then .done (some (k, [])) else deriveFrom (k + 1) q
  | k, .tag t :: q => (deriveFrom (k + 1) q).map (Option.map fun r => (r.1, t :: r.2))

theorem derive_eq (p q : List (Piece τ)) (k : ℕ) (b : UInt8) (h : p.drop k = q) :
    derive (q.map Piece.atom) b =
      ((deriveFrom k q).eval b).map fun r => ((p.drop r.1).map Piece.atom, r.2) := by
  induction q generalizing k with
  | nil => rfl
  | cons a q ih =>
    have hrest : p.drop (k + 1) = q := by
      rw [← List.drop_drop, h, List.drop_succ_cons, List.drop_zero]
    cases a with
    | one s =>
      simp only [List.map_cons, Piece.atom, derive, deriveFrom, Decision.eval]
      split_ifs
      · rw [Option.map_some, hrest]
      · rfl
    | star s =>
      simp only [List.map_cons, Piece.atom, derive, deriveFrom, Decision.eval]
      split_ifs
      · rw [Decision.eval_done, Option.map_some, h]
        rfl
      · exact ih (k + 1) hrest
    | tag t =>
      simp only [List.map_cons, Piece.atom, derive, deriveFrom, Decision.eval_map]
      rw [ih (k + 1) hrest, Option.map_map, Option.map_map]
      rfl

/-! ## Threads as data -/

/-- A thread: its rule, how many pieces it has passed, and which tags. -/
structure Spot (τ : Type*) where
  rule : ℕ
  offset : ℕ
  tags : List τ
deriving DecidableEq

def marksOf (reg : τ → ℕ) (ts : List τ) : Marks τ := ts.map fun t => (t, reg t)

def Spot.thread (rules : List (ByteRule τ ρ)) (reg : τ → ℕ) (c : Spot τ) :
    Option (Thread UInt8 τ ρ) :=
  rules[c.rule]?.map fun r => ⟨(r.pattern.drop c.offset).map Piece.atom, r.rule, marksOf reg c.tags⟩

def threads (rules : List (ByteRule τ ρ)) (reg : τ → ℕ) (cs : List (Spot τ)) :
    List (Thread UInt8 τ ρ) := cs.filterMap (Spot.thread rules reg)

/-- No rule has passed anything. -/
def startSpots (rules : List (ByteRule τ ρ)) : List (Spot τ) :=
  (List.range rules.length).map fun i => ⟨i, 0, []⟩

theorem threads_start (rules : List (ByteRule τ ρ)) (reg : τ → ℕ) :
    threads rules reg (startSpots rules) = start (rules.map ByteRule.rule) := by
  have hrules : ∀ l : List (ByteRule τ ρ), (List.range l.length).filterMap (l[·]?) = l := by
    intro l
    induction l using List.reverseRecOn with
    | nil => rfl
    | append_singleton l r ih =>
      rw [List.length_append, List.length_singleton, List.range_succ, List.filterMap_append]
      have hfront : (List.range l.length).filterMap ((l ++ [r])[·]?) = l := by
        refine Eq.trans (List.filterMap_congr fun i hi => ?_) ih
        exact List.getElem?_append_left (List.mem_range.mp hi)
      rw [hfront]
      simp
  conv_rhs => rw [← hrules rules]
  rw [threads, startSpots, start, List.filterMap_map, List.map_map, List.map_filterMap]
  rfl

def Spot.next (rules : List (ByteRule τ ρ)) (c : Spot τ) : Decision (Option (Spot τ × List τ)) :=
  match rules[c.rule]? with
  | none => .done none
  | some r => (deriveFrom c.offset (r.pattern.drop c.offset)).map
    (Option.map fun d => ({ c with offset := d.1 }, d.2))

/-- The threads that a byte leaves, each with the tags that it has just passed. -/
def nextSpots (rules : List (ByteRule τ ρ)) : List (Spot τ) → Decision (List (Spot τ × List τ))
  | [] => .done []
  | c :: cs => (c.next rules).bind fun o => (nextSpots rules cs).map fun l => o.toList ++ l

/-! ## Checking a program -/

/-- What is known at a fill label: how many bytes of the token have been read, if that is fixed,
whether the marker is behind the first of them, and the threads. -/
structure Known (τ : Type*) where
  fill : ℕ
  depth : Option ℕ
  marked : Bool
  spots : List (Spot τ)
deriving DecidableEq

/-- How far the pointers are known between two reads. -/
structure Place where
  depth : Option ℕ
  marked : Bool
  moved : ℕ

/-- No more is known than whether one byte has been read. -/
def deeper : Option ℕ → Option ℕ
  | some 0 => some 1
  | _ => none

def Place.enter (a : Place) : Entry → Place
  | .stay => a
  | .next => ⟨deeper a.depth, a.marked, a.moved + 1⟩
  | .mark => ⟨deeper a.depth, a.depth = some 0, a.moved + 1⟩

/-- Where a byte leads to: the next fill label, a result, or a result from the marker on. -/
inductive Leads (τ ρ : Type*)
  | fill (k : ℕ) (a : Place) (tags : List τ)
  | result (r : ρ) (a : Place) (tags : List τ)
  | reset (r : ρ)

/-- A table to look things up in by number. -/
inductive Index (β : Type*)
  | nil
  | node (n : ℕ) (x : β) (below above : Index β)

def Index.find {β : Type*} : Index β → ℕ → Option β
  | .nil, _ => none
  | .node k x below above, n =>
    bif n.beq k then some x else bif n.ble k then below.find n else above.find n

/-- The first rows of a list, to a depth of `d`, and the others. -/
def Index.build {β : Type*} : ℕ → List (ℕ × β) → Index β × List (ℕ × β)
  | 0, l => (.nil, l)
  | d + 1, l => match Index.build d l with
    | (below, []) => (below, [])
    | (below, (k, x) :: rest) => match Index.build d rest with
      | (above, rest') => (.node k x below above, rest')

def chooseArm : List (Arm τ) → Decision (Option (Arm τ))
  | [] => .done none
  | arm :: arms => .ask arm.on fun a => if a then .done (some arm) else chooseArm arms

structure Checker (τ ρ : Type*) where
  blocks : Index (Block τ ρ)
  switches : Index (List (Arm τ))
  rules : List (ByteRule τ ρ)
  sentinel : UInt8
  /-- The label for a fill label when nothing has come since the program returned. -/
  atEnd : ℕ → ℕ
  /-- The result when no rule is left. -/
  failure : ρ
  /-- The result when nothing has come at all. -/
  nothing : ρ
  /-- The tags that a result needs. -/
  needs : ρ → List τ

def follow (C : Checker τ ρ) (a : Place) : ℕ → List τ → ℕ → Decision (Option (Leads τ ρ))
  | 0, _, _ => .done none
  | n + 1, tags, l => match C.blocks.find l with
    | some (.read entry k _) => .done (some (.fill k (a.enter entry) tags))
    | some (.switch arms) => (chooseArm arms).bind fun arm => match arm with
      | some arm => follow C a n (tags ++ arm.tags) arm.goto
      | none => .done none
    | some (.restore l') => match a.marked, C.blocks.find l' with
      | true, some (.accept .stay r) => .done (some (.reset r))
      | _, _ => .done none
    | some (.accept entry r) => .done (some (.result r (a.enter entry) tags))
    | none => .done none

def Spot.settle (c : Spot τ × List τ) : Spot τ := { c.1 with tags := c.1.tags ++ c.2 }

def Spot.ended (rules : List (ByteRule τ ρ)) (c : Spot τ) : Bool :=
  match rules[c.rule]? with
  | none => false
  | some r => (r.pattern.drop c.offset).isEmpty

section
variable [DecidableEq τ] [DecidableEq ρ]

/-- The registers that are set are those of the tags that this thread has just passed. -/
def tagged (tags : List τ) (c : Spot τ × List τ) : Bool :=
  c.1.tags.all (· ∉ tags) && c.2.all (· ∈ tags)

/-- If the program and the rules agree, what is known where the program goes on. -/
def judge (C : Checker τ ρ) (cs : List (Spot τ × List τ)) :
    Leads τ ρ → Option (Option (Known τ))
  | .fill k a tags =>
    if !cs.isEmpty && cs.all (fun c => tagged tags c && !c.1.ended C.rules) && a.moved == 1 then
      some (some ⟨k, a.depth, a.marked, cs.map Spot.settle⟩)
    else none
  | .result r a tags => match cs.find? fun c => c.1.ended C.rules with
    | some c =>
      if tagged tags c && a.moved == 1 && decide (C.rules[c.1.rule]?.map (·.result) = some r) &&
        (C.needs r).all (· ∈ c.1.tags ++ c.2) then some none else none
    | none => if cs.isEmpty && decide (a.depth = some 1) && decide (r = C.failure) then some none
      else none
  | .reset r => if cs.isEmpty && decide (r = C.failure) then some none else none

def leadsFrom (C : Checker τ ρ) (e : Known τ) (arms : List (Arm τ)) :
    Decision (Option (Leads τ ρ)) :=
  (chooseArm arms).bind fun arm => match arm with
    | some arm => follow C ⟨e.depth, e.marked, 0⟩ 3 arm.tags arm.goto
    | none => .done none

/-- At the end of the input, the token is its first byte, or nothing. -/
def endsWell (C : Checker τ ρ) (e : Known τ) : Bool :=
  match C.blocks.find (C.atEnd e.fill) with
  | some (.accept .stay r) =>
    decide (e.depth = some 0 ∧ r = C.nothing) || decide (e.depth = some 1 ∧ r = C.failure)
  | some (.restore l) => match C.blocks.find l with
    | some (.accept .stay r) => e.marked && decide (e.depth = none ∧ r = C.failure)
    | _ => false
  | _ => false

/-- Where each byte leads from what is known. -/
def successors (C : Checker τ ρ) (e : Known τ) : Option (List (Option (Known τ))) :=
  (C.switches.find e.fill).bind fun arms =>
    if ((choose arms C.sentinel).bind fun arm => arm.check) = some e.fill ∧ endsWell C e then
      ((nextSpots C.rules e.spots).bind fun cs => (leadsFrom C e arms).map fun l =>
        l.bind (judge C cs)).gather .univ
    else none

def Known.same (e e' : Known τ) : Bool := e.fill.beq e'.fill && decide (e = e')

/-- Everything that is known anywhere, if it agrees everywhere. -/
def explore (C : Checker τ ρ) : ℕ → List (Known τ) → List (Known τ) → Option (List (Known τ))
  | _, [], seen => some seen
  | 0, _ :: _, _ => none
  | n + 1, e :: todo, seen =>
    if seen.any e.same then explore C n todo seen
    else (successors C e).bind fun l => explore C n (l.reduceOption ++ todo) (e :: seen)

end

/-! ## Tables -/

theorem rowAt_of_mem {β : Type*} {l : List (ℕ × β)} {n : ℕ} {x : β}
    (hl : (l.map Prod.fst).Pairwise (· < ·)) (h : (n, x) ∈ l) : rowAt l n = some x := by
  induction l with
  | nil => cases h
  | cons row l ih =>
    rw [List.map_cons, List.pairwise_cons] at hl
    rcases List.mem_cons.mp h with rfl | hmem
    · exact if_pos rfl
    · have hlt := hl.1 n (List.mem_map_of_mem hmem)
      rw [rowAt, if_neg (by omega)]
      exact ih hl.2 hmem

def Index.toList {β : Type*} : Index β → List (ℕ × β)
  | .nil => []
  | .node n x below above => below.toList ++ (n, x) :: above.toList

theorem Index.find_mem {β : Type*} {t : Index β} {n : ℕ} {x : β} (h : t.find n = some x) :
    (n, x) ∈ t.toList := by
  induction t with
  | nil => cases h
  | node k y below above ihb iha =>
    rw [toList, List.mem_append, List.mem_cons]
    rw [find] at h
    cases hk : n.beq k with
    | true =>
      rw [hk] at h
      cases h
      exact .inr (.inl (by rw [Nat.eq_of_beq_eq_true hk]))
    | false =>
      rw [hk] at h
      cases hle : n.ble k with
      | true =>
        rw [hle] at h
        exact .inl (ihb h)
      | false =>
        rw [hle] at h
        exact .inr (.inr (iha h))

theorem Index.build_append {β : Type*} (d : ℕ) (l : List (ℕ × β)) :
    (Index.build d l).1.toList ++ (Index.build d l).2 = l := by
  induction d generalizing l with
  | zero => rfl
  | succ d ih =>
    have hb := ih l
    rw [build]
    rcases hbelow : Index.build d l with ⟨below, _ | ⟨⟨k, x⟩, rest⟩⟩
    · rw [hbelow] at hb
      exact hb
    · have ha := ih rest
      rcases habove : Index.build d rest with ⟨above, rest'⟩
      rw [hbelow] at hb
      rw [habove] at ha
      simp only [toList, habove, List.append_assoc, List.cons_append]
      rw [ha]
      exact hb

theorem Index.find_build {β : Type*} {d n : ℕ} {l : List (ℕ × β)} {x : β}
    (hl : (l.map Prod.fst).Pairwise (· < ·)) (h : (Index.build d l).1.find n = some x) :
    rowAt l n = some x := by
  apply rowAt_of_mem hl
  rw [← Index.build_append d l]
  exact List.mem_append_left _ (Index.find_mem h)

/-! ## The next threads -/

section
variable {rules : List (ByteRule τ ρ)} {reg : τ → ℕ} {c : Spot τ} {cs : List (Spot τ)}
  {d : Spot τ × List τ} {pos : ℕ} {b : UInt8} {tags : List τ}

/-- The thread of a spot that has passed tags at `pos`. -/
def Spot.after (rules : List (ByteRule τ ρ)) (reg : τ → ℕ) (pos : ℕ) (d : Spot τ × List τ) :
    Option (Thread UInt8 τ ρ) :=
  rules[d.1.rule]?.map fun r =>
    ⟨(r.pattern.drop d.1.offset).map Piece.atom, r.rule, marksOf reg d.1.tags ++ d.2.map (·, pos)⟩

theorem Spot.next_after : (c.thread rules reg).bind (Thread.next pos b) =
    ((c.next rules).eval b).bind (Spot.after rules reg pos) := by
  rw [Spot.thread, Spot.next]
  cases hr : rules[c.rule]? with
  | none => rfl
  | some r =>
    rw [Option.map_some, Option.bind_some, Thread.next, derive_eq r.pattern _ c.offset b rfl]
    simp only [Decision.eval_map]
    cases (deriveFrom c.offset (r.pattern.drop c.offset)).eval b with
    | none => rfl
    | some p => simp [Spot.after, hr]

theorem advance_threads : advance (threads rules reg cs) pos b =
    ((nextSpots rules cs).eval b).filterMap (Spot.after rules reg pos) := by
  have hfuse : ∀ cs : List (Spot τ), advance (threads rules reg cs) pos b =
      cs.filterMap fun c => (c.thread rules reg).bind (Thread.next pos b) :=
    fun cs => List.filterMap_filterMap
  induction cs with
  | nil => rfl
  | cons c cs ih =>
    rw [nextSpots, Decision.eval_bind, Decision.eval_map, List.filterMap_append, ← ih, hfuse, hfuse,
      List.filterMap_cons, Spot.next_after]
    cases (c.next rules).eval b with
    | none => rfl
    | some d =>
      rw [Option.bind_some, Option.toList_some, List.filterMap_cons, List.filterMap_nil]
      cases Spot.after rules reg pos d with
      | none => rfl
      | some th => rfl

theorem Spot.after_ended : (Spot.after rules reg pos d).any (fun th => th.rest.isEmpty) =
    d.1.ended rules := by
  rw [Spot.after, Spot.ended]
  cases rules[d.1.rule]? with
  | none => rfl
  | some r => exact List.isEmpty_map

/-- Only spots of the rules that there are come up. -/
theorem nextSpots_rule (h : d ∈ (nextSpots rules cs).eval b) : ∃ r, rules[d.1.rule]? = some r := by
  induction cs with
  | nil => cases h
  | cons c cs ih =>
    rw [nextSpots, Decision.eval_bind, Decision.eval_map, List.mem_append] at h
    rcases h with h | h
    · rw [Spot.next] at h
      cases hr : rules[c.rule]? with
      | none =>
        rw [hr] at h
        cases h
      | some r =>
        rw [hr, Decision.eval_map, Option.mem_toList] at h
        obtain ⟨p, -, rfl⟩ := Option.map_eq_some_iff.mp h
        exact ⟨r, hr⟩
    · exact ih h

theorem find_ended : (advance (threads rules reg cs) pos b).find? (fun th => th.rest.isEmpty) =
    (((nextSpots rules cs).eval b).find? fun d => d.1.ended rules).bind
      (Spot.after rules reg pos) := by
  rw [advance_threads, List.find?_filterMap]
  congr 2
  funext d
  exact Spot.after_ended

theorem advance_isEmpty : (advance (threads rules reg cs) pos b).isEmpty =
    ((nextSpots rules cs).eval b).isEmpty := by
  have hrules : ∀ d ∈ (nextSpots rules cs).eval b, ∃ r, rules[d.1.rule]? = some r :=
    fun d hd => nextSpots_rule hd
  rw [advance_threads]
  generalize (nextSpots rules cs).eval b = l at hrules ⊢
  cases l with
  | nil => rfl
  | cons d l =>
    obtain ⟨r, hr⟩ := hrules d List.mem_cons_self
    rw [List.filterMap_cons, Spot.after, hr]
    rfl

variable [DecidableEq τ]

theorem marksOf_setTags {ts : List τ} (h : ∀ t ∈ ts, t ∉ tags) :
    marksOf (setTags tags pos reg) ts = marksOf reg ts := by
  apply List.map_congr_left
  intro t ht
  rw [setTags, if_neg (h t ht)]

theorem marksOf_passed {ts : List τ} (h : ∀ t ∈ ts, t ∈ tags) :
    marksOf (setTags tags pos reg) ts = ts.map (·, pos) := by
  apply List.map_congr_left
  intro t ht
  rw [setTags, if_pos (h t ht)]

/-- The registers hold the marks of a thread again. -/
theorem Spot.after_settle (h : tagged tags d = true) :
    Spot.after rules reg pos d = (Spot.settle d).thread rules (setTags tags pos reg) := by
  simp only [tagged, Bool.and_eq_true, List.all_eq_true, decide_eq_true_eq] at h
  have hmarks : marksOf (setTags tags pos reg) (d.1.tags ++ d.2) =
      marksOf reg d.1.tags ++ d.2.map (·, pos) := by
    rw [← marksOf_setTags h.1, ← marksOf_passed h.2]
    exact List.map_append
  rw [Spot.after, Spot.thread, Spot.settle]
  dsimp only
  rw [hmarks]

theorem advance_settled (tags : List τ)
    (h : ∀ d ∈ (nextSpots rules cs).eval b, tagged tags d = true) :
    advance (threads rules reg cs) pos b =
      threads rules (setTags tags pos reg) (((nextSpots rules cs).eval b).map Spot.settle) := by
  rw [advance_threads, threads, List.filterMap_map]
  exact List.filterMap_congr fun d hd => Spot.after_settle (h d hd)

end

/-! ## Steps -/

section
variable {C : Checker τ ρ} {P : Program τ ρ}

/-- The checker looks at this program. -/
structure Indexes (C : Checker τ ρ) (P : Program τ ρ) : Prop where
  blocks : ∀ {n bl}, C.blocks.find n = some bl → rowAt P n = some bl
  switches : ∀ {k arms}, C.switches.find k = some arms → rowAt (switches P) k = some arms

theorem chooseArm_eval (arms : List (Arm τ)) (b : UInt8) :
    (chooseArm arms).eval b = choose arms b := by
  induction arms with
  | nil => rfl
  | cons arm arms ih =>
    rw [chooseArm, choose, Decision.eval]
    split_ifs
    · rfl
    · exact ih

/-- What is known of the pointers of a token that starts at `base`. -/
structure Holds (base : ℕ) (m : Regs τ) (depth : Option ℕ) (marked : Bool) : Prop where
  le : base ≤ m.cur
  beyond : depth = none → base < m.cur
  depth : ∀ d, depth = some d → m.cur = base + d
  marked : marked = true → m.mar = base + 1

theorem Holds.enter {base : ℕ} {m : Regs τ} {a : Place} (h : Holds base m a.depth a.marked)
    (entry : Entry) : Holds base (m.enter entry) (a.enter entry).depth (a.enter entry).marked := by
  have hone : ∀ d, deeper a.depth = some d → m.cur + 1 = base + d := by
    intro d hd
    cases hdepth : a.depth with
    | none =>
      rw [hdepth] at hd
      cases hd
    | some n =>
      rw [hdepth] at hd
      cases n with
      | zero =>
        cases hd
        rw [h.depth 0 hdepth]
      | succ n => cases hd
  have hle := h.le
  have hlt : base < m.cur + 1 := by omega
  cases entry with
  | stay => exact h
  | next => exact ⟨hlt.le, fun _ => hlt, hone, h.marked⟩
  | mark =>
    refine ⟨hlt.le, fun _ => hlt, hone, fun hmark => ?_⟩
    have hcur := h.depth 0 (of_decide_eq_true hmark)
    change m.cur + 1 = base + 1
    omega

variable [DecidableEq τ]

/-- What a run makes of a step. -/
def Status.resume (P : Program τ ρ) (fuel : ℕ) : Status τ ρ → Option (Status τ ρ)
  | .goes p m => run P fuel p m
  | s => some s

theorem run_succ (fuel : ℕ) (p : Point) (m : Regs τ) :
    run P (fuel + 1) p m = (step P m p).bind (Status.resume P fuel) := by
  rw [run]
  cases step P m p with
  | none => rfl
  | some s => cases s <;> rfl

/-- In `j` steps a run comes to `s`, or to its end. -/
def Steps (P : Program τ ρ) (j : ℕ) (p : Point) (m : Regs τ) (s : Status τ ρ) : Prop :=
  ∀ fuel, run P (fuel + j) p m = s.resume P fuel

theorem Steps.zero {p : Point} {m : Regs τ} : Steps P 0 p m (.goes p m : Status τ ρ) := fun _ => rfl

theorem Steps.one {p : Point} {m : Regs τ} {s : Status τ ρ} (h : step P m p = some s) :
    Steps P 1 p m s := by
  intro fuel
  rw [run_succ, h, Option.bind_some]

/-- Enough fuel gives the result. -/
theorem Steps.result {j n : ℕ} {p : Point} {m : Regs τ} {s : Status τ ρ} (h : Steps P j p m s)
    (hj : j ≤ n) (hs : ∀ p' m', s ≠ .goes p' m') : run P n p m = some s := by
  obtain ⟨fuel, rfl⟩ := Nat.exists_eq_add_of_le' hj
  rw [h fuel]
  cases s with
  | goes p' m' => exact absurd rfl (hs p' m')
  | result r m' => rfl
  | incomplete k m' => rfl

theorem Steps.trans {i j : ℕ} {p p' : Point} {m m' : Regs τ} {s : Status τ ρ}
    (h : Steps P i p m (.goes p' m')) (h' : Steps P j p' m' s) : Steps P (j + i) p m s := by
  intro fuel
  rw [← Nat.add_assoc, h (fuel + j)]
  exact h' fuel

/-- The registers behind a byte, when the cursor has moved on as far as `a` says. -/
structure Moved (base : ℕ) (m m' : Regs τ) (a : Place) (tags : List τ) : Prop where
  buf : m'.buf = m.buf
  lim : m'.lim = m.lim
  cur : m'.cur = m.cur + a.moved
  holds : Holds base m' a.depth a.marked
  reg : m'.reg = setTags tags m.cur m.reg

inductive Lands (base : ℕ) (m : Regs τ) : Leads τ ρ → Status τ ρ → Prop
  | fill {k : ℕ} {a : Place} {tags : List τ} {m' : Regs τ} (h : Moved base m m' a tags) :
    Lands base m (.fill k a tags) (.goes (.fill k) m')
  | result {r : ρ} {a : Place} {tags : List τ} {m' : Regs τ} (h : Moved base m m' a tags) :
    Lands base m (.result r a tags) (.result r m')
  | reset {r : ρ} {m' : Regs τ} (hbuf : m'.buf = m.buf) (hlim : m'.lim = m.lim)
    (hcur : m'.cur = base + 1) : Lands base m (.reset r) (.result r m')

theorem Moved.enter {base : ℕ} {m : Regs τ} {a : Place} (ha : a.moved = 0)
    (h : Holds base m a.depth a.marked) (tags : List τ) (entry : Entry) :
    Moved base m (Regs.enter { m with reg := setTags tags m.cur m.reg } entry) (a.enter entry)
      tags := by
  have hset : Holds base { m with reg := setTags tags m.cur m.reg } a.depth a.marked :=
    ⟨h.le, h.beyond, h.depth, h.marked⟩
  cases entry with
  | stay => exact ⟨rfl, rfl, by simp [Place.enter, Regs.enter, ha], hset.enter .stay, rfl⟩
  | next => exact ⟨rfl, rfl, by simp [Place.enter, Regs.enter, ha], hset.enter .next, rfl⟩
  | mark => exact ⟨rfl, rfl, by simp [Place.enter, Regs.enter, ha], hset.enter .mark, rfl⟩

theorem setTags_append (tags ts : List τ) (pos : ℕ) (reg : τ → ℕ) :
    setTags ts pos (setTags tags pos reg) = setTags (tags ++ ts) pos reg := by
  funext t
  simp only [setTags, List.mem_append]
  by_cases h : t ∈ tags
  · simp [h]
  · simp [h]

theorem Arm.take_inside {m : Regs τ} (h : m.cur < m.lim) (arm : Arm τ) (b : UInt8) :
    (arm.take b m : Status τ ρ) = .goes (.label arm.goto b) (m.set arm.tags) := by
  rw [take]
  cases arm.check with
  | none => rfl
  | some k =>
    dsimp only
    rw [if_neg (by omega)]

/-- The program goes where `follow` says. -/
theorem follow_steps (hfit : Indexes C P) {base n l : ℕ} {m : Regs τ} {a : Place} {b : UInt8}
    {tags : List τ} {leads : Leads τ ρ} (ha : a.moved = 0) (hp : Holds base m a.depth a.marked)
    (hlt : m.cur < m.lim) (h : (follow C a n tags l).eval b = some leads) :
    ∃ s, ∃ j ≤ n + 1, Steps P j (.label l b) { m with reg := setTags tags m.cur m.reg } s ∧
      Lands base m leads s := by
  induction n generalizing tags l with
  | zero => cases h
  | succ n ih =>
    rw [follow] at h
    cases hbl : C.blocks.find l with
    | none =>
      rw [hbl] at h
      cases h
    | some bl =>
      rw [hbl] at h
      have hstep : step P { m with reg := setTags tags m.cur m.reg } (.label l b) =
          bl.exec b { m with reg := setTags tags m.cur m.reg } := by
        rw [step, hfit.blocks hbl, Option.bind_some]
      cases bl with
      | read entry k arms =>
        cases h
        exact ⟨_, 1, by omega, .one hstep, .fill (.enter ha hp tags entry)⟩
      | switch arms =>
        dsimp only at h
        rw [Decision.eval_bind, chooseArm_eval] at h
        rw [Block.exec] at hstep
        cases harm : choose arms b with
        | none =>
          rw [harm] at h
          cases h
        | some arm =>
          rw [harm] at h hstep
          have htake := Arm.take_inside (ρ := ρ) (m := { m with reg := setTags tags m.cur m.reg })
            hlt arm b
          rw [Option.map_some, htake] at hstep
          obtain ⟨s, j, hj, hsteps, hlands⟩ := ih h
          rw [← setTags_append] at hsteps
          exact ⟨s, j + 1, by omega, (Steps.one hstep).trans hsteps, hlands⟩
      | restore l' =>
        dsimp only at h
        cases hmark : a.marked with
        | false =>
          rw [hmark] at h
          cases h
        | true =>
          rw [hmark] at h
          cases hbl' : C.blocks.find l' with
          | none =>
            rw [hbl'] at h
            cases h
          | some bl' =>
            rw [hbl'] at h
            cases bl' with
            | accept entry r =>
              cases entry with
              | stay =>
                cases h
                have hback : Lands base m (.reset r) (.result r
                    { m with reg := setTags tags m.cur m.reg, cur := m.mar }) :=
                  .reset rfl rfl (hp.marked hmark)
                refine ⟨_, 1 + 1, by omega, (Steps.one hstep).trans (.one ?_), hback⟩
                rw [step, hfit.blocks hbl', Option.bind_some]
                rfl
              | next => cases h
              | mark => cases h
            | read entry k arms => cases h
            | switch arms => cases h
            | restore l'' => cases h
      | accept entry r =>
        cases h
        exact ⟨_, 1, by omega, .one hstep, .result (.enter ha hp tags entry)⟩

end

/-! ## What a table that passes the check says -/

section
variable {C : Checker τ ρ}

/-- What is known holds of the registers and the threads. -/
structure Stands (C : Checker τ ρ) (base : ℕ) (e : Known τ) (m : Regs τ)
    (ths : List (Thread UInt8 τ ρ)) : Prop where
  holds : Holds base m e.depth e.marked
  threads : ths = GotoScanner.threads C.rules m.reg e.spots

/-- The program ends as the scanner does. -/
inductive Agrees (C : Checker τ ρ) (known : List (Known τ)) (base : ℕ) (m : Regs τ) :
    Result UInt8 τ ρ → Status τ ρ → Prop
  | accept {th : Thread UInt8 τ ρ} {pos : ℕ} {m' : Regs τ} {ts : List τ} (hbuf : m'.buf = m.buf)
    (hlim : m'.lim = m.lim) (hcur : m'.cur = pos) (hmarks : th.marks = marksOf m'.reg ts)
    (hneeds : ∀ t ∈ C.needs th.rule.result, t ∈ ts) :
    Agrees C known base m (.accept th pos) (.result th.rule.result m')
  | dead {m' : Regs τ} (hbuf : m'.buf = m.buf) (hlim : m'.lim = m.lim) (hcur : m'.cur = base + 1) :
    Agrees C known base m .dead (.result C.failure m')
  | more {ths : List (Thread UInt8 τ ρ)} {e : Known τ} {m' : Regs τ} (he : e ∈ known)
    (hbuf : m'.buf = m.buf) (hlim : m'.lim = m.lim) (hcur : m'.cur = m.lim)
    (hst : Stands C base e m' ths) : Agrees C known base m (.more ths) (.incomplete e.fill m')

/-- The program goes on with the next byte as the scanner does. -/
structure GoesOn (C : Checker τ ρ) (base : ℕ) (m : Regs τ) (ths : List (Thread UInt8 τ ρ))
    (e : Known τ) (m' : Regs τ) : Prop where
  buf : m'.buf = m.buf
  lim : m'.lim = m.lim
  cur : m'.cur = m.cur + 1
  stands : Stands C base e m' ths

theorem Agrees.mono {known : List (Known τ)} {base : ℕ} {m m₁ : Regs τ} {r : Result UInt8 τ ρ}
    {s : Status τ ρ} (h : Agrees C known base m₁ r s)
    (hbuf : m₁.buf = m.buf) (hlim : m₁.lim = m.lim) : Agrees C known base m r s := by
  cases h with
  | accept hb hl hc hm hn => exact .accept (hb.trans hbuf) (hl.trans hlim) hc hm hn
  | dead hb hl hc => exact .dead (hb.trans hbuf) (hl.trans hlim) hc
  | more he hb hl hc hst => exact .more he (hb.trans hbuf) (hl.trans hlim) (hc.trans hlim) hst

end

section
variable [DecidableEq τ] [DecidableEq ρ] {C : Checker τ ρ} {P : Program τ ρ} {e : Known τ}
  {known : List (Known τ)}

/-- All that is known agrees, and is known of what follows. -/
def Closed (C : Checker τ ρ) (known : List (Known τ)) : Prop :=
  ∀ e ∈ known, ∃ l, successors C e = some l ∧ ∀ e', some e' ∈ l → e' ∈ known

theorem Known.same_eq {e e' : Known τ} (h : e.same e' = true) : e = e' := by
  rw [same, Bool.and_eq_true] at h
  exact of_decide_eq_true h.2

theorem explore_closed {n : ℕ} {todo seen : List (Known τ)}
    (h : explore C n todo seen = some known)
    (hseen : ∀ e ∈ seen, ∃ l, successors C e = some l ∧ ∀ e', some e' ∈ l → e' ∈ seen ∨ e' ∈ todo) :
    Closed C known ∧ (∀ e ∈ seen, e ∈ known) ∧ ∀ e ∈ todo, e ∈ known := by
  induction n generalizing todo seen with
  | zero =>
    cases todo with
    | nil =>
      cases h
      refine ⟨fun e he => ?_, fun e he => he, fun e he => by (cases he)⟩
      obtain ⟨l, hl, hnext⟩ := hseen e he
      exact ⟨l, hl, fun e' he' => (hnext e' he').resolve_right (by simp)⟩
    | cons e todo => cases h
  | succ n ih =>
    cases todo with
    | nil =>
      cases h
      refine ⟨fun e he => ?_, fun e he => he, fun e he => by (cases he)⟩
      obtain ⟨l, hl, hnext⟩ := hseen e he
      exact ⟨l, hl, fun e' he' => (hnext e' he').resolve_right (by simp)⟩
    | cons e todo =>
      rw [explore] at h
      split_ifs at h with hold
      · obtain ⟨e₀, he₀, hsame⟩ := List.any_eq_true.mp hold
        obtain rfl := Known.same_eq hsame
        obtain ⟨hclosed, hs, ht⟩ := ih h fun e' he' => by
          obtain ⟨l, hl, hnext⟩ := hseen e' he'
          refine ⟨l, hl, fun e'' he'' => ?_⟩
          rcases hnext e'' he'' with hin | hin
          · exact .inl hin
          · rcases List.mem_cons.mp hin with rfl | hin
            · exact .inl he₀
            · exact .inr hin
        refine ⟨hclosed, hs, fun e' he' => ?_⟩
        rcases List.mem_cons.mp he' with rfl | he'
        · exact hs _ he₀
        · exact ht e' he'
      · obtain ⟨l, hl, h⟩ := Option.bind_eq_some_iff.mp h
        obtain ⟨hclosed, hs, ht⟩ := ih h fun e' he' => by
          rcases List.mem_cons.mp he' with rfl | he'
          · refine ⟨l, hl, fun e'' he'' => .inr (List.mem_append_left _ ?_)⟩
            exact List.reduceOption_mem_iff.mpr he''
          · obtain ⟨l', hl', hnext⟩ := hseen e' he'
            refine ⟨l', hl', fun e'' he'' => ?_⟩
            rcases hnext e'' he'' with hin | hin
            · exact .inl (List.mem_cons_of_mem e hin)
            · rcases List.mem_cons.mp hin with rfl | hin
              · exact .inl List.mem_cons_self
              · exact .inr (List.mem_append_right _ hin)
        refine ⟨hclosed, fun e' he' => hs e' (List.mem_cons_of_mem e he'), fun e' he' => ?_⟩
        rcases List.mem_cons.mp he' with rfl | he'
        · exact hs _ List.mem_cons_self
        · exact ht e' (List.mem_append_right _ he')

variable {b : UInt8} {base : ℕ} {m : Regs τ} {ths : List (Thread UInt8 τ ρ)} {leads : Leads τ ρ}
  {s : Status τ ρ} {next : Option (Known τ)}

/-- What one byte does, once the program has come to the end of its jumps. -/
theorem judge_sound (hst : Stands C base e m ths) (hlands : Lands base m leads s)
    (hj : judge C ((nextSpots C.rules e.spots).eval b) leads = some next)
    (hnext : ∀ e', next = some e' → e' ∈ known) (bs : List UInt8) :
    Agrees C known base m (Scanner.run ths m.cur (b :: bs)) s ∨
      ∃ e' ∈ known, ∃ m', s = .goes (.fill e'.fill) m' ∧
        GoesOn C base m (advance ths m.cur b) e' m' ∧
        Scanner.run ths m.cur (b :: bs) = Scanner.run (advance ths m.cur b) (m.cur + 1) bs := by
  have hfind : (advance ths m.cur b).find? (fun th => th.rest.isEmpty) = _ :=
    hst.threads ▸ find_ended
  have hempty : (advance ths m.cur b).isEmpty = _ := hst.threads ▸ advance_isEmpty
  have hsettled : ∀ tags, (∀ d ∈ (nextSpots C.rules e.spots).eval b, tagged tags d = true) →
      advance ths m.cur b = threads C.rules (setTags tags m.cur m.reg)
        (((nextSpots C.rules e.spots).eval b).map Spot.settle) := by
    intro tags h
    rw [hst.threads]
    exact advance_settled tags h
  rw [Scanner.run, hfind, hempty]
  generalize (nextSpots C.rules e.spots).eval b = cs at *
  cases hlands with
  | @fill k a tags m' hm =>
    rw [judge] at hj
    split_ifs at hj with hok
    simp only [Bool.and_eq_true, List.all_eq_true, Bool.not_eq_true', beq_iff_eq] at hok
    obtain ⟨⟨hne, hall⟩, hmoved⟩ := hok
    have hnone : cs.find? (fun d => d.1.ended C.rules) = none :=
      List.find?_eq_none.mpr fun d hd => by simp [(hall d hd).2]
    rw [hnone, hne]
    refine .inr ⟨_, hnext _ (Option.some.inj hj).symm, m', rfl,
      ⟨hm.buf, hm.lim, ?_, hm.holds, ?_⟩, rfl⟩
    · rw [hm.cur, hmoved]
    · rw [hm.reg]
      exact hsettled tags fun d hd => (hall d hd).1
  | @result r a tags m' hm =>
    rw [judge] at hj
    cases hended : cs.find? (fun d => d.1.ended C.rules) with
    | none =>
      rw [hended] at hj
      dsimp only at hj
      split_ifs at hj with hok
      simp only [Bool.and_eq_true, decide_eq_true_eq] at hok
      obtain ⟨⟨hnil, hdepth⟩, rfl⟩ := hok
      rw [hnil]
      exact .inl (.dead hm.buf hm.lim (hm.holds.depth 1 hdepth))
    | some d =>
      rw [hended] at hj
      dsimp only at hj
      split_ifs at hj with hok
      simp only [Bool.and_eq_true, beq_iff_eq, decide_eq_true_eq, List.all_eq_true] at hok
      obtain ⟨⟨⟨htag, hmoved⟩, hresult⟩, hneeds⟩ := hok
      obtain ⟨rule, hrule, rfl⟩ := Option.map_eq_some_iff.mp hresult
      have hafter : Spot.after C.rules m.reg m.cur d =
          (Spot.settle d).thread C.rules (setTags tags m.cur m.reg) := Spot.after_settle htag
      rw [Option.bind_some, hafter, Spot.thread, Spot.settle, hrule, Option.map_some, ← hm.reg]
      exact .inl (.accept hm.buf hm.lim (by rw [hm.cur, hmoved]) rfl hneeds)
  | @reset r m' hbuf hlim hcur =>
    rw [judge] at hj
    split_ifs at hj with hok
    simp only [Bool.and_eq_true, decide_eq_true_eq, List.isEmpty_iff] at hok
    obtain ⟨rfl, rfl⟩ := hok
    exact .inl (.dead hbuf hlim hcur)

/-- From a fill label on, the program does what the scanner does, and comes to an end. -/
theorem run_agrees (hfit : Indexes C P) (hclosed : Closed C known) (he : e ∈ known)
    (hst : Stands C base e m ths) (hz : m.buf m.lim = C.sentinel) (hle : m.cur ≤ m.lim) :
    ∃ s, ∃ j ≤ 5 * (m.lim - m.cur) + 1, Steps P j (.fill e.fill) m s ∧
      Agrees C known base m (Scanner.run ths m.cur (slice m.buf m.cur (m.lim - m.cur))) s := by
  generalize hn : m.lim - m.cur = n
  obtain ⟨l, hl, hnext⟩ := hclosed e he
  induction n generalizing m e ths l with
  | zero =>
    obtain ⟨arms, harms, hl⟩ := Option.bind_eq_some_iff.mp hl
    split_ifs at hl with hend
    obtain ⟨arm, harm, hcheck⟩ := Option.bind_eq_some_iff.mp hend.1
    have hcur : m.cur = m.lim := by omega
    refine ⟨.incomplete e.fill m, 1, by omega, .one ?_, .more he rfl rfl hcur hst⟩
    rw [step, hfit.switches harms, Option.bind_some, hcur, hz, harm, Option.map_some, Arm.take,
      hcheck]
    dsimp only
    rw [if_pos (by omega)]
  | succ n ih =>
    obtain ⟨arms, harms, hl⟩ := Option.bind_eq_some_iff.mp hl
    split_ifs at hl with hend
    obtain ⟨x, hx, hjudge⟩ := Decision.mem_gather (b := m.buf m.cur) hl ByteSet.mem_univ
    rw [Decision.eval_bind, Decision.eval_map] at hjudge
    obtain ⟨leads, hleads, hjudge⟩ := Option.bind_eq_some_iff.mp hjudge
    rw [leadsFrom, Decision.eval_bind, chooseArm_eval] at hleads
    cases harm : choose arms (m.buf m.cur) with
    | none =>
      rw [harm] at hleads
      cases hleads
    | some arm =>
      rw [harm] at hleads
      have hlt : m.cur < m.lim := by omega
      have hfirst : step P m (.fill e.fill) =
          some (.goes (.label arm.goto (m.buf m.cur)) (m.set arm.tags) : Status τ ρ) := by
        rw [step, hfit.switches harms, Option.bind_some, harm, Option.map_some,
          Arm.take_inside hlt]
      obtain ⟨s, j, hj, hsteps, hlands⟩ := follow_steps hfit rfl hst.holds hlt hleads
      have hall : Steps P (j + 1) (.fill e.fill) m s := (Steps.one hfirst).trans hsteps
      have hslice : slice m.buf m.cur (n + 1) =
          m.buf m.cur :: slice m.buf (m.cur + 1) n := by
        rw [Nat.add_comm, slice_add]
        rfl
      rw [hslice]
      rcases judge_sound hst hlands hjudge (fun e' he' => hnext e' (he' ▸ hx))
        (slice m.buf (m.cur + 1) n) with hagrees | ⟨e', he', m', rfl, hgoes, hrun⟩
      · exact ⟨s, j + 1, by omega, hall, hagrees⟩
      · have hlim := hgoes.lim
        have hcur := hgoes.cur
        obtain ⟨l', hl', hnext'⟩ := hclosed e' he'
        obtain ⟨s', i, hi, hsteps', hagrees⟩ := ih he' hgoes.stands
          (by rw [hgoes.buf, hlim, hz]) (by omega) (by omega) l' hl' hnext'
        rw [hgoes.buf, hcur, ← hrun] at hagrees
        refine ⟨s', i + (j + 1), by omega, hall.trans hsteps', ?_⟩
        exact hagrees.mono hgoes.buf hlim

/-- When nothing has come since the program returned. -/
theorem end_agrees (hfit : Indexes C P) (hclosed : Closed C known) (he : e ∈ known)
    (hst : Stands C base e m ths) :
    ∃ s, ∃ j ≤ 2, Steps P j (.label (C.atEnd e.fill) b) m s ∧
      (m.cur = base ∧ s = .result C.nothing m ∨ base < m.cur ∧ Agrees C known base m .dead s) := by
  obtain ⟨l, hl, -⟩ := hclosed e he
  obtain ⟨arms, -, hl⟩ := Option.bind_eq_some_iff.mp hl
  split_ifs at hl with hend
  have hends := hend.2
  rw [endsWell] at hends
  cases hbl : C.blocks.find (C.atEnd e.fill) with
  | none =>
    rw [hbl] at hends
    cases hends
  | some bl =>
    rw [hbl] at hends
    have hstep : step P m (.label (C.atEnd e.fill) b) = bl.exec b m := by
      rw [step, hfit.blocks hbl, Option.bind_some]
    cases bl with
    | accept entry r =>
      cases entry with
      | stay =>
        simp only [Bool.or_eq_true, decide_eq_true_eq] at hends
        refine ⟨_, 1, by omega, .one hstep, ?_⟩
        rcases hends with ⟨hdepth, rfl⟩ | ⟨hdepth, rfl⟩
        · exact .inl ⟨hst.holds.depth 0 hdepth, rfl⟩
        · have hcur := hst.holds.depth 1 hdepth
          exact .inr ⟨by omega, .dead rfl rfl hcur⟩
      | next => cases hends
      | mark => cases hends
    | restore l' =>
      dsimp only at hends
      cases hbl' : C.blocks.find l' with
      | none =>
        rw [hbl'] at hends
        cases hends
      | some bl' =>
        rw [hbl'] at hends
        cases bl' with
        | accept entry r =>
          cases entry with
          | stay =>
            simp only [Bool.and_eq_true, decide_eq_true_eq] at hends
            obtain ⟨hmark, hdepth, rfl⟩ := hends
            refine ⟨.result C.failure { m with cur := m.mar }, 1 + 1, by omega,
              (Steps.one hstep).trans (.one ?_),
              .inr ⟨hst.holds.beyond hdepth, .dead rfl rfl (hst.holds.marked hmark)⟩⟩
            rw [step, hfit.blocks hbl', Option.bind_some]
            rfl
          | next => cases hends
          | mark => cases hends
        | read entry k arms => cases hends
        | switch arms => cases hends
        | restore l'' => cases hends
    | read entry k arms => cases hends
    | switch arms => cases hends

end

end GotoScanner
