import Mathlib.Data.Nat.Bitwise
import Mathlib.Data.List.ReduceOption

/-! # Sets of bytes, and decisions about a byte

A set of bytes is a number that has a bit for each of them. What depends on a byte only through
such sets is a tree of questions, and can be checked for all bytes by going through the answers. -/

structure ByteSet where
  bits : ℕ
deriving DecidableEq

namespace ByteSet

variable {s t : ByteSet} {b c d : UInt8}

def mem (s : ByteSet) (b : UInt8) : Bool := s.bits.testBit b.toNat

def single (b : UInt8) : ByteSet := ⟨1 <<< b.toNat⟩

/-- The bytes from `lo` to `hi`. -/
def range (lo hi : UInt8) : ByteSet := ⟨((1 <<< (hi.toNat + 1 - lo.toNat)) - 1) <<< lo.toNat⟩

def univ : ByteSet := ⟨(1 <<< 256) - 1⟩

def union (s t : ByteSet) : ByteSet := ⟨s.bits ||| t.bits⟩

def inter (s t : ByteSet) : ByteSet := ⟨s.bits &&& t.bits⟩

def diff (s t : ByteSet) : ByteSet := ⟨s.bits ^^^ (s.bits &&& t.bits)⟩

def isEmpty (s : ByteSet) : Bool := s.bits == 0

@[simp] theorem mem_single : (single b).mem c = decide (c = b) := by
  rw [mem, single, Nat.one_shiftLeft, Nat.testBit_two_pow]
  exact decide_eq_decide.mpr ⟨fun h => UInt8.toNat_inj.mp h.symm, fun h => by rw [h]⟩

@[simp] theorem mem_range : (range b c).mem d = (decide (b ≤ d) && decide (d ≤ c)) := by
  rw [mem, range, Nat.testBit_shiftLeft, Nat.one_shiftLeft, Nat.testBit_two_pow_sub_one]
  simp only [UInt8.le_iff_toNat_le, ← Bool.decide_and]
  exact decide_eq_decide.mpr (by omega)

@[simp] theorem mem_univ : univ.mem b = true := by
  have hb := b.toNat_lt
  rw [mem, univ, Nat.one_shiftLeft, Nat.testBit_two_pow_sub_one]
  exact decide_eq_true hb

@[simp] theorem mem_union : (s.union t).mem b = (s.mem b || t.mem b) := Nat.testBit_or _ _ _

@[simp] theorem mem_inter : (s.inter t).mem b = (s.mem b && t.mem b) := Nat.testBit_and _ _ _

@[simp] theorem mem_diff : (s.diff t).mem b = (s.mem b && !t.mem b) := by
  rw [mem, diff, Nat.testBit_xor, Nat.testBit_and]
  change (s.mem b ^^ (s.mem b && t.mem b)) = _
  cases s.mem b with
  | true => simp
  | false => rfl

theorem not_isEmpty (h : s.mem b = true) : s.isEmpty = false := by
  apply beq_eq_false_iff_ne.mpr
  intro hzero
  rw [mem, hzero, Nat.zero_testBit] at h
  cases h

end ByteSet

/-- Questions about a byte, up to a value. -/
inductive Decision (β : Type*)
  | done (x : β)
  | ask (s : ByteSet) (next : Bool → Decision β)

namespace Decision

variable {β γ : Type*} {b : UInt8}

def eval (b : UInt8) : Decision β → β
  | .done x => x
  | .ask s next => (next (s.mem b)).eval b

def bind : Decision β → (β → Decision γ) → Decision γ
  | .done x, f => f x
  | .ask s next, f => .ask s fun a => (next a).bind f

def map (f : β → γ) : Decision β → Decision γ
  | .done x => .done (f x)
  | .ask s next => .ask s fun a => (next a).map f

@[simp] theorem eval_done (x : β) : (done x).eval b = x := rfl

@[simp] theorem eval_bind (d : Decision β) (f : β → Decision γ) :
    (d.bind f).eval b = (f (d.eval b)).eval b := by
  induction d with
  | done x => rfl
  | ask s next ih => exact ih (s.mem b)

@[simp] theorem eval_map (d : Decision β) (f : β → γ) : (d.map f).eval b = f (d.eval b) := by
  induction d with
  | done x => rfl
  | ask s next ih => exact ih (s.mem b)

/-- Every value that a byte of `cell` leads to. -/
def gather (cell : ByteSet) : Decision (Option β) → Option (List β)
  | .done x => x.map ([·])
  | .ask s next =>
    (if (cell.inter s).isEmpty then some [] else (next true).gather (cell.inter s)).bind fun l =>
      (if (cell.diff s).isEmpty then some [] else (next false).gather (cell.diff s)).map (l ++ ·)

theorem mem_gather {cell : ByteSet} {d : Decision (Option β)} {l : List β}
    (h : d.gather cell = some l) (hb : cell.mem b = true) : ∃ x ∈ l, d.eval b = some x := by
  induction d generalizing cell l with
  | done x =>
    obtain ⟨y, rfl, rfl⟩ := Option.map_eq_some_iff.mp h
    exact ⟨y, List.mem_singleton_self y, rfl⟩
  | ask s next ih =>
    obtain ⟨l₁, h₁, h⟩ := Option.bind_eq_some_iff.mp h
    obtain ⟨l₂, h₂, rfl⟩ := Option.map_eq_some_iff.mp h
    rw [eval]
    cases hs : s.mem b with
    | true =>
      have hcell : (cell.inter s).mem b = true := by simp [hb, hs]
      rw [if_neg (by simp [ByteSet.not_isEmpty hcell])] at h₁
      obtain ⟨x, hx, heq⟩ := ih true h₁ hcell
      exact ⟨x, List.mem_append_left _ hx, heq⟩
    | false =>
      have hcell : (cell.diff s).mem b = true := by simp [hb, hs]
      rw [if_neg (by simp [ByteSet.not_isEmpty hcell])] at h₂
      obtain ⟨x, hx, heq⟩ := ih false h₂ hcell
      exact ⟨x, List.mem_append_right _ hx, heq⟩

end Decision
