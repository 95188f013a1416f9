import Mathlib.Data.List.Induction
import Socks5d.Lib.Memory

/-! # The layout of a C structure

Members follow each other in the order of their declaration, each at the next multiple of
its alignment. What is stored in one member leaves the others as they are, as long as it
fits. -/

namespace CStruct
open Memory

variable {ι α : Type*} [DecidableEq ι]

structure Member where
  size : ℕ
  align : ℕ
  align_pos : 0 < align := by decide

def alignUp (n a : ℕ) : ℕ := (n + (a - 1)) / a * a

theorem le_alignUp (n : ℕ) {a : ℕ} (ha : 0 < a) : n ≤ alignUp n a := by
  have hdiv := Nat.div_add_mod (n + (a - 1)) a
  have hmod := Nat.mod_lt (n + (a - 1)) ha
  unfold alignUp
  rw [Nat.mul_comm]
  omega

/-- The offset of a member when the members in the list begin at `n` at the earliest. -/
def offsetFrom (member : ι → Member) : ℕ → List ι → ι → ℕ
  | n, [], _ => n
  | n, f :: fs, i =>
    let start := alignUp n (member f).align
    if i = f then start else offsetFrom member (start + (member f).size) fs i

variable {member : ι → Member} {n : ℕ} {fs : List ι} {i j : ι}

theorem le_offsetFrom : n ≤ offsetFrom member n fs i := by
  induction fs generalizing n with
  | nil => exact Nat.le_refl n
  | cons f fs ih =>
    have hstart := le_alignUp n (member f).align_pos
    dsimp only [offsetFrom]
    split_ifs
    · exact hstart
    · exact Nat.le_trans hstart (Nat.le_trans (Nat.le_add_right _ _) ih)

/-- Two members do not overlap. -/
theorem offsetFrom_apart (hi : i ∈ fs) (hj : j ∈ fs) (hne : i ≠ j) :
    offsetFrom member n fs i + (member i).size ≤ offsetFrom member n fs j ∨
      offsetFrom member n fs j + (member j).size ≤ offsetFrom member n fs i := by
  induction fs generalizing n with
  | nil => exact absurd hi List.not_mem_nil
  | cons f fs ih =>
    dsimp only [offsetFrom]
    by_cases hif : i = f
    · have hjf : j ≠ f := fun h => hne (hif.trans h.symm)
      rw [if_pos hif, if_neg hjf, hif]
      exact .inl le_offsetFrom
    · by_cases hjf : j = f
      · rw [if_neg hif, if_pos hjf, hjf]
        exact .inr le_offsetFrom
      · rw [if_neg hif, if_neg hjf]
        exact ih ((List.mem_cons.mp hi).resolve_left hif) ((List.mem_cons.mp hj).resolve_left hjf)

/-- A structure with its members in order. -/
structure Layout (ι : Type*) where
  members : List ι
  member : ι → Member
  complete : ∀ i, i ∈ members

namespace Layout

variable (L : Layout ι) {m : ℕ → α} {xs : List α}

def size (i : ι) : ℕ := (L.member i).size

def offset (i : ι) : ℕ := offsetFrom L.member 0 L.members i

def get (m : ℕ → α) (i : ι) : List α := slice m (L.offset i) (L.size i)

def set (m : ℕ → α) (i : ι) (xs : List α) : ℕ → α := store m (L.offset i) xs

theorem apart (hne : i ≠ j) :
    L.offset i + L.size i ≤ L.offset j ∨ L.offset j + L.size j ≤ L.offset i :=
  offsetFrom_apart (L.complete i) (L.complete j) hne

variable {L}

theorem get_set_self (h : xs.length = L.size i) : L.get (L.set m i xs) i = xs := by
  rw [get, set, ← h, slice_store_self]

theorem get_set_of_ne (h : xs.length ≤ L.size i) (hne : i ≠ j) :
    L.get (L.set m i xs) j = L.get m j := by
  refine slice_congr ?_
  intro k hk
  refine store_outside ?_
  rcases L.apart hne with hle | hle
  · right
    omega
  · left
    omega

/-- Every member of a list is given its value. -/
def setAll (L : Layout ι) (value : ι → List α) (m : ℕ → α) (fs : List ι) : ℕ → α :=
  fs.foldl (fun m f => L.set m f (value f)) m

theorem get_setAll {value : ι → List α} (hv : ∀ f, (value f).length = L.size f) (hi : i ∈ fs) :
    L.get (L.setAll value m fs) i = value i := by
  induction fs using List.reverseRecOn with
  | nil => exact absurd hi List.not_mem_nil
  | append_singleton fs f ih =>
    rw [setAll, List.foldl_append]
    by_cases hf : f = i
    · rw [← hf]
      exact get_set_self (hv f)
    · have hmem : i ∈ fs :=
        (List.mem_append.mp hi).resolve_right fun h => hf (List.mem_singleton.mp h).symm
      exact (get_set_of_ne (Nat.le_of_eq (hv f)) hf).trans (ih hmem)

end Layout

end CStruct
