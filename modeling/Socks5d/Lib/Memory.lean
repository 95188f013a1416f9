import Mathlib.Data.List.Basic

/-! # Flat memory

Memory is a total function from addresses to cells. A `slice` reads a range as a
list, `store` is `memcpy` from a list and `move` is `memmove` inside one memory. -/

namespace Memory

variable {α : Type*}

def slice (m : ℕ → α) (i n : ℕ) : List α := (List.range n).map fun k => m (i + k)

def store (m : ℕ → α) (i : ℕ) (xs : List α) : ℕ → α :=
  fun k => if i ≤ k then xs[k - i]?.getD (m k) else m k

def move (m : ℕ → α) (dst src n : ℕ) : ℕ → α :=
  fun k => if dst ≤ k ∧ k < dst + n then m (src + (k - dst)) else m k

variable {m m' : ℕ → α} {i j n : ℕ}

@[simp] theorem slice_length : (slice m i n).length = n := by simp [slice]

@[simp] theorem slice_zero : slice m i 0 = [] := rfl

theorem slice_congr (h : ∀ k < n, m (i + k) = m' (j + k)) : slice m i n = slice m' j n := by
  simp only [slice]
  refine List.map_congr_left ?_
  intro k hk
  exact h k (List.mem_range.mp hk)

theorem slice_add (a b : ℕ) : slice m i (a + b) = slice m i a ++ slice m (i + a) b := by
  simp only [slice, List.range_add, List.map_append, List.map_map]
  congr 1
  refine List.map_congr_left ?_
  intro k _
  simp [Nat.add_assoc]

theorem slice_getElem? {k : ℕ} (hk : k < n) : (slice m i n)[k]? = some (m (i + k)) := by
  simp [slice, hk]

theorem slice_getD {k : ℕ} (hk : k < n) (d : α) : (slice m i n).getD k d = m (i + k) := by
  rw [List.getD_eq_getElem?_getD, slice_getElem? hk, Option.getD_some]

theorem slice_drop (k : ℕ) : (slice m i n).drop k = slice m (i + k) (n - k) := by
  rcases Nat.le_total k n with h | h
  · obtain ⟨b, rfl⟩ := Nat.exists_eq_add_of_le h
    rw [slice_add, Nat.add_sub_cancel_left]
    exact List.drop_left' slice_length
  · rw [Nat.sub_eq_zero_of_le h, slice_zero]
    exact List.drop_eq_nil_of_le (by simpa using h)

theorem slice_take {k : ℕ} (h : k ≤ n) : (slice m i n).take k = slice m i k := by
  obtain ⟨b, rfl⟩ := Nat.exists_eq_add_of_le h
  rw [slice_add]
  exact List.take_left' slice_length

/-- A slice inside another. -/
theorem slice_inside {k l : ℕ} (h : k + l ≤ n) :
    slice m (i + k) l = ((slice m i n).drop k).take l := by
  rw [slice_drop, slice_take (by omega)]

@[simp] theorem store_nil : store m i [] = m := by
  funext k
  simp [store]

theorem slice_store_self (xs : List α) : slice (store m i xs) i xs.length = xs := by
  refine List.ext_getElem (by simp) ?_
  intro k _ hk
  simp [slice, store, hk]

theorem slice_store_below (xs : List α) (h : j + n ≤ i) :
    slice (store m i xs) j n = slice m j n := by
  refine slice_congr ?_
  intro k hk
  rw [store, if_neg (by omega)]

/-- Storing a list right behind a slice appends it. -/
theorem slice_store_append (xs : List α) :
    slice (store m (i + n) xs) i (n + xs.length) = slice m i n ++ xs := by
  rw [slice_add, slice_store_below xs (Nat.le_refl _), slice_store_self]

theorem slice_move {k : ℕ} (h : k ≤ n) : slice (move m i j n) i k = slice m j k := by
  refine slice_congr ?_
  intro l hl
  rw [move, if_pos (by omega), Nat.add_sub_cancel_left]

/-- A list is stored in its own cells only. -/
theorem store_outside {xs : List α} {a : ℕ} (h : a < i ∨ i + xs.length ≤ a) :
    store m i xs a = m a := by
  unfold store
  split_ifs with hle
  · rw [List.getElem?_eq_none (by omega), Option.getD_none]
  · rfl

theorem move_outside {a : ℕ} (h : a < i ∨ i + n ≤ a) : move m i j n a = m a :=
  if_neg (by omega)

/-- A list is stored in one cell after the other. -/
theorem store_cons (x : α) (xs : List α) :
    store m i (x :: xs) = store (Function.update m i x) (i + 1) xs := by
  funext k
  unfold store
  rcases Nat.lt_trichotomy k i with hlt | rfl | hgt
  · rw [if_neg (by omega), if_neg (by omega), Function.update_of_ne (by omega)]
  · rw [if_pos (Nat.le_refl k), if_neg (by omega), Nat.sub_self, Function.update_self]
    rfl
  · have hk : k - i = k - (i + 1) + 1 := by omega
    rw [if_pos (by omega), if_pos (by omega), hk, List.getElem?_cons_succ,
      Function.update_of_ne (by omega)]

theorem store_append (xs ys : List α) :
    store m i (xs ++ ys) = store (store m i xs) (i + xs.length) ys := by
  induction xs generalizing m i with
  | nil => simp
  | cons x xs ih =>
    rw [List.cons_append, store_cons, ih, store_cons, List.length_cons, Nat.add_assoc,
      Nat.add_comm 1]

/-! ## Cells

What a program stores, cell by cell. -/

/-- The cells of a list that is stored from `i` on. -/
def cells (i : ℕ) : List α → List (ℕ × α)
  | [] => []
  | x :: xs => (i, x) :: cells (i + 1) xs

def storeCells (m : ℕ → α) (cs : List (ℕ × α)) : ℕ → α :=
  cs.foldl (fun m c => Function.update m c.1 c.2) m

theorem storeCells_cells (xs : List α) : storeCells m (cells i xs) = store m i xs := by
  induction xs generalizing m i with
  | nil => exact store_nil.symm
  | cons x xs ih =>
    rw [store_cons, ← ih]
    rfl

theorem cells_append (xs ys : List α) :
    cells i (xs ++ ys) = cells i xs ++ cells (i + xs.length) ys := by
  induction xs generalizing i with
  | nil => rfl
  | cons x xs ih =>
    rw [List.cons_append, cells, cells, ih, List.cons_append, List.length_cons, Nat.add_assoc,
      Nat.add_comm 1]

theorem cells_lt {xs : List α} {c : ℕ × α} (h : c ∈ cells i xs) : c.1 < i + xs.length := by
  induction xs generalizing i with
  | nil => cases h
  | cons x xs ih =>
    rw [List.length_cons]
    rcases List.mem_cons.mp h with rfl | h
    · dsimp only
      omega
    · have hlt := ih h
      omega

/-! ## A part of memory

Memory seen from address `i` on. -/

theorem store_from (xs : List α) :
    (fun k => store m (i + j) xs (i + k)) = store (fun k => m (i + k)) j xs := by
  funext k
  simp only [store, Nat.add_sub_add_left, Nat.add_le_add_iff_left]

theorem move_from (d : ℕ) :
    (fun k => move m (i + d) (i + j) n (i + k)) = move (fun k => m (i + k)) d j n := by
  funext k
  simp only [move, Nat.add_sub_add_left, Nat.add_le_add_iff_left, Nat.add_assoc,
    Nat.add_lt_add_iff_left]

theorem slice_from : slice (fun k => m (i + k)) j n = slice m (i + j) n := by
  simp only [slice, Nat.add_assoc]

end Memory
