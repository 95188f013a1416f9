import Mathlib.Data.List.Basic

/-! # Queues in a row of cells

A bounded queue whose elements stand side by side in `cap` cells. Elements are added behind
the last one, so it is the cells there that bound it, and not those that elements have left at
the front; these come back when the queue is compacted or runs empty. -/

@[ext] structure RowQueue (α : Type*) where
  cap : ℕ
  contents : List α
  /-- The free cells behind the last element. -/
  room : ℕ
  fits : contents.length + room ≤ cap
  rewound : contents = [] → room = cap

namespace RowQueue

variable {α : Type*}

def empty (cap : ℕ) : RowQueue α := ⟨cap, [], cap, by simp, fun _ => rfl⟩

/-- As many elements as there is room for are appended. -/
def put (q : RowQueue α) (xs : List α) : RowQueue α where
  cap := q.cap
  contents := q.contents ++ xs.take q.room
  room := q.room - xs.length
  fits := by
    have hfits := q.fits
    rw [List.length_append, List.length_take]
    omega
  rewound := by
    intro h
    obtain ⟨hnil, htake⟩ := List.append_eq_nil_iff.mp h
    have hroom := q.rewound hnil
    have hlen := congrArg List.length htake
    rw [List.length_take, List.length_nil] at hlen
    omega

/-- Up to `n` elements are removed from the front. -/
def drop (q : RowQueue α) (n : ℕ) : RowQueue α where
  cap := q.cap
  contents := q.contents.drop n
  room := if q.contents.length ≤ n then q.cap else q.room
  fits := by
    have hfits := q.fits
    rw [List.length_drop]
    split_ifs <;> omega
  rewound := by
    intro h
    rw [if_pos (List.drop_eq_nil_iff.mp h)]

def compact (q : RowQueue α) : RowQueue α where
  cap := q.cap
  contents := q.contents
  room := q.cap - q.contents.length
  fits := by
    have hfits := q.fits
    omega
  rewound := by
    intro h
    rw [h, List.length_nil, Nat.sub_zero]

def clear (q : RowQueue α) : RowQueue α := empty q.cap

variable {q : RowQueue α} {xs : List α} {n : ℕ}

@[simp] theorem put_room : (q.put xs).room = q.room - xs.length := rfl
@[simp] theorem drop_contents : (q.drop n).contents = q.contents.drop n := rfl

/-- All of a list is taken if there is room for it. -/
theorem put_contents (h : xs.length ≤ q.room) : (q.put xs).contents = q.contents ++ xs := by
  change q.contents ++ xs.take q.room = _
  rw [List.take_of_length_le h]

/-- A full queue takes nothing. -/
theorem put_full (h : q.room = 0) : q.put xs = q := by
  ext1
  · rfl
  · change q.contents ++ xs.take q.room = q.contents
    rw [h, List.take_zero, List.append_nil]
  · rw [put_room, h, Nat.zero_sub]

theorem drop_room_of_lt (h : n < q.contents.length) : (q.drop n).room = q.room :=
  if_neg (Nat.not_le.mpr h)

theorem drop_room_of_le (h : q.contents.length ≤ n) : (q.drop n).room = q.cap := if_pos h

end RowQueue
