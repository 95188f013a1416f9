import Mathlib.Data.List.Basic

/-! # Readers of messages

A reader takes a value off the front of a list, or says that it is not all there
yet. A steady reader never changes its mind when more arrives, so a message can be
cut anywhere. -/

namespace Wire

variable {α β γ : Type*}

/-- The value and what follows it. -/
abbrev Reader (α β : Type*) := List α → Option (β × List α)

def item : Reader α α
  | [] => none
  | a :: as => some (a, as)

def block (n : ℕ) : Reader α (List α) := fun as =>
  if n ≤ as.length then some (as.take n, as.drop n) else none

def never : Reader α β := fun _ => none

def andThen (r : Reader α β) (f : β → Reader α γ) : Reader α γ := fun as =>
  match r as with
  | none => none
  | some (b, rest) => f b rest

def map (f : β → γ) (r : Reader α β) : Reader α γ := fun as =>
  match r as with
  | none => none
  | some (b, rest) => some (f b, rest)

structure Steady (r : Reader α β) : Prop where
  append : ∀ {as b rest}, r as = some (b, rest) → ∀ bs, r (as ++ bs) = some (b, rest ++ bs)
  suffix : ∀ {as b rest}, r as = some (b, rest) → ∃ front, as = front ++ rest

theorem Steady.item : Steady (item : Reader α α) := by
  refine ⟨?_, ?_⟩
  · intro as b rest h bs
    cases as with
    | nil => cases h
    | cons a as => cases h; rfl
  · intro as b rest h
    cases as with
    | nil => cases h
    | cons a as =>
      cases h
      exact ⟨[b], rfl⟩

theorem block_eq_some {n : ℕ} {as b rest : List α} (h : block n as = some (b, rest)) :
    n ≤ as.length ∧ b = as.take n ∧ rest = as.drop n := by
  unfold block at h
  split_ifs at h with hn
  cases h
  exact ⟨hn, rfl, rfl⟩

theorem Steady.block (n : ℕ) : Steady (block n : Reader α (List α)) := by
  refine ⟨?_, ?_⟩
  · intro as b rest h bs
    obtain ⟨hn, rfl, rfl⟩ := block_eq_some h
    unfold Wire.block
    rw [if_pos (by rw [List.length_append]; omega), List.take_append_of_le_length hn,
      List.drop_append_of_le_length hn]
  · intro as b rest h
    obtain ⟨-, -, rfl⟩ := block_eq_some h
    exact ⟨as.take n, (List.take_append_drop n as).symm⟩

theorem Steady.never : Steady (never : Reader α β) := by
  refine ⟨?_, ?_⟩
  · intro as b rest h
    cases h
  · intro as b rest h
    cases h

theorem andThen_eq_some {r : Reader α β} {f : β → Reader α γ} {as rest : List α} {c : γ}
    (h : andThen r f as = some (c, rest)) :
    ∃ b mid, r as = some (b, mid) ∧ f b mid = some (c, rest) := by
  unfold andThen at h
  split at h
  · cases h
  · rename_i b mid hr
    exact ⟨b, mid, hr, h⟩

theorem map_eq_some {r : Reader α β} {f : β → γ} {as rest : List α} {c : γ}
    (h : map f r as = some (c, rest)) : ∃ b, r as = some (b, rest) ∧ f b = c := by
  unfold map at h
  split at h
  · cases h
  · rename_i b mid hr
    cases h
    exact ⟨b, hr, rfl⟩

theorem Steady.andThen {r : Reader α β} {f : β → Reader α γ} (hr : Steady r)
    (hf : ∀ b, Steady (f b)) : Steady (andThen r f) := by
  refine ⟨?_, ?_⟩
  · intro as c rest h bs
    obtain ⟨b, mid, hb, hc⟩ := andThen_eq_some h
    simp only [Wire.andThen, hr.append hb bs]
    exact (hf b).append hc bs
  · intro as c rest h
    obtain ⟨b, mid, hb, hc⟩ := andThen_eq_some h
    obtain ⟨front, rfl⟩ := hr.suffix hb
    obtain ⟨front', rfl⟩ := (hf b).suffix hc
    exact ⟨front ++ front', (List.append_assoc ..).symm⟩

theorem Steady.map {r : Reader α β} (f : β → γ) (hr : Steady r) : Steady (map f r) := by
  refine ⟨?_, ?_⟩
  · intro as c rest h bs
    obtain ⟨b, hb, rfl⟩ := map_eq_some h
    simp only [Wire.map, hr.append hb bs]
  · intro as c rest h
    obtain ⟨b, hb, -⟩ := map_eq_some h
    exact hr.suffix hb

/-- A message that is cut short is not read. -/
theorem Steady.cut {r : Reader α β} (hr : Steady r) {as p : List α} {b : β}
    (h : r as = some (b, [])) (hp : p <+: as) (hne : p ≠ as) : r p = none := by
  by_contra hsome
  obtain ⟨⟨b', rest⟩, hb⟩ := Option.ne_none_iff_exists'.mp hsome
  obtain ⟨tail, rfl⟩ := hp
  rw [hr.append hb tail, Option.some.injEq, Prod.mk.injEq, List.append_eq_nil_iff] at h
  apply hne
  rw [h.2.2, List.append_nil]

end Wire
