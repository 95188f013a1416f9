import Mathlib.Logic.Function.Basic
import Mathlib.Logic.Relation

/-! # Parties around a shared state

Parties come, act on a shared state and on their own, and go. An assertion that each party
keeps, and that whatever happens to the shared state meanwhile does not break, holds of all
of them in every company. -/

namespace Parties

/-- The shared state, the parties that are there, and the end of each that has left. -/
structure Company (ι σ π : Type*) where
  shared : σ
  present : ι → Option π
  departed : List (ι × σ × π)

/-- How parties behave. -/
structure Conduct (ι σ π : Type*) where
  /-- What may happen to the shared state at any time. -/
  effect : σ → σ → Prop
  born : ι → σ → π → Prop
  own : ι → σ → π → σ → π → Prop
  ended : π → Bool

variable {ι σ π : Type*} {C : Conduct ι σ π} {Q : ι → σ → π → Prop} {x y : Company ι σ π}

/-- An assertion about one party among others. -/
structure Kept (C : Conduct ι σ π) (Q : ι → σ → π → Prop) : Prop where
  born : ∀ i s p, C.born i s p → Q i s p
  stable : ∀ i s p s', Q i s p → C.effect s s' → Q i s' p
  own : ∀ i s p s' p', Q i s p → C.ended p = false → C.own i s p s' p' → Q i s' p'
  /-- To the others, a step of a party is something that may happen at any time. -/
  guarantee : ∀ i s p s' p', Q i s p → C.ended p = false → C.own i s p s' p' → C.effect s s'

/-- The assertion holds of the parties that are there, none of which is over, and it held of the
others when they left. -/
structure Everywhere (C : Conduct ι σ π) (Q : ι → σ → π → Prop) (x : Company ι σ π) : Prop where
  present : ∀ i p, x.present i = some p → Q i x.shared p
  going : ∀ i p, x.present i = some p → C.ended p = false
  departed : ∀ d ∈ x.departed, Q d.1 d.2.1 d.2.2 ∧ C.ended d.2.2 = true

theorem Everywhere.start {s : σ} : Everywhere C Q ⟨s, fun _ => none, []⟩ :=
  ⟨fun _ _ h => by (cases h), fun _ _ h => by (cases h), fun _ h => by (cases h)⟩

/-- What others do does not matter. -/
theorem Everywhere.background (hQ : Kept C Q) (h : Everywhere C Q x) {s : σ}
    (hs : C.effect x.shared s) : Everywhere C Q { x with shared := s } :=
  ⟨fun i p hp => hQ.stable i _ p s (h.present i p hp) hs, h.going, h.departed⟩

variable [DecidableEq ι]

/-- One step of a company. A party whose step ends it leaves. -/
inductive Move (C : Conduct ι σ π) (x : Company ι σ π) : Company ι σ π → Prop
  | background (s : σ) : C.effect x.shared s → Move C x { x with shared := s }
  | enter (i : ι) (s : σ) (p : π) : C.effect x.shared s → x.present i = none → C.born i s p →
    C.ended p = false →
    Move C x { x with shared := s, present := Function.update x.present i (some p) }
  | act (i : ι) (p : π) (s : σ) (p' : π) : x.present i = some p → C.own i x.shared p s p' →
    C.ended p' = false →
    Move C x { x with shared := s, present := Function.update x.present i (some p') }
  | leave (i : ι) (p : π) (s : σ) (p' : π) : x.present i = some p → C.own i x.shared p s p' →
    C.ended p' = true →
    Move C x ⟨s, Function.update x.present i none, x.departed ++ [(i, s, p')]⟩

abbrev Moves (C : Conduct ι σ π) : Company ι σ π → Company ι σ π → Prop :=
  Relation.ReflTransGen (Move C)

theorem update_some {f : ι → Option π} {i j : ι} {o : Option π} {p : π}
    (h : Function.update f i o j = some p) : (j = i ∧ o = some p) ∨ (j ≠ i ∧ f j = some p) := by
  by_cases hj : j = i
  · subst hj
    rw [Function.update_self] at h
    exact .inl ⟨rfl, h⟩
  · rw [Function.update_of_ne hj] at h
    exact .inr ⟨hj, h⟩

theorem Everywhere.move (hQ : Kept C Q) (h : Everywhere C Q x) (hm : Move C x y) :
    Everywhere C Q y := by
  -- the party at `i` is replaced, after which the shared state is `s`
  have hput : ∀ {i : ι} {s : σ} {o : Option π}, C.effect x.shared s →
      (∀ p, o = some p → Q i s p ∧ C.ended p = false) →
      (∀ j p, Function.update x.present i o j = some p → Q j s p ∧ C.ended p = false) := by
    intro i s o hs ho j p hp
    rcases update_some hp with ⟨rfl, rfl⟩ | ⟨-, hj⟩
    · exact ho p rfl
    · exact ⟨hQ.stable j _ p s (h.present j p hj) hs, h.going j p hj⟩
  cases hm with
  | background s hs => exact h.background hQ hs
  | enter i s p hs hnone hborn hgoing =>
    have hall := hput (i := i) hs fun q (hq : some p = some q) => by
      cases hq
      exact ⟨hQ.born i s p hborn, hgoing⟩
    exact ⟨fun j q hq => (hall j q hq).1, fun j q hq => (hall j q hq).2, h.departed⟩
  | act i p s p' hp hown hgoing =>
    have hbefore := h.present i p hp
    have hs := hQ.guarantee i _ p s p' hbefore (h.going i p hp) hown
    have hall := hput (i := i) hs fun q (hq : some p' = some q) => by
      cases hq
      exact ⟨hQ.own i _ p s p' hbefore (h.going i p hp) hown, hgoing⟩
    exact ⟨fun j q hq => (hall j q hq).1, fun j q hq => (hall j q hq).2, h.departed⟩
  | leave i p s p' hp hown hended =>
    have hbefore := h.present i p hp
    have hs := hQ.guarantee i _ p s p' hbefore (h.going i p hp) hown
    have hall := hput (i := i) (o := none) hs fun q hq => by (cases hq)
    refine ⟨fun j q hq => (hall j q hq).1, fun j q hq => (hall j q hq).2, fun d hd => ?_⟩
    rcases List.mem_append.mp hd with hd | hd
    · exact h.departed d hd
    · rw [List.mem_singleton] at hd
      subst hd
      exact ⟨hQ.own i _ p s p' hbefore (h.going i p hp) hown, hended⟩

theorem Everywhere.moves (hQ : Kept C Q) (h : Everywhere C Q x) (hm : Moves C x y) :
    Everywhere C Q y := by
  induction hm with
  | refl => exact h
  | tail _ hlast ih => exact ih.move hQ hlast

/-- All that happens to the shared state is what may happen to it. -/
theorem Everywhere.effects (hQ : Kept C Q) (h : Everywhere C Q x) (hm : Moves C x y) :
    Relation.ReflTransGen C.effect x.shared y.shared := by
  induction hm with
  | refl => exact .refl
  | @tail z w hmoves hlast ih =>
    have hz := h.moves hQ hmoves
    refine ih.tail ?_
    cases hlast with
    | background s hs => exact hs
    | enter i s p hs _ _ _ => exact hs
    | act i p s p' hp hown _ =>
      exact hQ.guarantee i _ p s p' (hz.present i p hp) (hz.going i p hp) hown
    | leave i p s p' hp hown _ =>
      exact hQ.guarantee i _ p s p' (hz.present i p hp) (hz.going i p hp) hown

end Parties
