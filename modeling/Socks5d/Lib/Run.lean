import Mathlib.Data.List.Basic

/-! # Runs of a deterministic event machine

A machine is a total step function; its runs are lists of events. An invariant
is proved for one step and lifted here, once for all runs and once for the runs
every step of which meets a condition. -/

namespace EventRun

variable {σ ε : Type*} {step : σ → ε → σ} {s : σ} {es : List ε} {P : σ → Prop}
  {ok : σ → ε → Prop}

/-- Either the last element of a list is meant, or one of those before. -/
theorem concat_eq_split {l l' r : List ε} {a b : ε} (h : l ++ [a] = l' ++ b :: r) :
    (l' = l ∧ b = a) ∨ ∃ r', l = l' ++ b :: r' := by
  rcases List.eq_nil_or_concat r with rfl | ⟨r', c, rfl⟩
  · obtain ⟨hl, ha⟩ := List.append_inj' h rfl
    exact .inl ⟨hl.symm, (List.singleton_inj.mp ha).symm⟩
  · rw [List.concat_eq_append, ← List.cons_append, ← List.append_assoc] at h
    exact .inr ⟨r', (List.append_inj' h rfl).1⟩

def exec (step : σ → ε → σ) (s : σ) (es : List ε) : σ := es.foldl step s

@[simp] theorem exec_nil : exec step s [] = s := rfl

@[simp] theorem exec_cons (e : ε) : exec step s (e :: es) = exec step (step s e) es := rfl

theorem exec_append (es' : List ε) :
    exec step s (es ++ es') = exec step (exec step s es) es' := List.foldl_append

/-- Every event of the run meets `ok` in the state in which it is taken. -/
def Along (step : σ → ε → σ) (ok : σ → ε → Prop) : σ → List ε → Prop
  | _, [] => True
  | s, e :: es => ok s e ∧ Along step ok (step s e) es

theorem exec_invariant (h0 : P s) (hstep : ∀ s e, P s → P (step s e)) : P (exec step s es) := by
  induction es generalizing s with
  | nil => exact h0
  | cons e es ih => exact ih (hstep s e h0)

theorem exec_invariant_along (h0 : P s) (hstep : ∀ s e, ok s e → P s → P (step s e))
    (h : Along step ok s es) : P (exec step s es) := by
  induction es generalizing s with
  | nil => exact h0
  | cons e es ih => exact ih (hstep s e h.1 h0) h.2

/-- Two machines that are fed the same events. -/
theorem exec_simulation {τ : Type*} {step' : τ → ε → τ} {t : τ} {R : σ → τ → Prop}
    {ok : τ → ε → Prop} (h0 : R s t)
    (hstep : ∀ s t e, ok t e → R s t → R (step s e) (step' t e)) (h : Along step' ok t es) :
    R (exec step s es) (exec step' t es) := by
  induction es generalizing s t with
  | nil => exact h0
  | cons e es ih => exact ih (hstep s t e h.1 h0) h.2

/-- What holds after a run held before it, or a step has brought it. -/
theorem exec_iff_brought {brought : σ → ε → Prop}
    (hstep : ∀ s e, P (step s e) ↔ P s ∨ brought s e) :
    P (exec step s es) ↔
      P s ∨ ∃ es₁ e es₂, es = es₁ ++ e :: es₂ ∧ brought (exec step s es₁) e := by
  induction es generalizing s with
  | nil => simp
  | cons a es ih =>
    rw [exec_cons, ih, hstep, or_assoc]
    refine or_congr_right ⟨?_, ?_⟩
    · rintro (ha | ⟨es₁, e, es₂, rfl, he⟩)
      · exact ⟨[], a, es, rfl, ha⟩
      · exact ⟨a :: es₁, e, es₂, rfl, he⟩
    · rintro ⟨es₁, e, es₂, heq, he⟩
      rcases List.cons_eq_append_iff.mp heq with ⟨rfl, htail⟩ | ⟨es', rfl, htail⟩
      · obtain ⟨rfl, -⟩ := List.cons_eq_cons.mp htail
        exact .inl he
      · exact .inr ⟨es', e, es₂, htail, he⟩

theorem along_append {es' : List ε} :
    Along step ok s (es ++ es') ↔ Along step ok s es ∧ Along step ok (exec step s es) es' := by
  induction es generalizing s with
  | nil => exact (iff_of_eq (true_and _)).symm
  | cons e es ih =>
    rw [List.cons_append, Along, Along, ih, and_assoc]
    rfl

theorem along_mono {ok' : σ → ε → Prop} (hok : ∀ s e, ok s e → ok' s e) (h : Along step ok s es) :
    Along step ok' s es := by
  induction es generalizing s with
  | nil => trivial
  | cons e es ih => exact ⟨hok s e h.1, ih h.2⟩

theorem along_and {ok' : σ → ε → Prop} (h : Along step ok s es) (h' : Along step ok' s es) :
    Along step (fun s e => ok s e ∧ ok' s e) s es := by
  induction es generalizing s with
  | nil => trivial
  | cons e es ih => exact ⟨⟨h.1, h'.1⟩, ih h.2 h'.2⟩

/-- A condition on events alone. -/
theorem along_of_forall {good : ε → Prop} (h : ∀ e ∈ es, good e) :
    Along step (fun _ e => good e) s es := by
  induction es generalizing s with
  | nil => trivial
  | cons e es ih =>
    exact ⟨h e List.mem_cons_self, ih fun e' he' => h e' (List.mem_cons_of_mem e he')⟩

instance decidableAlong [∀ s e, Decidable (ok s e)] :
    ∀ (s : σ) (es : List ε), Decidable (Along step ok s es)
  | _, [] => isTrue trivial
  | s, e :: es =>
    have : Decidable (Along step ok (step s e) es) := decidableAlong (step s e) es
    inferInstanceAs (Decidable (ok s e ∧ Along step ok (step s e) es))

/-- Two conditions that agree in the states that can occur hold along the same runs. -/
theorem along_congr {ok' : σ → ε → Prop} (h0 : P s) (hstep : ∀ s e, P s → P (step s e))
    (h : ∀ s e, P s → (ok s e ↔ ok' s e)) : Along step ok s es ↔ Along step ok' s es := by
  induction es generalizing s with
  | nil => exact Iff.rfl
  | cons e es ih => exact and_congr (h s e h0) (ih (hstep s e h0))

end EventRun
