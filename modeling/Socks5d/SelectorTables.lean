import Socks5d.Lib.Run
import Socks5d.Selector

/-! # The tables of the multiplexer agree

The entries, the two bit sets and `max_fd` after any sequence of operations. -/

namespace Socks5d
open EventRun

variable {δ : Type} {s : FdSelector δ} {fd : ℤ} {f : Item δ → Item δ}

/-! ## The largest descriptor -/

/-- `max_fd` is the largest descriptor in use, or 0. -/
structure TopFd (s : FdSelector δ) : Prop where
  le : ∀ i : ℕ, itemUsed (s.fds i) = true → (i : ℤ) ≤ s.maxFd
  used : (∃ i : ℕ, itemUsed (s.fds i) = true ∧ s.maxFd = i) ∨
    ((∀ i, itemUsed (s.fds i) = false) ∧ s.maxFd = 0)

/-- The loop of `items_max_fd`, from any value on. -/
theorem foldl_max {fds : ℕ → Item δ} (hfd : ∀ i, itemUsed (fds i) = true → (fds i).fd = i)
    (l : List ℕ) (a : ℤ) :
    let m := l.foldl
      (fun max i => if itemUsed (fds i) && max < (fds i).fd then (fds i).fd else max) a
    a ≤ m ∧ (∀ i ∈ l, itemUsed (fds i) = true → (i : ℤ) ≤ m) ∧
      (m = a ∨ ∃ i ∈ l, itemUsed (fds i) = true ∧ m = i) := by
  induction l generalizing a with
  | nil => exact ⟨Int.le_refl a, fun i hi => absurd hi List.not_mem_nil, .inl rfl⟩
  | cons j l ih =>
    rw [List.foldl_cons]
    by_cases hj : itemUsed (fds j) = true ∧ a < (fds j).fd
    · have hcond : (itemUsed (fds j) && decide (a < (fds j).fd)) = true := by
        rw [hj.1, decide_eq_true hj.2]
        rfl
      rw [if_pos hcond]
      have hlt := hj.2
      rw [hfd j hj.1] at hlt ⊢
      obtain ⟨h1, h2, h3⟩ := ih j
      refine ⟨by omega, ?_, .inr ?_⟩
      · intro i hi hu
        rcases List.mem_cons.mp hi with rfl | hi
        · exact h1
        · exact h2 i hi hu
      · rcases h3 with h3 | ⟨i, hi, hu, h3⟩
        · exact ⟨j, List.mem_cons_self, hj.1, h3⟩
        · exact ⟨i, List.mem_cons_of_mem j hi, hu, h3⟩
    · have hcond : ¬ (itemUsed (fds j) && decide (a < (fds j).fd)) = true := by
        rw [Bool.and_eq_true, decide_eq_true_eq]
        exact hj
      rw [if_neg hcond]
      obtain ⟨h1, h2, h3⟩ := ih a
      refine ⟨h1, ?_, ?_⟩
      · intro i hi hu
        rcases List.mem_cons.mp hi with rfl | hi
        · have hge : ¬ a < (fds i).fd := fun hlt => hj ⟨hu, hlt⟩
          rw [hfd i hu] at hge
          omega
        · exact h2 i hi hu
      · exact h3.imp_right fun ⟨i, hi, hu, h3⟩ => ⟨i, List.mem_cons_of_mem j hi, hu, h3⟩

theorem itemsMaxFd_top {t : FdSelector δ} (hfds : t.fds = s.fds) (htop : t.maxFd = itemsMaxFd s)
    (hfd : ∀ i, itemUsed (s.fds i) = true → (s.fds i).fd = i)
    (hle : ∀ i : ℕ, itemUsed (s.fds i) = true → (i : ℤ) ≤ s.maxFd) : TopFd t := by
  obtain ⟨h0, hmax, hval⟩ := foldl_max hfd (List.range (s.maxFd.toNat + 1)) 0
  have hin : ∀ i : ℕ, itemUsed (s.fds i) = true → (i : ℤ) ≤ itemsMaxFd s := by
    intro i hu
    have hi := hle i hu
    apply hmax i _ hu
    rw [List.mem_range]
    omega
  refine ⟨by rwa [hfds, htop], ?_⟩
  rw [hfds, htop]
  rcases hval with hval | ⟨i, -, hu, hval⟩
  · by_cases hzero : itemUsed (s.fds 0) = true
    · exact .inl ⟨0, hzero, hval⟩
    · refine .inr ⟨fun i => ?_, hval⟩
      by_contra hne
      have hu : itemUsed (s.fds i) = true := by simpa using hne
      have hi := hin i hu
      rw [show itemsMaxFd s = 0 from hval] at hi
      obtain rfl : i = 0 := by omega
      exact hzero hu
  · exact .inl ⟨i, hu, hval⟩

/-! ## Operations -/

/-- A call of the interface; a null handler is `none`. -/
inductive SelectorOp (δ : Type)
  | register (alloc : Bool) (fd : ℤ) (handler : Option δ) (interest : FdInterest)
  | unregister (fd : ℤ)
  | setInterest (fd : ℤ) (i : FdInterest)
  | addInterest (fd : ℤ) (i : FdInterest)
  | unmaskInterest (fd : ℤ) (i : FdInterest)
  | removeInterest (fd : ℤ) (i : FdInterest)
  | maskInterest (fd : ℤ) (i : FdInterest)

def SelectorOp.call (s : FdSelector δ) : SelectorOp δ → FdSelector δ × SelectorStatus
  | .register _ _ none _ => (s, .iargs)
  | .register alloc fd (some d) interest => selectorRegister alloc s fd interest d
  | .unregister fd => selectorUnregisterFd s fd
  | .setInterest fd i => selectorSetInterest s fd i
  | .addInterest fd i => selectorAddInterest s fd i
  | .unmaskInterest fd i => selectorUnmaskInterest s fd i
  | .removeInterest fd i => selectorRemoveInterest s fd i
  | .maskInterest fd i => selectorMaskInterest s fd i

structure Tables (s : FdSelector δ) : Prop where
  inv : SelectorInv s
  cap : itemsMaxSize ≤ s.fdSize
  top : TopFd s

theorem Tables.updateItem (h : Tables s) (hf : ∀ it, (f it).fd = it.fd) :
    Tables (updateItem s fd f).1 := by
  have hused : ∀ i, itemUsed ((Socks5d.updateItem s fd f).1.fds i) = itemUsed (s.fds i) := by
    intro i
    rcases updateItem_cases s fd f with ⟨-, heq⟩ | ⟨-, -, heq⟩
    · rw [heq]
    · rw [heq]
      by_cases hi : i = fd.toNat
      · subst hi
        simp [itemsUpdateFdsetForFd, itemUsed, hf]
      · simp [itemsUpdateFdsetForFd, Function.update_of_ne hi]
  have hmax : (Socks5d.updateItem s fd f).1.maxFd = s.maxFd := by
    rcases updateItem_cases s fd f with ⟨-, heq⟩ | ⟨-, -, heq⟩
    · rw [heq]
    · rw [heq]
      rfl
  refine ⟨h.inv.updateItem hf, ?_, ⟨?_, ?_⟩⟩
  · rw [updateItem_fdSize]
    exact h.cap
  · intro i
    rw [hused, hmax]
    exact h.top.le i
  · simp only [hused, hmax]
    exact h.top.used

theorem Tables.unregister (h : Tables s) : Tables (selectorUnregisterFd s fd).1 := by
  refine ⟨h.inv.unregister, ?_, ?_⟩
  · rw [unregister_fdSize]
    exact h.cap
  have hinv : SelectorInv (selectorUnregisterFd s fd).1 := h.inv.unregister
  rcases unregister_cases s fd with ⟨-, heq⟩ | ⟨-, -, heq⟩
  · rw [heq]
    exact h.top
  · rw [heq] at hinv ⊢
    refine itemsMaxFd_top (s := dropItem s fd) rfl rfl ?_ ?_
    · exact fun i hi => (hinv.fd_eq i hi).2
    · intro i hi
      apply h.top.le i
      by_cases heq : i = fd.toNat
      · subst heq
        simp [dropItem, itemInit, itemUsed] at hi
      · simpa [dropItem, itemsUpdateFdsetForFd, Function.update_of_ne heq] using hi

theorem Tables.register (h : Tables s) (alloc : Bool) (interest : FdInterest) (d : δ) :
    Tables (selectorRegister alloc s fd interest d).1 := by
  have hcases := register_cases fd alloc interest d h.cap
  refine ⟨h.inv.register alloc interest d h.cap, ?_, ?_⟩
  · rcases hcases with ⟨-, hs, -⟩ | ⟨-, -, -, hsz, -⟩
    · rw [hs]
      exact h.cap
    · rw [hsz]
      exact h.cap
  unfold selectorRegister
  by_cases hv : invalidFd fd = true
  · rw [if_pos hv]
    exact h.top
  have hrange := invalidFd_eq_false.mp (by simpa using hv)
  have hlt : ¬ s.fdSize < fd.toNat := by
    have hcap := h.cap
    unfold itemsMaxSize at hcap
    omega
  rw [if_neg hv, if_neg hlt]
  dsimp only
  rw [if_neg (not_not.mpr rfl)]
  by_cases hu : itemUsed (s.fds fd.toNat) = true
  · rw [if_pos hu]
    exact h.top
  · rw [if_neg hu]
    have hnew : fd ≠ fdUnused := by
      unfold fdUnused
      omega
    have hused : ∀ i, itemUsed (Function.update s.fds fd.toNat
        (⟨fd, interest, ⟨true, true⟩, some d⟩ : Item δ) i) = true ↔
        i = fd.toNat ∨ itemUsed (s.fds i) = true := by
      intro i
      by_cases hi : i = fd.toNat
      · simp [hi, itemUsed, hnew]
      · simp [hi]
    refine ⟨?_, .inl ?_⟩
    · intro i hi
      have hle : fd ≤ (if s.maxFd < fd then fd else s.maxFd) ∧
          s.maxFd ≤ (if s.maxFd < fd then fd else s.maxFd) := by
        split_ifs
        · omega
        · omega
      rcases (hused i).mp hi with rfl | hi
      · rw [Int.toNat_of_nonneg hrange.1]
        exact hle.1
      · exact Int.le_trans (h.top.le i hi) hle.2
    · change ∃ i : ℕ, itemUsed (Function.update s.fds fd.toNat _ i) = true ∧
        (if s.maxFd < fd then fd else s.maxFd) = i
      split_ifs with hmax
      · exact ⟨fd.toNat, (hused _).mpr (.inl rfl), (Int.toNat_of_nonneg hrange.1).symm⟩
      · rcases h.top.used with ⟨i, hi, htop⟩ | ⟨-, hzero⟩
        · exact ⟨i, (hused i).mpr (.inr hi), htop⟩
        · refine ⟨fd.toNat, (hused _).mpr (.inl rfl), ?_⟩
          omega

theorem Tables.call (h : Tables s) (op : SelectorOp δ) : Tables (op.call s).1 := by
  cases op with
  | register alloc fd handler interest =>
    cases handler with
    | none => exact h
    | some d => exact h.register alloc interest d
  | unregister fd => exact h.unregister
  | setInterest | addInterest | unmaskInterest | removeInterest | maskInterest =>
    exact h.updateItem fun _ => rfl

/-- An operation that fails changes nothing. -/
theorem call_failed (hcap : itemsMaxSize ≤ s.fdSize) (op : SelectorOp δ)
    (hno : (op.call s).2 ≠ .success) : (op.call s).1 = s := by
  have hupd : ∀ {fd : ℤ} {f : Item δ → Item δ}, (updateItem s fd f).2 ≠ .success →
      (updateItem s fd f).1 = s := by
    intro fd f hno
    rcases updateItem_cases s fd f with ⟨-, heq⟩ | ⟨-, -, heq⟩
    · rw [heq]
    · exact absurd (congrArg Prod.snd heq) hno
  cases op with
  | register alloc fd handler interest =>
    cases handler with
    | none => rfl
    | some d =>
      rcases register_cases fd alloc interest d hcap with ⟨-, hs, -⟩ | ⟨hok, -⟩
      · exact hs
      · exact absurd hok hno
  | unregister fd =>
    rcases unregister_cases s fd with ⟨-, heq⟩ | ⟨-, -, heq⟩
    · exact congrArg Prod.fst heq
    · exact absurd (congrArg Prod.snd heq) hno
  | setInterest | addInterest | unmaskInterest | removeInterest | maskInterest => exact hupd hno

/-! ## Runs -/

/-- A new selector has an empty table. -/
theorem selectorNew_eq {alloc : Bool} {n : ℕ} (h : selectorNew alloc n = some s) :
    n ≤ itemsMaxSize ∧
    s = ⟨fun _ => itemInit, nextCapacity n, 0, fun _ => false, fun _ => false⟩ := by
  unfold selectorNew ensureCapacity at h
  dsimp only at h
  rw [if_neg (Nat.not_lt_zero n)] at h
  by_cases hmax : itemsMaxSize < n
  · rw [if_pos hmax] at h
    cases h
  cases alloc with
  | false =>
    rw [if_neg hmax] at h
    cases h
  | true =>
    refine ⟨Nat.le_of_not_lt hmax, ?_⟩
    simpa [hmax, itemsInit] using h.symm

theorem selectorNew_tables {alloc : Bool} (h : selectorNew alloc 1024 = some s) : Tables s := by
  obtain ⟨-, hs⟩ := selectorNew_eq h
  have hused : ∀ i, itemUsed (s.fds i) = false := by
    intro i
    rw [hs]
    rfl
  refine ⟨⟨?_, ?_, ?_, ?_⟩, ?_, ⟨?_, .inr ⟨hused, ?_⟩⟩⟩
  · intro i hu
    rw [hused] at hu
    cases hu
  · intro i _
    rw [hs]
    rfl
  · intro i
    rw [hused, hs]
    rfl
  · intro i
    rw [hused, hs]
    rfl
  · have hcap : itemsMaxSize ≤ nextCapacity 1024 := by decide
    rw [hs]
    exact hcap
  · intro i hu
    rw [hused] at hu
    cases hu
  · rw [hs]

/-- After any sequence of operations the tables of a new selector agree, and an
operation that does not succeed leaves them as they are. -/
theorem selector_tables_agree {alloc : Bool} {s₀ : FdSelector δ}
    (hnew : selectorNew alloc 1024 = some s₀) (ops : List (SelectorOp δ)) :
    let s := exec (fun s op => (SelectorOp.call s op).1) s₀ ops
    (∀ i, (s.fds i).fd = i ∨ (s.fds i).fd = fdUnused) ∧
    (∀ i, s.masterR i = true ↔ itemUsed (s.fds i) = true ∧
      ((s.fds i).interest &&& (s.fds i).interestMask).read = true) ∧
    (∀ i, s.masterW i = true ↔ itemUsed (s.fds i) = true ∧
      ((s.fds i).interest &&& (s.fds i).interestMask).write = true) ∧
    ((∃ i : ℕ, itemUsed (s.fds i) = true ∧ s.maxFd = i ∧
        ∀ j : ℕ, itemUsed (s.fds j) = true → j ≤ i) ∨
      ((∀ i, itemUsed (s.fds i) = false) ∧ s.maxFd = 0)) ∧
    ∀ op : SelectorOp δ, (op.call s).2 ≠ .success → (op.call s).1 = s := by
  intro s
  have h : Tables s := exec_invariant (selectorNew_tables hnew) fun _ op h => h.call op
  refine ⟨?_, ?_, ?_, ?_, fun op => call_failed h.cap op⟩
  · intro i
    by_cases hu : itemUsed (s.fds i) = true
    · exact .inl (h.inv.fd_eq i hu).2
    · exact .inr (by simpa [itemUsed] using hu)
  · intro i
    rw [h.inv.masterR_eq, Bool.and_eq_true]
  · intro i
    rw [h.inv.masterW_eq, Bool.and_eq_true]
  · refine h.top.used.imp_left ?_
    rintro ⟨i, hi, htop⟩
    refine ⟨i, hi, htop, fun j hj => ?_⟩
    have hle := h.top.le j hj
    omega

/-- Two registrations, one of which is withdrawn, and a call for a descriptor that
is not in use. -/
theorem selector_tables_of_two :
    let s₀ : FdSelector Unit :=
  (selectorNew true 1024).getD ⟨fun _ => itemInit, 0, 0, fun _ => false, fun _ => false⟩
    let s := exec (fun s op => (SelectorOp.call s op).1) s₀ [.register true 3 (some ()) opRead,
      .register true 7 (some ()) opWrite, .unregister 7, .maskInterest 5 opRead]
    s.maxFd = 3 ∧ (s.masterR 3 = true ↔ itemUsed (s.fds 3) = true ∧
      ((s.fds 3).interest &&& (s.fds 3).interestMask).read = true) := by
  intro s₀ s
  have hnew : selectorNew true 1024 = some s₀ := by
    simp [s₀, selectorNew, ensureCapacity, itemsMaxSize]
  have h := selector_tables_agree hnew [.register true 3 (some ()) opRead,
    .register true 7 (some ()) opWrite, .unregister 7, .maskInterest 5 opRead]
  exact ⟨by decide, h.2.1 3⟩

end Socks5d
