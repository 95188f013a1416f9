import Socks5d.SelectorTables

/-! # Accesses to the table of the multiplexer

The operations once more, with every access to `fds` checked: `none` is an access at an index
from `fd_size` on. -/

namespace Socks5d
open EventRun

variable {δ : Type}

namespace Checked

/-- `s->fds + i`, if the table has that entry. -/
def fdsAt (s : FdSelector δ) (i : ℕ) : Option (Item δ) :=
  if i < s.fdSize then some (s.fds i) else none

def itemsMaxFd (s : FdSelector δ) : Option ℤ :=
  (List.range (s.maxFd.toNat + 1)).foldlM
    (fun max i => (fdsAt s i).map fun item => if itemUsed item && max <
      item.fd then item.fd else max) 0

def selectorRegister (alloc : Bool) (s : FdSelector δ) (fd : ℤ) (interest : FdInterest) (data : δ) :
    Option (FdSelector δ × SelectorStatus) :=
  if invalidFd fd then some (s, .iargs)
  else
    let r := if s.fdSize < fd.toNat then ensureCapacity alloc s fd.toNat else (s, .success)
    if r.2 ≠ .success then some r
    else
      let s := r.1
      (fdsAt s fd.toNat).map fun item =>
        if itemUsed item then (s, .fdinuse)
        else
          let item : Item δ := ⟨fd, interest, ⟨true, true⟩, some data⟩
          let s := { s with
            fds := Function.update s.fds fd.toNat item
            maxFd := if s.maxFd < fd then fd else s.maxFd }
          (itemsUpdateFdsetForFd s item, .success)

def selectorUnregisterFd (s : FdSelector δ) (fd : ℤ) : Option (FdSelector δ × SelectorStatus) :=
  if invalidFd fd then some (s, .iargs)
  else
    (fdsAt s fd.toNat).bind fun item =>
      if !itemUsed item then some (s, .iargs)
      else
        let s := itemsUpdateFdsetForFd s { item with interest := opNoop }
        let s := { s with fds := Function.update s.fds fd.toNat itemInit }
        (itemsMaxFd s).map fun max => ({ s with maxFd := max }, .success)

def updateItem (s : FdSelector δ) (fd : ℤ) (f : Item δ → Item δ) :
    Option (FdSelector δ × SelectorStatus) :=
  if invalidFd fd then some (s, .iargs)
  else
    (fdsAt s fd.toNat).map fun item =>
      if !itemUsed item then (s, .iargs)
      else
        let s := { s with fds := Function.update s.fds fd.toNat (f item) }
        (itemsUpdateFdsetForFd s (f item), .success)

def call (s : FdSelector δ) : SelectorOp δ → Option (FdSelector δ × SelectorStatus)
  | .register _ _ none _ => some (s, .iargs)
  | .register alloc fd (some d) interest => selectorRegister alloc s fd interest d
  | .unregister fd => selectorUnregisterFd s fd
  | .setInterest fd i => updateItem s fd fun item => { item with interest := i }
  | .addInterest fd i => updateItem s fd fun item =>
      { item with interest := item.interest ||| i, interestMask := item.interestMask ||| i }
  | .unmaskInterest fd i => updateItem s fd fun item =>
    { item with interestMask := item.interestMask ||| i }
  | .removeInterest fd i => updateItem s fd fun item =>
    { item with interest := item.interest &&& ~~~i }
  | .maskInterest fd i => updateItem s fd fun item =>
    { item with interestMask := item.interestMask &&& ~~~i }

end Checked

/-- The descriptor has an entry, or gets one. `selector_register` does not make the table
larger for the descriptor that is equal to its size; the others never do. -/
def SelectorOp.InTable (s : FdSelector δ) : SelectorOp δ → Prop
  | .register _ _ none _ => True
  | .register _ fd (some _) _ => invalidFd fd = false → fd.toNat ≠ s.fdSize
  | .unregister fd | .setInterest fd _ | .addInterest fd _ | .unmaskInterest fd _ |
      .removeInterest fd _
  | .maskInterest fd _ => invalidFd fd = false → fd.toNat < s.fdSize

/-! ## The size of the table -/

/-- What is in use, and the largest descriptor, are in the table. -/
structure Sized (s : FdSelector δ) : Prop where
  used : ∀ i, itemUsed (s.fds i) = true → i < s.fdSize ∧ (s.fds i).fd = i
  top : s.maxFd.toNat < s.fdSize

variable {s : FdSelector δ} {fd : ℤ} {f : Item δ → Item δ} {n : ℕ}

theorem lt_two_pow_countBits {k : ℕ} (h : n < 2 ^ k) : n < 2 ^ countBits k n := by
  induction k generalizing n with
  | zero => exact h
  | succ k ih =>
    rw [countBits]
    split_ifs with h0
    · rw [h0]
      exact Nat.one_pos
    · have hhalf : n >>> 1 < 2 ^ k := by
        rw [Nat.shiftRight_eq_div_pow]
        omega
      have hlt := ih hhalf
      rw [Nat.shiftRight_eq_div_pow] at hlt ⊢
      rw [Nat.pow_succ]
      omega

theorem lt_nextCapacity (h : n ≤ itemsMaxSize) : n < nextCapacity n := by
  unfold itemsMaxSize at h
  have hlt := lt_two_pow_countBits (k := 64) (n := n) (by omega)
  unfold nextCapacity itemsMaxSize
  omega

/-- A table that was made larger has an entry for `n`, and the old ones. -/
theorem Sized.ensureCapacity {alloc : Bool} (h : Sized s) (hn : n ≤ itemsMaxSize)
    (hok : (ensureCapacity alloc s n).2 = .success) :
    Sized (ensureCapacity alloc s n).1 ∧ n < (ensureCapacity alloc s n).1.fdSize := by
  unfold Socks5d.ensureCapacity at hok ⊢
  split_ifs at hok ⊢ with hlt hmax halloc
  · exact ⟨h, hlt⟩
  · have hnext := lt_nextCapacity hn
    have htop := h.top
    refine ⟨⟨fun i hu => ?_, ?_⟩, hnext⟩
    · dsimp only [itemsInit] at hu ⊢
      by_cases hi : s.fdSize ≤ i ∧ i < nextCapacity n
      · rw [if_pos hi] at hu
        cases hu
      · rw [if_neg hi] at hu ⊢
        obtain ⟨hin, hfd⟩ := h.used i hu
        exact ⟨by omega, hfd⟩
    · dsimp only [itemsInit]
      omega

theorem selectorNew_sized {alloc : Bool} (hnew : selectorNew alloc n = some s) : Sized s := by
  obtain ⟨hn, rfl⟩ := selectorNew_eq hnew
  refine ⟨fun i hu => ?_, ?_⟩
  · cases hu
  · exact Nat.zero_lt_of_lt (lt_nextCapacity hn)

/-! ## One operation -/

section
open Checked

theorem fdsAt_of_lt {i : ℕ} (h : i < s.fdSize) : fdsAt s i = some (s.fds i) := if_pos h

theorem fdsAt_eq_none {i : ℕ} (h : ¬ i < s.fdSize) : fdsAt s i = none := if_neg h

/-- The loop of `items_max_fd` stays in the table. -/
theorem checked_itemsMaxFd (h : s.maxFd.toNat < s.fdSize) :
    Checked.itemsMaxFd s = some (itemsMaxFd s) := by
  have hfold : ∀ (l : List ℕ) (a : ℤ), (∀ i ∈ l, i < s.fdSize) →
      l.foldlM (fun max i => (fdsAt s i).map fun item =>
        if itemUsed item && max < item.fd then item.fd else max) a =
      some (l.foldl (fun max i =>
        if itemUsed (s.fds i) && max < (s.fds i).fd then (s.fds i).fd else max) a) := by
    intro l
    induction l with
    | nil => exact fun a _ => rfl
    | cons j l ih =>
      intro a hl
      rw [List.forall_mem_cons] at hl
      rw [List.foldlM_cons, fdsAt_of_lt hl.1]
      exact ih _ hl.2
  apply hfold
  intro i hi
  rw [List.mem_range] at hi
  omega

/-- Writing to an entry of the table that keeps its descriptor. -/
theorem Sized.update (h : Sized s) {i : ℕ} {it : Item δ} (hi : i < s.fdSize)
    (hit : itemUsed it = true → it.fd = i) :
    ∀ j, itemUsed (Function.update s.fds i it j) = true →
      j < s.fdSize ∧ (Function.update s.fds i it j).fd = j := by
  intro j hu
  by_cases hj : j = i
  · subst hj
    rw [Function.update_self] at hu ⊢
    exact ⟨hi, hit hu⟩
  · rw [Function.update_of_ne hj] at hu ⊢
    exact h.used j hu

theorem Sized.updateItem (h : Sized s) (hf : ∀ it, (f it).fd = it.fd)
    (hin : invalidFd fd = false → fd.toNat < s.fdSize) :
    Checked.updateItem s fd f = some (Socks5d.updateItem s fd f) ∧
    Sized (Socks5d.updateItem s fd f).1 := by
  unfold Checked.updateItem Socks5d.updateItem
  by_cases hv : invalidFd fd = true
  · rw [if_pos hv, if_pos hv]
    exact ⟨rfl, h⟩
  have hlt := hin (by simpa using hv)
  rw [if_neg hv, if_neg hv, fdsAt_of_lt hlt]
  refine ⟨rfl, ?_⟩
  dsimp only
  split_ifs with hu
  · exact h
  · have hused : itemUsed (s.fds fd.toNat) = true := by simpa using hu
    refine ⟨h.update hlt fun _ => ?_, h.top⟩
    rw [hf]
    exact (h.used _ hused).2

theorem checked_updateItem_none (hv : invalidFd fd = false) (hout : ¬ fd.toNat < s.fdSize) :
    Checked.updateItem s fd f = none := by
  unfold Checked.updateItem
  rw [if_neg (by simpa using hv), fdsAt_eq_none hout]
  rfl

theorem Sized.unregister (h : Sized s) (hin : invalidFd fd = false → fd.toNat < s.fdSize) :
    Checked.selectorUnregisterFd s fd = some (Socks5d.selectorUnregisterFd s fd) ∧
      Sized (Socks5d.selectorUnregisterFd s fd).1 := by
  unfold Checked.selectorUnregisterFd Socks5d.selectorUnregisterFd
  by_cases hv : invalidFd fd = true
  · rw [if_pos hv, if_pos hv]
    exact ⟨rfl, h⟩
  have hlt := hin (by simpa using hv)
  rw [if_neg hv, if_neg hv, fdsAt_of_lt hlt, Option.bind_some]
  dsimp only
  split_ifs with hu
  · exact ⟨rfl, h⟩
  have hfree : itemUsed (itemInit : Item δ) = true → (itemInit : Item δ).fd = fd.toNat :=
    fun hbad => by (cases hbad)
  have hinit := h.update hlt hfree
  rw [checked_itemsMaxFd]
  · refine ⟨rfl, hinit, ?_⟩
    -- the new maximum is 0 or an entry that is left
    have htop := h.top
    have hmax := (foldl_max (fun i hi => (hinit i hi).2) (List.range (s.maxFd.toNat + 1)) 0).2.2
    dsimp only [itemsMaxFd, itemsUpdateFdsetForFd]
    rcases hmax with hval | ⟨i, hi, -, hval⟩
    · rw [hval]
      exact Nat.zero_lt_of_lt htop
    · rw [List.mem_range] at hi
      rw [hval, Int.toNat_natCast]
      omega
  · exact h.top

theorem checked_unregister_none (hv : invalidFd fd = false) (hout : ¬ fd.toNat < s.fdSize) :
    Checked.selectorUnregisterFd s fd = none := by
  unfold Checked.selectorUnregisterFd
  rw [if_neg (by simpa using hv), fdsAt_eq_none hout]
  rfl

theorem Sized.register (h : Sized s) (alloc : Bool) (interest : FdInterest) (d : δ)
    (hin : invalidFd fd = false → fd.toNat ≠ s.fdSize) :
    Checked.selectorRegister alloc s fd interest d =
      some (Socks5d.selectorRegister alloc s fd interest d) ∧
      Sized (Socks5d.selectorRegister alloc s fd interest d).1 := by
  unfold Checked.selectorRegister Socks5d.selectorRegister
  by_cases hv : invalidFd fd = true
  · rw [if_pos hv, if_pos hv]
    exact ⟨rfl, h⟩
  have hrange := invalidFd_eq_false.mp (by simpa using hv)
  have hne := hin (by simpa using hv)
  rw [if_neg hv, if_neg hv]
  -- the table as it is when the entry is looked at
  generalize hr : (if s.fdSize < fd.toNat then Socks5d.ensureCapacity alloc s fd.toNat
    else (s, SelectorStatus.success)) = r
  dsimp only
  by_cases hok : r.2 ≠ .success
  · rw [if_pos hok, if_pos hok]
    -- without memory the table is the old one
    refine ⟨rfl, ?_⟩
    split_ifs at hr with hlt
    · unfold Socks5d.ensureCapacity at hr
      rw [← hr] at hok ⊢
      split_ifs at hok ⊢
      · exact h
      · exact h
      · exact h
      · exact absurd rfl hok
    · rw [← hr] at hok
      exact absurd rfl hok
  rw [if_neg hok, if_neg hok]
  have hsized : Sized r.1 ∧ fd.toNat < r.1.fdSize := by
    split_ifs at hr with hlt
    · subst hr
      refine h.ensureCapacity ?_ (not_not.mp hok)
      unfold itemsMaxSize
      omega
    · subst hr
      exact ⟨h, by dsimp only; omega⟩
  rw [fdsAt_of_lt hsized.2]
  refine ⟨rfl, ?_⟩
  by_cases hu : itemUsed (r.1.fds fd.toNat) = true
  · rw [if_pos hu]
    exact hsized.1
  · rw [if_neg hu]
    refine ⟨hsized.1.update hsized.2 fun _ => ?_, ?_⟩
    · exact (Int.toNat_of_nonneg hrange.1).symm
    · have htop := hsized.1.top
      have hlt := hsized.2
      dsimp only [itemsUpdateFdsetForFd]
      split_ifs
      · exact hlt
      · exact htop

theorem checked_register_none {alloc : Bool} {interest : FdInterest} {d : δ}
    (hv : invalidFd fd = false)
    (heq : fd.toNat = s.fdSize) : Checked.selectorRegister alloc s fd interest d = none := by
  have hsame : ¬ s.fdSize < fd.toNat := by omega
  unfold Checked.selectorRegister
  rw [if_neg (by simpa using hv), if_neg hsame]
  dsimp only
  rw [if_neg (not_not.mpr rfl), fdsAt_eq_none (by omega)]
  rfl

/-- A descriptor that is free can be registered, in a table that is made larger if needed. -/
theorem register_succeeds (hv : invalidFd fd = false) (hne : fd.toNat ≠ s.fdSize)
    (hfree : item? s fd = none) (interest : FdInterest) (d : δ) :
    (Socks5d.selectorRegister true s fd interest d).2 = .success ∧
      fd.toNat < (Socks5d.selectorRegister true s fd interest d).1.fdSize := by
  have hrange := invalidFd_eq_false.mp hv
  have hunused : itemUsed (s.fds fd.toNat) = false := by
    rw [item?, if_neg (by simpa using hv)] at hfree
    by_contra hu
    rw [if_pos (by simpa using hu)] at hfree
    cases hfree
  unfold Socks5d.selectorRegister
  rw [if_neg (by simpa using hv)]
  -- a new entry is a free one; an old one is by assumption
  by_cases hlt : s.fdSize < fd.toNat
  · have hmax : ¬ itemsMaxSize < fd.toNat := by
      unfold itemsMaxSize
      omega
    have hnext := lt_nextCapacity (Nat.le_of_not_lt hmax)
    have hgrow : Socks5d.ensureCapacity true s fd.toNat =
        (itemsInit { s with fdSize := nextCapacity fd.toNat } s.fdSize, .success) := by
      unfold Socks5d.ensureCapacity
      rw [if_neg (by omega), if_neg hmax]
      rfl
    have hinit :
        (itemsInit { s with fdSize := nextCapacity fd.toNat } s.fdSize).fds fd.toNat = itemInit :=
      if_pos ⟨Nat.le_of_lt hlt, hnext⟩
    rw [if_pos hlt, hgrow]
    dsimp only
    rw [if_neg (not_not.mpr rfl), hinit]
    exact ⟨rfl, hnext⟩
  · rw [if_neg hlt]
    dsimp only
    rw [if_neg (not_not.mpr rfl), hunused]
    refine ⟨rfl, ?_⟩
    change fd.toNat < s.fdSize
    omega

/-- An operation stays in the table if its descriptor does. -/
theorem Sized.call {op : SelectorOp δ} (h : Sized s) (hop : op.InTable s) :
    Checked.call s op = some (op.call s) ∧ Sized (op.call s).1 := by
  cases op with
  | register alloc fd handler interest =>
    cases handler with
    | none => exact ⟨rfl, h⟩
    | some d => exact h.register alloc interest d hop
  | unregister fd => exact h.unregister hop
  | setInterest | addInterest | unmaskInterest | removeInterest | maskInterest =>
    exact h.updateItem (fun _ => rfl) hop

/-- And only then. -/
theorem checked_call_none {op : SelectorOp δ} (hop : ¬ op.InTable s) :
    Checked.call s op = none := by
  cases op with
  | register alloc fd handler interest =>
    cases handler with
    | none => exact absurd trivial hop
    | some d =>
      unfold SelectorOp.InTable at hop
      push Not at hop
      exact checked_register_none hop.1 hop.2
  | unregister fd =>
    obtain ⟨hv, hout⟩ := Classical.not_imp.mp hop
    exact checked_unregister_none hv hout
  | setInterest | addInterest | unmaskInterest | removeInterest | maskInterest =>
    obtain ⟨hv, hout⟩ := Classical.not_imp.mp hop
    exact checked_updateItem_none hv hout

end

/-! ## Runs -/

/-- The state after the operations, unless one of them leaves the table. -/
def checkedRun (s : FdSelector δ) (ops : List (SelectorOp δ)) : Option (FdSelector δ) :=
  exec (fun o op => o.bind fun s => (Checked.call s op).map Prod.fst) (some s) ops

theorem checkedRun_cons (op : SelectorOp δ) (ops : List (SelectorOp δ)) :
    checkedRun s (op :: ops) = (Checked.call s op).bind fun r => checkedRun r.1 ops := by
  unfold checkedRun
  rw [exec_cons, Option.bind_some]
  cases Checked.call s op with
  | none =>
    change exec _ none ops = none
    induction ops with
    | nil => rfl
    | cons op ops ih => exact ih
  | some r => rfl

theorem Sized.run (h : Sized s) (ops : List (SelectorOp δ)) :
    (Along (fun s op => (SelectorOp.call s op).1) SelectorOp.InTable s ops ∧
        checkedRun s ops = some (exec (fun s op => (SelectorOp.call s op).1) s ops) ∧
        Sized (exec (fun s op => (SelectorOp.call s op).1) s ops)) ∨
      (¬ Along (fun s op => (SelectorOp.call s op).1) SelectorOp.InTable s ops ∧
        checkedRun s ops = none) := by
  induction ops generalizing s with
  | nil => exact .inl ⟨trivial, rfl, h⟩
  | cons op ops ih =>
    rw [checkedRun_cons, exec_cons]
    by_cases hop : op.InTable s
    · obtain ⟨hcall, hsized⟩ := h.call hop
      rw [hcall, Option.bind_some]
      rcases ih hsized with ⟨halong, hrun⟩ | ⟨hno, hrun⟩
      · exact .inl ⟨⟨hop, halong⟩, hrun⟩
      · exact .inr ⟨fun hall => hno hall.2, hrun⟩
    · rw [checked_call_none hop]
      exact .inr ⟨fun hall => hop hall.1, rfl⟩

/-- For every size and all operations, no access leaves the table exactly if no call is for a
descriptor that has no entry and gets none. A free descriptor can be registered next, unless
it is equal to `fd_size`. -/
theorem selector_in_table_iff {alloc : Bool} {n : ℕ} {s₀ : FdSelector δ}
    (hnew : selectorNew alloc n = some s₀) (ops : List (SelectorOp δ)) :
    (checkedRun s₀ ops = some (exec (fun s op => (SelectorOp.call s op).1) s₀ ops) ↔
      Along (fun s op => (SelectorOp.call s op).1) SelectorOp.InTable s₀ ops) ∧
    (checkedRun s₀ ops = none ↔
      ¬ Along (fun s op => (SelectorOp.call s op).1) SelectorOp.InTable s₀ ops) ∧
    ∀ s, checkedRun s₀ ops = some s → ∀ fd : ℤ, 0 ≤ fd → fd < itemsMaxSize → item? s fd = none →
      ∀ d interest, (∃ s', Checked.selectorRegister true s fd interest d = some (s', .success) ∧
        fd.toNat < s'.fdSize) ↔ fd.toNat ≠ s.fdSize := by
  rcases (selectorNew_sized hnew).run ops with ⟨halong, hrun, hsized⟩ | ⟨hno, hrun⟩
  · refine ⟨iff_of_true hrun halong, ?_, fun s hs fd h0 hlt hfree d interest => ?_⟩
    · rw [hrun]
      exact iff_of_false (Option.some_ne_none _) (not_not.mpr halong)
    rw [hrun, Option.some.injEq] at hs
    rw [hs] at hsized
    have hv : invalidFd fd = false := invalidFd_eq_false.mpr ⟨h0, hlt⟩
    constructor
    · rintro ⟨s', hreg, -⟩ heq
      rw [checked_register_none hv heq] at hreg
      cases hreg
    · intro hne
      obtain ⟨hok, hin⟩ := register_succeeds hv hne hfree interest d
      refine ⟨(Socks5d.selectorRegister true s fd interest d).1, ?_, hin⟩
      rw [(hsized.register true interest d fun _ => hne).1, ← hok]
  · rw [hrun]
    refine ⟨iff_of_false (Option.some_ne_none _).symm hno, iff_of_true rfl hno, fun s hs => ?_⟩
    cases hs

/-- The selector that `main` makes has an entry for every descriptor. -/
theorem main_selector_in_table {alloc : Bool} {s₀ : FdSelector δ}
    (hnew : selectorNew alloc 1024 = some s₀) (ops : List (SelectorOp δ)) :
    Along (fun s op => (SelectorOp.call s op).1) SelectorOp.InTable s₀ ops := by
  have htables : ∀ s : FdSelector δ, Tables s → ∀ ops : List (SelectorOp δ),
      Along (fun s op => (SelectorOp.call s op).1) SelectorOp.InTable s ops := by
    intro s h ops
    induction ops generalizing s with
    | nil => trivial
    | cons op ops ih =>
      refine ⟨?_, ih _ (h.call op)⟩
      have hlt : ∀ {fd : ℤ}, invalidFd fd = false → fd.toNat < s.fdSize := by
        intro fd hv
        have hrange := invalidFd_eq_false.mp hv
        have hcap := h.cap
        unfold itemsMaxSize at hcap
        omega
      cases op with
      | register alloc fd handler interest =>
        cases handler with
        | none => trivial
        | some d => exact fun hv => Nat.ne_of_lt (hlt hv)
      | unregister | setInterest | addInterest | unmaskInterest | removeInterest | maskInterest =>
        exact hlt
  exact htables s₀ (selectorNew_tables hnew) ops

/-- A selector made for four descriptors has nine entries; 12 makes it larger. -/
theorem twelve_is_in_table :
    ∃ s₀ : FdSelector Unit, selectorNew true 4 = some s₀ ∧
    checkedRun s₀ [.register true 3 (some ()) opRead,
      .register true 12 (some ()) opWrite, .unregister 3] ≠ none := by
  have hnew : selectorNew true 4 = some ((selectorNew (δ := Unit) true 4).get rfl) := rfl
  refine ⟨_, hnew, fun hnone => ?_⟩
  have hiff := (selector_in_table_iff hnew
    [.register true 3 (some ()) opRead, .register true 12 (some ()) opWrite, .unregister 3]).2.1
  exact hiff.mp hnone ⟨fun _ => by decide, fun _ => by decide, fun _ => by decide, trivial⟩

/-- It does not have an entry for 9, and does not make one. -/
theorem nine_is_past_the_table :
    ¬ ∀ (n : ℕ) (s₀ : FdSelector Unit)
    (ops : List (SelectorOp Unit)), selectorNew true n = some s₀ →
      checkedRun s₀ ops ≠ none := by
  intro h
  apply h 4 _ [.register true 9 (some ()) opRead] rfl
  rfl

end Socks5d
