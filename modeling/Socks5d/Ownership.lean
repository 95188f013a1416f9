import Socks5d.Selector

/-! # Who owns a registration

`Held d s fd i m`: descriptor `fd` is registered with attachment `d`, interest
exactly `i` and at least the bits of `m` in its mask. Interests are only ever
changed by their owner, whereas anyone may unmask a descriptor, so `Held` is what
survives the actions of others. -/

namespace Socks5d

variable {δ : Type} {d d' : δ} {s s' s'' : FdSelector δ} {fd fd' : ℤ} {fds : List ℤ}
  {i m m' a : FdInterest} {f : Item δ → Item δ}

instance : LE FdInterest :=
  ⟨fun a b => (a.read = true → b.read = true) ∧ (a.write = true → b.write = true)⟩

theorem FdInterest.le_def :
    m ≤ m' ↔ (m.read = true → m'.read = true) ∧ (m.write = true → m'.write = true) := Iff.rfl

theorem FdInterest.le_refl (m : FdInterest) : m ≤ m := ⟨id, id⟩

theorem FdInterest.le_trans {m'' : FdInterest} (h : m ≤ m') (h' : m' ≤ m'') : m ≤ m'' :=
  ⟨h'.1 ∘ h.1, h'.2 ∘ h.2⟩

theorem FdInterest.le_all (m : FdInterest) : m ≤ ⟨true, true⟩ := ⟨fun _ => rfl, fun _ => rfl⟩

theorem FdInterest.le_or : m ≤ m ||| a := by
  simp only [FdInterest.le_def, or_read, or_write, Bool.or_eq_true]
  exact ⟨Or.inl, Or.inl⟩

theorem FdInterest.or_le_or (h : m ≤ m') : m ||| a ≤ m' ||| a := by
  simp only [FdInterest.le_def, or_read, or_write, Bool.or_eq_true]
  exact ⟨Or.imp_left h.1, Or.imp_left h.2⟩

theorem FdInterest.and_le_and (h : m ≤ m') : m &&& a ≤ m' &&& a := by
  simp only [FdInterest.le_def, and_read, and_write, Bool.and_eq_true]
  exact ⟨And.imp_left h.1, And.imp_left h.2⟩

def Held (d : δ) (s : FdSelector δ) (fd : ℤ) (i m : FdInterest) : Prop :=
  ∃ it, item? s fd = some it ∧ it.data = some d ∧ it.interest = i ∧ m ≤ it.interestMask

/-- `d` has no registration outside `fds`. -/
def OnlyAt (d : δ) (s : FdSelector δ) (fds : List ℤ) : Prop :=
  ∀ fd it, item? s fd = some it → it.data = some d → fd ∈ fds

/-- Nobody but `d` is registered at `fd`. -/
def OwnFd (d : δ) (s : FdSelector δ) (fd : ℤ) : Prop :=
  ∀ it, item? s fd = some it → it.data = some d

/-- Registrations of others keep their interest and their mask bits. -/
structure Spares (d : δ) (s s' : FdSelector δ) : Prop where
  kept : ∀ fd it, item? s fd = some it → it.data ≠ some d →
    ∃ it', item? s' fd = some it' ∧ it'.data = it.data ∧ it'.interest = it.interest ∧
      it.interestMask ≤ it'.interestMask
  back : ∀ fd it', item? s' fd = some it' → it'.data ≠ some d →
    ∃ it, item? s fd = some it ∧ it.data = it'.data

theorem Spares.refl : Spares d s s :=
  ⟨fun _ it h _ => ⟨it, h, rfl, rfl, FdInterest.le_refl _⟩, fun _ it h _ => ⟨it, h, rfl⟩⟩

theorem Spares.trans (h : Spares d s s') (h' : Spares d s' s'') : Spares d s s'' := by
  refine ⟨?_, ?_⟩
  · intro fd it hit hd
    obtain ⟨it', hit', hd', hi', hm'⟩ := h.kept fd it hit hd
    obtain ⟨it'', hit'', hd'', hi'', hm''⟩ := h'.kept fd it' hit' (hd' ▸ hd)
    exact ⟨it'', hit'', hd''.trans hd', hi''.trans hi', FdInterest.le_trans hm' hm''⟩
  · intro fd it'' hit'' hd
    obtain ⟨it', hit', hd'⟩ := h'.back fd it'' hit'' hd
    obtain ⟨it, hit, hd''⟩ := h.back fd it' hit' (hd' ▸ hd)
    exact ⟨it, hit, hd''.trans hd'⟩

/-! ## What the owner's operations do -/

theorem Held.ownFd (h : Held d s fd i m) : OwnFd d s fd := by
  obtain ⟨it, hit, hd, -⟩ := h
  intro it' hit'
  rw [hit, Option.some.injEq] at hit'
  exact hit' ▸ hd

theorem Held.valid (h : Held d s fd i m) : invalidFd fd = false := by
  obtain ⟨it, hit, -⟩ := h
  exact valid_of_item? hit

theorem Held.mem (h : Held d s fd i m) (ho : OnlyAt d s fds) : fd ∈ fds := by
  obtain ⟨it, hit, hd, -⟩ := h
  exact ho fd it hit hd

theorem Held.interest_eq (h : Held d s fd i m) {it : Item δ} (hit : item? s fd = some it) :
    it.interest = i := by
  obtain ⟨it', hit', -, hi, -⟩ := h
  rw [hit, Option.some.injEq] at hit'
  exact hit' ▸ hi

theorem Held.mono (h : Held d s fd i m) (hm : m' ≤ m) : Held d s fd i m' := by
  obtain ⟨it, hit, hd, hi, hmask⟩ := h
  exact ⟨it, hit, hd, hi, FdInterest.le_trans hm hmask⟩

theorem Held.updateItem_ne (h : Held d s fd i m) (hne : fd ≠ fd') (hf : ∀ it, (f it).fd = it.fd) :
    Held d (updateItem s fd' f).1 fd i m := by
  obtain ⟨it, hit, hrest⟩ := h
  refine ⟨it, ?_, hrest⟩
  rw [item?_updateItem hf, if_neg hne, hit]

theorem Held.unregister_ne (h : Held d s fd i m) (hne : fd ≠ fd') :
    Held d (selectorUnregisterFd s fd').1 fd i m := by
  obtain ⟨it, hit, hrest⟩ := h
  refine ⟨it, ?_, hrest⟩
  rw [item?_unregister, if_neg hne, hit]

theorem Held.updateItem (h : Held d s fd i m) (hf : ∀ it, (f it).fd = it.fd)
    (hd : ∀ it, (f it).data = it.data) {i' : FdInterest}
    (hi : ∀ it, it.interest = i → (f it).interest = i')
    (hm : ∀ it, m ≤ it.interestMask → m' ≤ (f it).interestMask) :
    Held d (updateItem s fd f).1 fd i' m' := by
  obtain ⟨it, hit, hdata, hint, hmask⟩ := h
  refine ⟨f it, ?_, (hd it).trans hdata, hi it hint, hm it hmask⟩
  rw [item?_updateItem hf, if_pos rfl, hit, Option.map_some]

theorem Held.setInterest (h : Held d s fd i m) :
    Held d (selectorSetInterest s fd a).1 fd a m := by
  refine h.updateItem (fun _ => ?_) (fun _ => ?_) (fun _ hi => ?_) (fun _ hm => ?_)
  · rfl
  · rfl
  · rfl
  · exact hm

theorem Held.addInterest (h : Held d s fd i m) :
    Held d (selectorAddInterest s fd a).1 fd (i ||| a) (m ||| a) := by
  refine h.updateItem (fun _ => ?_) (fun _ => ?_) (fun _ hi => ?_) (fun _ hm => ?_)
  · rfl
  · rfl
  · rw [hi]
  · exact FdInterest.or_le_or hm

theorem Held.removeInterest (h : Held d s fd i m) :
    Held d (selectorRemoveInterest s fd a).1 fd (i &&& ~~~a) m := by
  refine h.updateItem (fun _ => ?_) (fun _ => ?_) (fun _ hi => ?_) (fun _ hm => ?_)
  · rfl
  · rfl
  · rw [hi]
  · exact hm

theorem Held.maskInterest (h : Held d s fd i m) :
    Held d (selectorMaskInterest s fd a).1 fd i (m &&& ~~~a) := by
  refine h.updateItem (fun _ => ?_) (fun _ => ?_) (fun _ hi => ?_) (fun _ hm => ?_)
  · rfl
  · rfl
  · exact hi
  · exact FdInterest.and_le_and hm

theorem Held.unmaskInterest (h : Held d s fd i m) :
    Held d (selectorUnmaskInterest s fd a).1 fd i (m ||| a) := by
  refine h.updateItem (fun _ => ?_) (fun _ => ?_) (fun _ hi => ?_) (fun _ hm => ?_)
  · rfl
  · rfl
  · exact hi
  · exact FdInterest.or_le_or hm

/-- Unmasking some descriptor never hurts. -/
theorem Held.unmask_any (h : Held d s fd i m) :
    Held d (selectorUnmaskInterest s fd' a).1 fd i m := by
  by_cases hfd : fd = fd'
  · subst hfd
    exact h.unmaskInterest.mono FdInterest.le_or
  · exact h.updateItem_ne hfd fun _ => rfl

theorem OnlyAt.subset {fds' : List ℤ} (h : OnlyAt d s fds) (hs : fds ⊆ fds') : OnlyAt d s fds' :=
  fun fd it hit hd => hs (h fd it hit hd)

theorem item?_updateItem_data (s : FdSelector δ) (fd fd' : ℤ) (hf : ∀ it, (f it).fd = it.fd)
    (hd : ∀ it, (f it).data = it.data) :
    (item? (updateItem s fd f).1 fd').map Item.data = (item? s fd').map Item.data := by
  rw [item?_updateItem hf]
  split_ifs with h
  · subst h
    cases item? s fd' <;> simp [hd]
  · rfl

theorem OnlyAt.updateItem (h : OnlyAt d s fds) (hf : ∀ it, (f it).fd = it.fd)
    (hd : ∀ it, (f it).data = it.data) : OnlyAt d (updateItem s fd f).1 fds := by
  intro fd' it' hit' hd'
  have hmap := item?_updateItem_data s fd fd' hf hd
  rw [hit'] at hmap
  obtain ⟨it, hit, hdata⟩ := Option.map_eq_some_iff.mp hmap.symm
  exact h fd' it hit (hdata.trans hd')

theorem OnlyAt.unregister (h : OnlyAt d s fds) (fd : ℤ) :
    OnlyAt d (selectorUnregisterFd s fd).1 (fds.filter (· ≠ fd)) := by
  intro fd' it' hit' hd'
  rw [item?_unregister] at hit'
  split_ifs at hit' with hne
  exact List.mem_filter.mpr ⟨h fd' it' hit' hd', by simpa using hne⟩

theorem OnlyAt.register (h : OnlyAt d s fds) (fd : ℤ) (a : FdInterest) (alloc : Bool)
    (hcap : itemsMaxSize ≤ s.fdSize) :
    OnlyAt d (selectorRegister alloc s fd a d).1 (fd :: fds) := by
  intro fd' it' hit' hd'
  rcases register_cases fd alloc a d hcap with ⟨-, hs, -⟩ | ⟨-, -, -, -, hit⟩
  · rw [hs] at hit'
    exact List.mem_cons_of_mem _ (h fd' it' hit' hd')
  · rw [hit] at hit'
    split_ifs at hit' with hfd
    · exact hfd ▸ List.mem_cons_self
    · exact List.mem_cons_of_mem _ (h fd' it' hit' hd')

theorem Spares.updateItem (ho : OwnFd d s fd) (hf : ∀ it, (f it).fd = it.fd)
    (hd : ∀ it, (f it).data = it.data) : Spares d s (updateItem s fd f).1 := by
  refine ⟨?_, ?_⟩
  · intro fd' it hit hne
    have hfd : fd' ≠ fd := by
      rintro rfl
      exact hne (ho it hit)
    exact ⟨it, by rw [item?_updateItem hf, if_neg hfd, hit], rfl, rfl, FdInterest.le_refl _⟩
  · intro fd' it' hit' hne
    have hmap := item?_updateItem_data s fd fd' hf hd
    rw [hit'] at hmap
    exact Option.map_eq_some_iff.mp hmap.symm

theorem Spares.unmaskInterest : Spares d s (selectorUnmaskInterest s fd a).1 := by
  refine ⟨?_, ?_⟩
  · intro fd' it hit _
    rw [item?_unmaskInterest]
    split_ifs with hfd
    · subst hfd
      rw [hit]
      exact ⟨_, rfl, rfl, rfl, FdInterest.le_or⟩
    · exact ⟨it, hit, rfl, rfl, FdInterest.le_refl _⟩
  · intro fd' it' hit' _
    rw [item?_unmaskInterest] at hit'
    split_ifs at hit' with hfd
    · subst hfd
      obtain ⟨it, hit, rfl⟩ := Option.map_eq_some_iff.mp hit'
      exact ⟨it, hit, rfl⟩
    · exact ⟨it', hit', rfl⟩

theorem Spares.unregister (ho : OwnFd d s fd) : Spares d s (selectorUnregisterFd s fd).1 := by
  refine ⟨?_, ?_⟩
  · intro fd' it hit hne
    have hfd : fd' ≠ fd := by
      rintro rfl
      exact hne (ho it hit)
    exact ⟨it, by rw [item?_unregister, if_neg hfd, hit], rfl, rfl, FdInterest.le_refl _⟩
  · intro fd' it' hit' _
    rw [item?_unregister] at hit'
    split_ifs at hit'
    exact ⟨it', hit', rfl⟩

theorem Spares.register (alloc : Bool) (hcap : itemsMaxSize ≤ s.fdSize) :
    Spares d s (selectorRegister alloc s fd a d).1 := by
  rcases register_cases fd alloc a d hcap with ⟨-, hs, -⟩ | ⟨-, -, hnone, -, hit⟩
  · rw [hs]
    exact .refl
  · refine ⟨?_, ?_⟩
    · intro fd' it hit' _
      have hfd : fd' ≠ fd := by
        rintro rfl
        rw [hnone] at hit'
        cases hit'
      exact ⟨it, by rw [hit, if_neg hfd, hit'], rfl, rfl, FdInterest.le_refl _⟩
    · intro fd' it' hit' hne
      rw [hit] at hit'
      split_ifs at hit' with hfd
      · cases hit'
        exact absurd rfl hne
      · exact ⟨it', hit', rfl⟩

/-! ## What others notice -/

theorem Held.spares (h : Held d s fd i m) (hs : Spares d' s s') (hne : d ≠ d') :
    Held d s' fd i m := by
  obtain ⟨it, hit, hd, hi, hm⟩ := h
  obtain ⟨it', hit', hd', hi', hm'⟩ := hs.kept fd it hit (by rw [hd]; simpa using hne)
  exact ⟨it', hit', hd'.trans hd, hi'.trans hi, FdInterest.le_trans hm hm'⟩

theorem OnlyAt.spares (h : OnlyAt d s fds) (hs : Spares d' s s') (hne : d ≠ d') :
    OnlyAt d s' fds := by
  intro fd it' hit' hd'
  obtain ⟨it, hit, hd⟩ := hs.back fd it' hit' (by rw [hd']; simpa using hne)
  exact h fd it hit (hd.trans hd')

theorem OwnFd.spares (h : OwnFd d s fd) (hs : Spares d s s') : OwnFd d s' fd := by
  intro it' hit'
  by_contra hne
  obtain ⟨it, hit, hd⟩ := hs.back fd it' hit' hne
  exact hne (hd ▸ h it hit)

end Socks5d
