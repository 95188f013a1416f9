import Mathlib.Algebra.Group.Nat.Defs
import Mathlib.Data.List.Basic
import Mathlib.Data.Int.Notation
import Mathlib.Logic.Function.Basic

/-! # The multiplexer of `selector.c`

The table is indexed by descriptor; `δ` stands for the pair of handler and
attachment that a registration carries. -/

namespace Socks5d

inductive SelectorStatus
  | success | enomem | maxfd | iargs | fdinuse | io
deriving DecidableEq, Repr

/-- A word of `fd_interest` bits. -/
structure FdInterest where
  read : Bool
  write : Bool
deriving DecidableEq, Repr

namespace FdInterest

instance : OrOp FdInterest := ⟨fun a b => ⟨a.read || b.read, a.write || b.write⟩⟩
instance : AndOp FdInterest := ⟨fun a b => ⟨a.read && b.read, a.write && b.write⟩⟩
instance : Complement FdInterest := ⟨fun a => ⟨!a.read, !a.write⟩⟩

@[simp] theorem or_read (a b : FdInterest) : (a ||| b).read = (a.read || b.read) := rfl
@[simp] theorem or_write (a b : FdInterest) : (a ||| b).write = (a.write || b.write) := rfl
@[simp] theorem and_read (a b : FdInterest) : (a &&& b).read = (a.read && b.read) := rfl
@[simp] theorem and_write (a b : FdInterest) : (a &&& b).write = (a.write && b.write) := rfl
@[simp] theorem compl_read (a : FdInterest) : (~~~a).read = !a.read := rfl
@[simp] theorem compl_write (a : FdInterest) : (~~~a).write = !a.write := rfl

end FdInterest

def opNoop : FdInterest := ⟨false, false⟩
def opRead : FdInterest := ⟨true, false⟩
def opWrite : FdInterest := ⟨false, true⟩

@[simp] theorem opNoop_read : opNoop.read = false := rfl
@[simp] theorem opNoop_write : opNoop.write = false := rfl
@[simp] theorem opRead_read : opRead.read = true := rfl
@[simp] theorem opRead_write : opRead.write = false := rfl
@[simp] theorem opWrite_read : opWrite.read = false := rfl
@[simp] theorem opWrite_write : opWrite.write = true := rfl

def fdUnused : ℤ := -1

structure Item (δ : Type) where
  fd : ℤ
  interest : FdInterest
  interestMask : FdInterest
  data : Option δ

def itemUsed {δ : Type} (item : Item δ) : Bool := item.fd ≠ fdUnused

/-- A cleared item after `item_init`. -/
def itemInit {δ : Type} : Item δ := ⟨fdUnused, opNoop, opNoop, none⟩

abbrev FdSet := ℕ → Bool

structure FdSelector (δ : Type) where
  fds : ℕ → Item δ
  fdSize : ℕ
  maxFd : ℤ
  masterR : FdSet
  masterW : FdSet

/-- `FD_SETSIZE`. -/
def itemsMaxSize : ℕ := 1024

def invalidFd (fd : ℤ) : Bool := fd < 0 || itemsMaxSize ≤ fd

variable {δ : Type}

/-- The loop that counts the bits of a number, for at most the bits of a word. -/
def countBits : ℕ → ℕ → ℕ
  | 0, _ => 0
  | k + 1, tmp => if tmp = 0 then 0 else countBits k (tmp >>> 1) + 1

def nextCapacity (n : ℕ) : ℕ := min (2 ^ countBits 64 n) itemsMaxSize + 1

def itemsInit (s : FdSelector δ) (last : ℕ) : FdSelector δ :=
  { s with fds := fun i => if last ≤ i ∧ i < s.fdSize then itemInit else s.fds i }

def itemsMaxFd (s : FdSelector δ) : ℤ :=
  (List.range (s.maxFd.toNat + 1)).foldl
    (fun max i => if itemUsed (s.fds i) && max < (s.fds i).fd then (s.fds i).fd else max) 0

def itemsUpdateFdsetForFd (s : FdSelector δ) (item : Item δ) : FdSelector δ :=
  let ready := item.interest &&& item.interestMask
  { s with
    masterR := Function.update s.masterR item.fd.toNat (itemUsed item && ready.read)
    masterW := Function.update s.masterW item.fd.toNat (itemUsed item && ready.write) }

/-- `alloc` tells whether `calloc` or `realloc` succeeds. The table is `NULL`
exactly while `fdSize` is zero, so both allocating branches are one. -/
def ensureCapacity (alloc : Bool) (s : FdSelector δ) (n : ℕ) : FdSelector δ × SelectorStatus :=
  if n < s.fdSize then (s, .success)
  else if itemsMaxSize < n then (s, .maxfd)
  else if !alloc then (s, .enomem)
  else (itemsInit { s with fdSize := nextCapacity n } s.fdSize, .success)

def selectorNew (alloc : Bool) (initialElements : ℕ) : Option (FdSelector δ) :=
  let empty : FdSelector δ := ⟨fun _ => itemInit, 0, 0, fun _ => false, fun _ => false⟩
  let r := ensureCapacity alloc empty initialElements
  if r.2 = .success then some r.1 else none

def selectorRegister (alloc : Bool) (s : FdSelector δ) (fd : ℤ) (interest : FdInterest)
    (data : δ) : FdSelector δ × SelectorStatus :=
  if invalidFd fd then (s, .iargs)
  else
    let r := if s.fdSize < fd.toNat then ensureCapacity alloc s fd.toNat else (s, .success)
    if r.2 ≠ .success then r
    else
      let s := r.1
      if itemUsed (s.fds fd.toNat) then (s, .fdinuse)
      else
        let item : Item δ := ⟨fd, interest, ⟨true, true⟩, some data⟩
        let s := { s with
          fds := Function.update s.fds fd.toNat item
          maxFd := if s.maxFd < fd then fd else s.maxFd }
        (itemsUpdateFdsetForFd s item, .success)

/-- `handle_close` of the registration is run by the caller: it does not touch
the selector. -/
def selectorUnregisterFd (s : FdSelector δ) (fd : ℤ) : FdSelector δ × SelectorStatus :=
  if invalidFd fd then (s, .iargs)
  else
    let item := s.fds fd.toNat
    if !itemUsed item then (s, .iargs)
    else
      let s := itemsUpdateFdsetForFd s { item with interest := opNoop }
      let s := { s with fds := Function.update s.fds fd.toNat itemInit }
      ({ s with maxFd := itemsMaxFd s }, .success)

/-- The common shape of the five interest operations. -/
def updateItem (s : FdSelector δ) (fd : ℤ) (f : Item δ → Item δ) :
    FdSelector δ × SelectorStatus :=
  if invalidFd fd then (s, .iargs)
  else
    let item := s.fds fd.toNat
    if !itemUsed item then (s, .iargs)
    else
      let s := { s with fds := Function.update s.fds fd.toNat (f item) }
      (itemsUpdateFdsetForFd s (f item), .success)

def selectorSetInterest (s : FdSelector δ) (fd : ℤ) (i : FdInterest) :=
  updateItem s fd fun item => { item with interest := i }

def selectorAddInterest (s : FdSelector δ) (fd : ℤ) (i : FdInterest) :=
  updateItem s fd fun item =>
    { item with interest := item.interest ||| i, interestMask := item.interestMask ||| i }

def selectorUnmaskInterest (s : FdSelector δ) (fd : ℤ) (i : FdInterest) :=
  updateItem s fd fun item => { item with interestMask := item.interestMask ||| i }

def selectorRemoveInterest (s : FdSelector δ) (fd : ℤ) (i : FdInterest) :=
  updateItem s fd fun item => { item with interest := item.interest &&& ~~~i }

def selectorMaskInterest (s : FdSelector δ) (fd : ℤ) (i : FdInterest) :=
  updateItem s fd fun item => { item with interestMask := item.interestMask &&& ~~~i }

/-! ## Registrations

`item?` is the registration of a descriptor, if it has one; what an operation
does is stated through it. -/

def item? (s : FdSelector δ) (fd : ℤ) : Option (Item δ) :=
  if invalidFd fd then none
  else if itemUsed (s.fds fd.toNat) then some (s.fds fd.toNat) else none

variable {s : FdSelector δ} {fd fd' : ℤ} {f : Item δ → Item δ}

theorem invalidFd_eq_false : invalidFd fd = false ↔ 0 ≤ fd ∧ fd < 1024 := by
  simp only [invalidFd, Bool.or_eq_false_iff, decide_eq_false_iff_not]
  unfold itemsMaxSize
  omega

theorem item?_eq_none_of_invalid (h : invalidFd fd = true) : item? s fd = none := by
  simp [item?, h]

theorem valid_of_item? {it : Item δ} (h : item? s fd = some it) : invalidFd fd = false := by
  by_contra hc
  rw [item?_eq_none_of_invalid (by simpa using hc)] at h
  cases h

/-- Distinct valid descriptors have distinct table entries. -/
theorem toNat_ne (h : invalidFd fd = false) (h' : invalidFd fd' = false) (hne : fd' ≠ fd) :
    fd'.toNat ≠ fd.toNat := by
  rw [invalidFd_eq_false] at h h'
  omega

@[simp] theorem item?_itemsUpdate (item : Item δ) :
    item? (itemsUpdateFdsetForFd s item) fd = item? s fd := rfl

/-- Changing the table entry of one descriptor changes no other registration. -/
theorem item?_update_ne (it : Item δ) (h : invalidFd fd = false) (hne : fd' ≠ fd)
    {s' : FdSelector δ}
    (hs : s'.fds = Function.update s.fds fd.toNat it) : item? s' fd' = item? s fd' := by
  by_cases h' : invalidFd fd' = false
  · simp [item?, h', hs, Function.update_of_ne (toNat_ne h h' hne)]
  · rw [item?_eq_none_of_invalid (by simpa using h'), item?_eq_none_of_invalid (by simpa using h')]

/-- What an interest operation can do: without a registration it is refused, else it
replaces the entry of the descriptor. -/
theorem updateItem_cases (s : FdSelector δ) (fd : ℤ) (f : Item δ → Item δ) :
    (item? s fd = none ∧ updateItem s fd f = (s, .iargs)) ∨
    (invalidFd fd = false ∧ itemUsed (s.fds fd.toNat) = true ∧ updateItem s fd f =
      (itemsUpdateFdsetForFd { s with fds := Function.update s.fds fd.toNat (f (s.fds fd.toNat)) }
        (f (s.fds fd.toNat)), .success)) := by
  unfold updateItem
  by_cases hv : invalidFd fd = true
  · exact .inl ⟨item?_eq_none_of_invalid hv, if_pos hv⟩
  rw [if_neg hv]
  dsimp only
  by_cases hu : itemUsed (s.fds fd.toNat) = true
  · rw [if_neg (by simp [hu])]
    exact .inr ⟨by simpa using hv, hu, rfl⟩
  · rw [if_pos (by simpa using hu)]
    exact .inl ⟨by simp [item?, hu], rfl⟩

/-- The table without the entry of `fd`, before the largest descriptor is found again. -/
def dropItem (s : FdSelector δ) (fd : ℤ) : FdSelector δ :=
  { itemsUpdateFdsetForFd s { s.fds fd.toNat with interest := opNoop } with
    fds := Function.update s.fds fd.toNat itemInit }

theorem unregister_cases (s : FdSelector δ) (fd : ℤ) :
    (item? s fd = none ∧ selectorUnregisterFd s fd = (s, .iargs)) ∨
    (invalidFd fd = false ∧ itemUsed (s.fds fd.toNat) = true ∧ selectorUnregisterFd s fd =
      ({ dropItem s fd with maxFd := itemsMaxFd (dropItem s fd) }, .success)) := by
  unfold selectorUnregisterFd
  by_cases hv : invalidFd fd = true
  · exact .inl ⟨item?_eq_none_of_invalid hv, if_pos hv⟩
  rw [if_neg hv]
  dsimp only
  by_cases hu : itemUsed (s.fds fd.toNat) = true
  · rw [if_neg (by simp [hu])]
    exact .inr ⟨by simpa using hv, hu, rfl⟩
  · rw [if_pos (by simpa using hu)]
    exact .inl ⟨by simp [item?, hu], rfl⟩

theorem item?_updateItem (hf : ∀ it, (f it).fd = it.fd) :
    item? (updateItem s fd f).1 fd' = if fd' = fd then (item? s fd).map f else item? s fd' := by
  rcases updateItem_cases s fd f with ⟨hnone, heq⟩ | ⟨hv, hu, heq⟩
  · rw [heq, hnone]
    split_ifs with h
    · rw [h, hnone]
      rfl
    · rfl
  · rw [heq]
    split_ifs with h
    · subst h
      have hu' : itemUsed (f (s.fds fd'.toNat)) = true := by simpa [itemUsed, hf] using hu
      simp [item?, hv, hu, hu', itemsUpdateFdsetForFd]
    · exact item?_update_ne _ hv h rfl

@[simp] theorem item?_setInterest (i : FdInterest) :
    item? (selectorSetInterest s fd i).1 fd' =
      if fd' = fd then (item? s fd).map fun item => { item with interest := i }
      else item? s fd' := item?_updateItem fun _ => rfl

@[simp] theorem item?_addInterest (i : FdInterest) :
    item? (selectorAddInterest s fd i).1 fd' =
      if fd' = fd then (item? s fd).map fun item =>
        { item with interest := item.interest ||| i, interestMask := item.interestMask ||| i }
      else item? s fd' := item?_updateItem fun _ => rfl

@[simp] theorem item?_unmaskInterest (i : FdInterest) :
    item? (selectorUnmaskInterest s fd i).1 fd' =
      if fd' = fd then (item? s fd).map fun item =>
        { item with interestMask := item.interestMask ||| i }
      else item? s fd' := item?_updateItem fun _ => rfl

@[simp] theorem item?_removeInterest (i : FdInterest) :
    item? (selectorRemoveInterest s fd i).1 fd' =
      if fd' = fd then (item? s fd).map fun item =>
        { item with interest := item.interest &&& ~~~i }
      else item? s fd' := item?_updateItem fun _ => rfl

@[simp] theorem item?_maskInterest (i : FdInterest) :
    item? (selectorMaskInterest s fd i).1 fd' =
      if fd' = fd then (item? s fd).map fun item =>
        { item with interestMask := item.interestMask &&& ~~~i }
      else item? s fd' := item?_updateItem fun _ => rfl

@[simp] theorem item?_unregister :
    item? (selectorUnregisterFd s fd).1 fd' = if fd' = fd then none else item? s fd' := by
  rcases unregister_cases s fd with ⟨hnone, heq⟩ | ⟨hv, -, heq⟩
  · rw [heq]
    split_ifs with h
    · rw [h, hnone]
    · rfl
  · rw [heq]
    split_ifs with h
    · subst h
      simp [item?, dropItem, hv, itemInit, itemUsed]
    · exact item?_update_ne itemInit hv h rfl

/-! ## Registering in a table that need not grow -/

@[simp] theorem updateItem_fdSize : (updateItem s fd f).1.fdSize = s.fdSize := by
  rcases updateItem_cases s fd f with ⟨-, heq⟩ | ⟨-, -, heq⟩
  · rw [heq]
  · rw [heq]
    rfl

@[simp] theorem unregister_fdSize : (selectorUnregisterFd s fd).1.fdSize = s.fdSize := by
  rcases unregister_cases s fd with ⟨-, heq⟩ | ⟨-, -, heq⟩
  · rw [heq]
  · rw [heq]
    rfl

/-- The registration `selector_register` makes. -/
def newItem (fd : ℤ) (interest : FdInterest) (data : δ) : Item δ :=
  ⟨fd, interest, ⟨true, true⟩, some data⟩

theorem register_cases (fd : ℤ) (alloc : Bool) (interest : FdInterest) (data : δ)
    (hcap : itemsMaxSize ≤ s.fdSize) :
    let r := selectorRegister alloc s fd interest data
    (r.2 ≠ .success ∧ r.1 = s ∧ (invalidFd fd = true ∨ item? s fd ≠ none)) ∨
    (r.2 = .success ∧ invalidFd fd = false ∧ item? s fd = none ∧ r.1.fdSize = s.fdSize ∧
      ∀ fd', item? r.1 fd' =
        if fd' = fd then some (newItem fd interest data) else item? s fd') := by
  intro r
  by_cases hv : invalidFd fd = false
  swap
  · have hr : r = (s, .iargs) := by simp [r, selectorRegister, hv]
    exact .inl ⟨by simp [hr], by simp [hr], .inl (by simpa using hv)⟩
  have hlt : ¬ s.fdSize < fd.toNat := by
    rw [invalidFd_eq_false] at hv
    unfold itemsMaxSize at hcap
    omega
  by_cases hu : itemUsed (s.fds fd.toNat) = true
  · have hr : r = (s, .fdinuse) := by simp [r, selectorRegister, hv, hlt, hu]
    exact .inl ⟨by simp [hr], by simp [hr], .inr (by simp [item?, hv, hu])⟩
  · have hu' : itemUsed (s.fds fd.toNat) = false := by simpa using hu
    have hi : item? s fd = none := by simp [item?, hv, hu']
    have hr : r = selectorRegister alloc s fd interest data := rfl
    simp only [selectorRegister, hv, hlt, hu', Bool.false_eq_true, ↓reduceIte, ne_eq,
      not_true_eq_false] at hr
    refine .inr ⟨by rw [hr], hv, hi, by rw [hr]; rfl, ?_⟩
    intro fd'
    rw [hr]
    by_cases h : fd' = fd
    · subst h
      have hn : fd' ≠ -1 := by rw [invalidFd_eq_false] at hv; omega
      simp [item?, itemsUpdateFdsetForFd, hv, itemUsed, fdUnused, newItem, hn]
    · rw [if_neg h]
      exact item?_update_ne _ hv h rfl

/-! ## The table and the sets of `pselect` agree -/

structure SelectorInv (s : FdSelector δ) : Prop where
  fd_eq : ∀ i, itemUsed (s.fds i) = true → i < itemsMaxSize ∧ (s.fds i).fd = i
  idle : ∀ i, itemUsed (s.fds i) = false → (s.fds i).interest = opNoop
  masterR_eq : ∀ i, s.masterR i =
    (itemUsed (s.fds i) && ((s.fds i).interest &&& (s.fds i).interestMask).read)
  masterW_eq : ∀ i, s.masterW i =
    (itemUsed (s.fds i) && ((s.fds i).interest &&& (s.fds i).interestMask).write)

/-- Replacing one entry and refreshing its bits keeps the agreement. -/
theorem SelectorInv.replace (h : SelectorInv s) (hv : invalidFd fd = false) (it : Item δ)
    (hit : it.fd = fd) (s' : FdSelector δ)
    (hs' : s' = { s with fds := Function.update s.fds fd.toNat it, maxFd := s'.maxFd }) :
    SelectorInv (itemsUpdateFdsetForFd s' it) := by
  rw [invalidFd_eq_false] at hv
  have hnat : ((fd.toNat : ℕ) : ℤ) = fd := Int.toNat_of_nonneg hv.1
  have hu : itemUsed it = true := by
    have hn : fd ≠ -1 := by omega
    simp [itemUsed, fdUnused, hit, hn]
  rw [hs']
  refine ⟨?_, ?_, ?_, ?_⟩
  · intro i
    by_cases hi : i = fd.toNat
    · subst hi
      intro _
      simp only [itemsUpdateFdsetForFd, Function.update_self, hit, hnat, and_true]
      unfold itemsMaxSize
      omega
    · simpa [itemsUpdateFdsetForFd, Function.update_of_ne hi] using h.fd_eq i
  · intro i
    by_cases hi : i = fd.toNat
    · subst hi
      simp [itemsUpdateFdsetForFd, hu]
    · simpa [itemsUpdateFdsetForFd, Function.update_of_ne hi] using h.idle i
  · intro i
    by_cases hi : i = fd.toNat
    · subst hi
      simp [itemsUpdateFdsetForFd, hit]
    · simpa [itemsUpdateFdsetForFd, hit, Function.update_of_ne hi] using h.masterR_eq i
  · intro i
    by_cases hi : i = fd.toNat
    · subst hi
      simp [itemsUpdateFdsetForFd, hit]
    · simpa [itemsUpdateFdsetForFd, hit, Function.update_of_ne hi] using h.masterW_eq i

/-- The entry of a registered descriptor knows its number. -/
theorem SelectorInv.fd_toNat (h : SelectorInv s) (hv : invalidFd fd = false)
    (hu : itemUsed (s.fds fd.toNat) = true) : (s.fds fd.toNat).fd = fd := by
  rw [(h.fd_eq fd.toNat hu).2]
  exact Int.toNat_of_nonneg (invalidFd_eq_false.mp hv).1

theorem SelectorInv.updateItem (h : SelectorInv s) (hf : ∀ it, (f it).fd = it.fd) :
    SelectorInv (updateItem s fd f).1 := by
  rcases updateItem_cases s fd f with ⟨-, heq⟩ | ⟨hv, hu, heq⟩
  · rw [heq]
    exact h
  · rw [heq]
    exact h.replace hv _ ((hf _).trans (h.fd_toNat hv hu)) _ rfl

theorem SelectorInv.unregister (h : SelectorInv s) : SelectorInv (selectorUnregisterFd s fd).1 := by
  rcases unregister_cases s fd with ⟨-, heq⟩ | ⟨hv, hu, heq⟩
  · rw [heq]
    exact h
  rw [heq]
  have hfd := h.fd_toNat hv hu
  have hn : itemUsed (itemInit : Item δ) = false := by simp [itemInit, itemUsed]
  refine ⟨?_, ?_, ?_, ?_⟩
  · intro i
    by_cases hi : i = fd.toNat
    · subst hi
      simp [dropItem, itemsUpdateFdsetForFd, hn]
    · simpa [dropItem, itemsUpdateFdsetForFd, Function.update_of_ne hi] using h.fd_eq i
  · intro i
    by_cases hi : i = fd.toNat
    · subst hi
      simp [dropItem, itemsUpdateFdsetForFd, itemInit]
    · simpa [dropItem, itemsUpdateFdsetForFd, Function.update_of_ne hi] using h.idle i
  · intro i
    by_cases hi : i = fd.toNat
    · subst hi
      simp [dropItem, itemsUpdateFdsetForFd, hfd, hn]
    · simpa [dropItem, itemsUpdateFdsetForFd, hfd, Function.update_of_ne hi] using h.masterR_eq i
  · intro i
    by_cases hi : i = fd.toNat
    · subst hi
      simp [dropItem, itemsUpdateFdsetForFd, hfd, hn]
    · simpa [dropItem, itemsUpdateFdsetForFd, hfd, Function.update_of_ne hi] using h.masterW_eq i

theorem SelectorInv.register (h : SelectorInv s) (alloc : Bool) (interest : FdInterest) (data : δ)
    (hcap : itemsMaxSize ≤ s.fdSize) :
    SelectorInv (selectorRegister alloc s fd interest data).1 := by
  unfold selectorRegister
  by_cases hv : invalidFd fd = true
  · simpa only [hv, ↓reduceIte] using h
  have hv' : invalidFd fd = false := by simpa using hv
  have hlt : ¬ s.fdSize < fd.toNat := by
    rw [invalidFd_eq_false] at hv'
    unfold itemsMaxSize at hcap
    omega
  simp only [hv', Bool.false_eq_true, if_neg hlt, ne_eq, not_true_eq_false, ↓reduceIte]
  by_cases hu : itemUsed (s.fds fd.toNat) = true
  · simpa only [hu, ↓reduceIte] using h
  · simp only [hu, Bool.false_eq_true, ↓reduceIte]
    exact h.replace hv' _ rfl _ rfl

/-- Readiness of a descriptor is asked for exactly when it is registered with the
bit in its interest and in its mask. -/
theorem SelectorInv.masterR_iff (h : SelectorInv s) (hv : invalidFd fd = false) :
    s.masterR fd.toNat = true ↔
      ∃ it, item? s fd = some it ∧ it.interest.read = true ∧ it.interestMask.read = true := by
  rw [h.masterR_eq]
  by_cases hu : itemUsed (s.fds fd.toNat) = true <;> simp [item?, hv, hu]

theorem SelectorInv.masterW_iff (h : SelectorInv s) (hv : invalidFd fd = false) :
    s.masterW fd.toNat = true ↔
      ∃ it, item? s fd = some it ∧ it.interest.write = true ∧ it.interestMask.write = true := by
  rw [h.masterW_eq]
  by_cases hu : itemUsed (s.fds fd.toNat) = true <;> simp [item?, hv, hu]

/-- A table entry in use is the registration of its number. -/
theorem SelectorInv.item?_of_used (h : SelectorInv s) {i : ℕ} (hu : itemUsed (s.fds i) = true) :
    item? s (s.fds i).fd = some (s.fds i) ∧ (s.fds i).fd = i := by
  obtain ⟨hlt, hfd⟩ := h.fd_eq i hu
  refine ⟨?_, hfd⟩
  have hv : invalidFd (i : ℤ) = false := by
    rw [invalidFd_eq_false]
    unfold itemsMaxSize at hlt
    omega
  rw [hfd]
  simp [item?, hv, hu]

end Socks5d
