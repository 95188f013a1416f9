import Socks5d.SelectorBounds

/-! # Growing the table of the multiplexer

`ensure_capacity` once more, with the block that `fds` points to: `none` is a shift by the width of
a word, an assertion that fails, an access outside of the block or a loop that goes on for too
long. What the allocator does is a parameter. -/

namespace Socks5d

/-- `fds` and `fd_size` of `struct fdselector`. -/
structure ItemTable (δ : Type) where
  fdSize : UInt64
  /-- The block, which has as many items; `none` is the null pointer. -/
  fds : Option (Vector (Item δ) fdSize.toNat)
  null : fds = none → fdSize = 0

variable {δ : Type} {m k : ℕ}

/-- Memory that `calloc` has cleared. -/
def zeroItem : Item δ := ⟨0, opNoop, opNoop, none⟩

/-- `sizeof(struct item)`. -/
def elementSize : ℕ := 32

def sizeMax : ℕ := 2 ^ 64 - 1

namespace ItemTable

def item (t : ItemTable δ) (i : ℕ) : Option (Item δ) := t.fds.bind fun fds => fds[i]?

/-- The loop of `next_capacity`, for at most `k` turns. -/
def countBits : ℕ → UInt64 → Option ℕ
  | 0, tmp => if tmp = 0 then some 0 else none
  | k + 1, tmp => if tmp = 0 then some 0 else (countBits k (tmp >>> 1)).map (· + 1)

/-- `1UL << bits`. -/
def shiftOne (bits : ℕ) : Option UInt64 :=
  if bits < 64 then some (1 <<< UInt64.ofNat bits) else none

def nextCapacity (n : UInt64) : Option UInt64 :=
  (countBits 64 n).bind fun bits =>
    (shiftOne bits).bind fun tmp =>
      if n ≤ tmp then
        let tmp := if itemsMaxSize < tmp.toNat then UInt64.ofNat itemsMaxSize else tmp
        some (tmp + 1)
      else none

/-- `k` turns of the loop of `items_init`, from `i` on. -/
def initFrom : ℕ → ℕ → Vector (Item δ) m → Option (Vector (Item δ) m)
  | 0, _, fds => some fds
  | k + 1, i, fds =>
    if h : i < m then initFrom k (i + 1) (fds.set i { fds[i] with fd := fdUnused } h) else none

def itemsInit (fds : Vector (Item δ) m) (last : ℕ) : Option (Vector (Item δ) m) :=
  if last ≤ m then initFrom (m - last) last fds else none

/-- `junk` is what the memory behind the old block happens to hold. -/
def realloc (junk : ℕ → Item δ) (fds : Vector (Item δ) k) (newSize : ℕ) :
    Vector (Item δ) newSize :=
  Vector.ofFn fun i => if h : i.val < k then fds[i.val] else junk i

/-- `alloc` is `none` when `calloc` and `realloc` fail. -/
def ensureCapacity (alloc : Option (ℕ → Item δ)) (t : ItemTable δ) (n : UInt64) :
    Option (ItemTable δ × SelectorStatus) :=
  if n < t.fdSize then some (t, .success)
  else if itemsMaxSize < n.toNat then some (t, .maxfd)
  else
    (nextCapacity n).bind fun newSize =>
      match t.fds, alloc with
      | none, none => some (t, .enomem)
      | none, some _ =>
        (itemsInit (.replicate newSize.toNat zeroItem) 0).map fun fds =>
          (⟨newSize, some fds, nofun⟩, .success)
      | some fds, alloc =>
        if sizeMax / elementSize < newSize.toNat then some (t, .enomem)
        else
          match alloc with
          | none => some (t, .enomem)
          | some junk =>
            (itemsInit (realloc junk fds newSize.toNat) t.fdSize.toNat).map fun fds =>
              (⟨newSize, some fds, nofun⟩, .success)

end ItemTable

/-! ## The new size -/

theorem ItemTable.countBits_eq {tmp : UInt64} (h : tmp.toNat < 2 ^ k) :
    ItemTable.countBits k tmp = some (Socks5d.countBits k tmp.toNat) := by
  have hzero : ∀ x : UInt64, x = 0 ↔ x.toNat = 0 := fun x => UInt64.toNat_inj.symm
  induction k generalizing tmp with
  | zero =>
    rw [ItemTable.countBits, if_pos ((hzero tmp).mpr (by omega))]
    rfl
  | succ k ih =>
    have hhalf : (tmp >>> 1).toNat = tmp.toNat >>> 1 := UInt64.toNat_shiftRight tmp 1
    rw [ItemTable.countBits, Socks5d.countBits]
    by_cases h0 : tmp.toNat = 0
    · rw [if_pos ((hzero tmp).mpr h0), if_pos h0]
    · have hlt : (tmp >>> 1).toNat < 2 ^ k := by
        rw [hhalf, Nat.shiftRight_eq_div_pow]
        omega
      rw [if_neg (mt (hzero tmp).mp h0), if_neg h0, ih hlt, hhalf, Option.map_some]

/-- No more bits are counted than a number has. -/
theorem countBits_le {j n : ℕ} (h : n < 2 ^ j) : countBits k n ≤ j := by
  induction k generalizing n j with
  | zero => exact Nat.zero_le j
  | succ k ih =>
    rw [countBits]
    split_ifs with h0
    · exact Nat.zero_le j
    cases j with
    | zero => omega
    | succ j =>
      apply Nat.succ_le_succ
      apply ih
      rw [Nat.shiftRight_eq_div_pow]
      omega

theorem ItemTable.shiftOne_eq {bits : ℕ} (h : bits < 64) :
    ∃ tmp, ItemTable.shiftOne bits = some tmp ∧ tmp.toNat = 2 ^ bits := by
  have hpow : 2 ^ bits < 2 ^ 64 := Nat.pow_lt_pow_right (by decide) h
  have hbits : (UInt64.ofNat bits).toNat % 64 = bits := by
    rw [UInt64.toNat_ofNat']
    omega
  refine ⟨_, if_pos h, ?_⟩
  rw [UInt64.toNat_shiftLeft, hbits, UInt64.toNat_one, Nat.one_shiftLeft, Nat.mod_eq_of_lt hpow]

/-- The assertion holds, and the cap is not below what was asked for. -/
theorem ItemTable.nextCapacity_eq {n : UInt64} (h : n.toNat ≤ itemsMaxSize) :
    ∃ size, ItemTable.nextCapacity n = some size ∧ size.toNat = Socks5d.nextCapacity n.toNat := by
  have hmax : itemsMaxSize = 1024 := rfl
  have hlt : n.toNat < 2 ^ 64 := n.toNat_lt
  have hbits : Socks5d.countBits 64 n.toNat ≤ 11 := countBits_le (by omega)
  have hwidth : Socks5d.countBits 64 n.toNat < 64 := by omega
  obtain ⟨tmp, htmp, hpow⟩ := ItemTable.shiftOne_eq hwidth
  have hassert : n ≤ tmp := by
    rw [UInt64.le_iff_toNat_le, hpow]
    exact Nat.le_of_lt (lt_two_pow_countBits hlt)
  unfold ItemTable.nextCapacity Socks5d.nextCapacity
  rw [ItemTable.countBits_eq hlt, Option.bind_some, htmp, Option.bind_some, if_pos hassert]
  refine ⟨_, rfl, ?_⟩
  have hle : 2 ^ Socks5d.countBits 64 n.toNat ≤ 2 ^ 11 := Nat.pow_le_pow_right (by decide) hbits
  rw [UInt64.toNat_add, UInt64.toNat_one, ← hpow]
  split_ifs with hcap
  · rw [UInt64.toNat_ofNat', Nat.min_eq_right (Nat.le_of_lt hcap), hmax]
  · rw [Nat.min_eq_left (Nat.le_of_not_lt hcap)]
    omega

/-! ## The new items -/

theorem ItemTable.initFrom_eq {i : ℕ} (fds : Vector (Item δ) m) (h : i + k ≤ m) :
    ∃ fds', ItemTable.initFrom k i fds = some fds' ∧ ∀ j (hj : j < m), fds'[j] =
      if i ≤ j ∧ j < i + k then { fds[j] with fd := fdUnused } else fds[j] := by
  induction k generalizing i fds with
  | zero =>
    refine ⟨fds, rfl, fun j hj => ?_⟩
    rw [if_neg (by omega)]
  | succ k ih =>
    have hi : i < m := by omega
    have hrest : i + 1 + k ≤ m := by omega
    obtain ⟨fds', hfds', hitems⟩ := ih (fds.set i { fds[i] with fd := fdUnused } hi) hrest
    rw [ItemTable.initFrom, dif_pos hi]
    refine ⟨fds', hfds', fun j hj => ?_⟩
    rw [hitems j hj, Vector.getElem_set]
    by_cases heq : i = j
    · -- the item of this turn, which no later one touches
      subst heq
      rw [if_neg (by omega), if_pos rfl, if_pos (by omega)]
    · rw [if_neg heq]
      split_ifs <;> first | rfl | omega

theorem ItemTable.itemsInit_eq {last : ℕ} (fds : Vector (Item δ) m) (h : last ≤ m) :
    ∃ fds', ItemTable.itemsInit fds last = some fds' ∧ ∀ j (hj : j < m), fds'[j] =
      if last ≤ j then { fds[j] with fd := fdUnused } else fds[j] := by
  obtain ⟨fds', hfds', hitems⟩ := ItemTable.initFrom_eq (k := m - last) (i := last) fds (by omega)
  refine ⟨fds', (if_pos h).trans hfds', fun j hj => ?_⟩
  have hcond : (last ≤ j ∧ j < last + (m - last)) = (last ≤ j) := propext (by omega)
  rw [hitems j hj]
  simp only [hcond]

/-! ## The table -/

variable {t t' : ItemTable δ} {n : UInt64}

theorem ItemTable.item_of_fds {fds : Vector (Item δ) t.fdSize.toNat} (h : t.fds = some fds) {i : ℕ}
    (hi : i < t.fdSize.toNat) : t.item i = some fds[i] := by
  rw [ItemTable.item, h, Option.bind_some, Vector.getElem?_eq_getElem hi]

/-- The table has room for `n`; what it had, it still has, and what is new is not used. -/
structure Grown (t t' : ItemTable δ) (n : UInt64) : Prop where
  above : n < t'.fdSize
  fdSize_le : t.fdSize ≤ t'.fdSize
  old : ∀ i < t.fdSize.toNat, t'.item i = t.item i
  fresh : ∀ i, t.fdSize.toNat ≤ i → i < t'.fdSize.toNat →
    ∃ item, t'.item i = some item ∧ itemUsed item = false

theorem Grown.of_lt (h : n < t.fdSize) : Grown t t n :=
  ⟨h, UInt64.le_refl _, fun _ _ => rfl, fun _ hle hlt => absurd hlt (Nat.not_lt.mpr hle)⟩

/-- The items of a block that begins with the old ones are initialised from its old size on. -/
theorem Grown.of_itemsInit {size : UInt64} (hsize : t.fdSize ≤ n) (hn : n < size)
    (block : Vector (Item δ) size.toNat)
    (hblock : ∀ i (hi : i < size.toNat), i < t.fdSize.toNat → t.item i = some block[i]) :
    ∃ fds, ItemTable.itemsInit block t.fdSize.toNat = some fds ∧
      Grown t ⟨size, some fds, nofun⟩ n := by
  rw [UInt64.le_iff_toNat_le] at hsize
  have hn' := UInt64.lt_iff_toNat_lt.mp hn
  have hlast : t.fdSize.toNat ≤ size.toNat := by omega
  obtain ⟨fds, hfds, hitems⟩ := ItemTable.itemsInit_eq block hlast
  have hitem : ∀ i (hi : i < size.toNat),
      ItemTable.item ⟨size, some fds, nofun⟩ i = some fds[i] := fun i hi =>
    ItemTable.item_of_fds rfl hi
  refine ⟨fds, hfds, hn, UInt64.le_iff_toNat_le.mpr (by dsimp only; omega), ?_, ?_⟩
  · intro i hi
    have hi' : i < size.toNat := by omega
    rw [hitem i hi', hitems i hi', if_neg (by omega)]
    exact (hblock i hi' hi).symm
  · intro i hle hi
    refine ⟨fds[i], hitem i hi, ?_⟩
    rw [hitems i hi, if_pos hle]
    rfl

/-- What `ensure_capacity` comes to, and when. -/
theorem ItemTable.ensureCapacity_cases (alloc : Option (ℕ → Item δ)) (t : ItemTable δ)
    (n : UInt64) :
    (n < t.fdSize ∧ ItemTable.ensureCapacity alloc t n = some (t, .success)) ∨
    (t.fdSize ≤ n ∧ itemsMaxSize < n.toNat ∧
      ItemTable.ensureCapacity alloc t n = some (t, .maxfd)) ∨
    (t.fdSize ≤ n ∧ n.toNat ≤ itemsMaxSize ∧ alloc.isSome = false ∧
      ItemTable.ensureCapacity alloc t n = some (t, .enomem)) ∨
    (t.fdSize ≤ n ∧ n.toNat ≤ itemsMaxSize ∧ alloc.isSome = true ∧
      ∃ t', ItemTable.ensureCapacity alloc t n = some (t', .success) ∧ Grown t t' n ∧
        t'.fdSize.toNat = Socks5d.nextCapacity n.toNat) := by
  unfold ItemTable.ensureCapacity
  by_cases hfits : n < t.fdSize
  · rw [if_pos hfits]
    exact .inl ⟨hfits, rfl⟩
  have hsize : t.fdSize ≤ n := UInt64.not_lt.mp hfits
  rw [if_neg hfits]
  by_cases hmax : itemsMaxSize < n.toNat
  · rw [if_pos hmax]
    exact .inr (.inl ⟨hsize, hmax, rfl⟩)
  have hle : n.toNat ≤ itemsMaxSize := Nat.le_of_not_lt hmax
  rw [if_neg hmax]
  obtain ⟨size, hcap, hnat⟩ := ItemTable.nextCapacity_eq hle
  have hn : n < size := by
    rw [UInt64.lt_iff_toNat_lt, hnat]
    exact lt_nextCapacity hle
  rw [hcap, Option.bind_some]
  cases hfds : t.fds with
  | none =>
    cases alloc with
    | none => exact .inr (.inr (.inl ⟨hsize, hle, rfl, rfl⟩))
    | some junk =>
      -- the null pointer has no items
      have hzero : t.fdSize.toNat = 0 := by rw [t.null hfds]; rfl
      obtain ⟨fds, hinit, hgrown⟩ := Grown.of_itemsInit hsize hn
        (.replicate size.toNat zeroItem) fun i _ hi => by omega
      rw [hzero] at hinit
      dsimp only
      rw [hinit]
      exact .inr (.inr (.inr ⟨hsize, hle, rfl, _, rfl, hgrown, hnat⟩))
  | some old =>
    have hsmall : ¬ sizeMax / elementSize < size.toNat := by
      rw [hnat]
      unfold Socks5d.nextCapacity itemsMaxSize sizeMax elementSize
      omega
    dsimp only
    rw [if_neg hsmall]
    cases alloc with
    | none => exact .inr (.inr (.inl ⟨hsize, hle, rfl, rfl⟩))
    | some junk =>
      obtain ⟨fds, hinit, hgrown⟩ := Grown.of_itemsInit hsize hn
        (ItemTable.realloc junk old size.toNat) fun i hi hlt => by
          rw [ItemTable.item_of_fds hfds hlt, ItemTable.realloc, Vector.getElem_ofFn, dif_pos hlt]
      dsimp only
      rw [hinit]
      exact .inr (.inr (.inr ⟨hsize, hle, rfl, _, rfl, hgrown, hnat⟩))

/-- The table of `selector_new`. -/
def ItemTable.empty : ItemTable δ := ⟨0, none, fun _ => rfl⟩

/-- The table of a selector: what an item that is not in use holds does not matter. -/
structure Tabulates (t : ItemTable δ) (s : FdSelector δ) : Prop where
  size : t.fdSize.toNat = s.fdSize
  used : ∀ i < s.fdSize, itemUsed (s.fds i) = true → t.item i = some (s.fds i)
  unused : ∀ i < s.fdSize, itemUsed (s.fds i) = false →
    ∃ item, t.item i = some item ∧ itemUsed item = false

theorem tabulates_empty {s : FdSelector δ} (h : s.fdSize = 0) : Tabulates ItemTable.empty s :=
  ⟨h.symm, fun i hi => by omega, fun i hi => by omega⟩

theorem Tabulates.grown {s : FdSelector δ} (h : Tabulates t s) (hgrown : Grown t t' n) :
    Tabulates t' (itemsInit { s with fdSize := t'.fdSize.toNat } s.fdSize) := by
  have hfds : ∀ i, (itemsInit { s with fdSize := t'.fdSize.toNat } s.fdSize).fds i =
      if s.fdSize ≤ i ∧ i < t'.fdSize.toNat then itemInit else s.fds i := fun _ => rfl
  have hold : ∀ i < s.fdSize, t'.item i = t.item i := by
    rw [← h.size]
    exact hgrown.old
  have hfresh := hgrown.fresh
  rw [h.size] at hfresh
  refine ⟨rfl, ?_, ?_⟩
  · intro i hi hused
    change i < t'.fdSize.toNat at hi
    rw [hfds] at hused ⊢
    split_ifs at hused ⊢ with hnew
    · cases hused
    · rw [hold i (by omega)]
      exact h.used i (by omega) hused
  · intro i hi hunused
    change i < t'.fdSize.toNat at hi
    rw [hfds] at hunused
    split_ifs at hunused with hnew
    · exact hfresh i hnew.1 hi
    · rw [hold i (by omega)]
      exact h.unused i (by omega) hunused

/-- The selector that the rest of the development has grows as its table does. -/
theorem Tabulates.ensureCapacity {s : FdSelector δ} (h : Tabulates t s)
    (alloc : Option (ℕ → Item δ)) (n : UInt64) :
    ∃ t', ItemTable.ensureCapacity alloc t n =
        some (t', (ensureCapacity alloc.isSome s n.toNat).2) ∧
      Tabulates t' (ensureCapacity alloc.isSome s n.toNat).1 := by
  have hlt : n < t.fdSize ↔ n.toNat < s.fdSize := by rw [UInt64.lt_iff_toNat_lt, h.size]
  have hle : t.fdSize ≤ n ↔ ¬ n.toNat < s.fdSize := by
    rw [UInt64.le_iff_toNat_le, h.size, Nat.not_lt]
  unfold Socks5d.ensureCapacity
  rcases ItemTable.ensureCapacity_cases alloc t n with ⟨hfits, heq⟩ | ⟨hsize, hmax, heq⟩ |
    ⟨hsize, hmax, hno, heq⟩ | ⟨hsize, hmax, hyes, t', heq, hgrown, hnat⟩
  · rw [if_pos (hlt.mp hfits)]
    exact ⟨t, heq, h⟩
  · rw [if_neg (hle.mp hsize), if_pos hmax]
    exact ⟨t, heq, h⟩
  · rw [if_neg (hle.mp hsize), if_neg (Nat.not_lt.mpr hmax), hno]
    exact ⟨t, heq, h⟩
  · rw [if_neg (hle.mp hsize), if_neg (Nat.not_lt.mpr hmax), hyes, ← hnat]
    exact ⟨t', heq, h.grown hgrown⟩

/-- So does that of `selector_new`, whose memory is cleared. -/
theorem selectorNew_tabulates {s : FdSelector δ} {alloc : Option (ℕ → Item δ)}
    (h : selectorNew alloc.isSome n.toNat = some s) :
    ∃ t, ItemTable.ensureCapacity alloc ItemTable.empty n = some (t, .success) ∧
      Tabulates t s := by
  unfold selectorNew at h
  dsimp only at h
  split_ifs at h with hok
  cases h
  have hempty : Tabulates ItemTable.empty
      (⟨fun _ => itemInit, 0, 0, fun _ => false, fun _ => false⟩ : FdSelector δ) :=
    tabulates_empty rfl
  obtain ⟨t, ht, htab⟩ := hempty.ensureCapacity alloc n
  rw [hok] at ht
  exact ⟨t, ht, htab⟩

/-- For every table, every `n` and whatever the allocator does: a call that succeeds has made room
and kept every item, one that fails has changed nothing, and it fails only for an `n` that is too
large or without memory. The new size is above `n` for every `n` it is asked for. -/
theorem ensure_capacity_keeps_the_items (alloc : Option (ℕ → Item δ)) (t : ItemTable δ)
    (n : UInt64) :
    (∃ t' status, ItemTable.ensureCapacity alloc t n = some (t', status) ∧
      (status = .success → Grown t t' n) ∧ (status ≠ .success → t' = t) ∧
      (status = .success ↔ n < t.fdSize ∨ n.toNat ≤ itemsMaxSize ∧ alloc.isSome = true)) ∧
    (t.fdSize ≤ n → n.toNat ≤ itemsMaxSize →
      ∃ size, ItemTable.nextCapacity n = some size ∧ n < size) := by
  refine ⟨?_, fun _ hle => ?_⟩
  · rcases ItemTable.ensureCapacity_cases alloc t n with ⟨hfits, heq⟩ | ⟨hsize, hmax, heq⟩ |
      ⟨hsize, hle, hno, heq⟩ | ⟨hsize, hle, hyes, t', heq, hgrown, -⟩
    · exact ⟨t, _, heq, fun _ => .of_lt hfits, fun _ => rfl, iff_of_true rfl (.inl hfits)⟩
    · refine ⟨t, _, heq, fun hf => by (cases hf), fun _ => rfl, iff_of_false (by simp) ?_⟩
      rintro (hfits | ⟨hle, -⟩)
      · exact UInt64.not_lt.mpr hsize hfits
      · omega
    · refine ⟨t, _, heq, fun hf => by (cases hf), fun _ => rfl, iff_of_false (by simp) ?_⟩
      rintro (hfits | ⟨-, hyes⟩)
      · exact UInt64.not_lt.mpr hsize hfits
      · rw [hno] at hyes
        cases hyes
    · exact ⟨t', _, heq, fun _ => hgrown, fun hne => absurd rfl hne,
        iff_of_true rfl (.inr ⟨hle, hyes⟩)⟩
  · obtain ⟨size, hcap, hnat⟩ := ItemTable.nextCapacity_eq hle
    refine ⟨size, hcap, ?_⟩
    rw [UInt64.lt_iff_toNat_lt, hnat]
    exact lt_nextCapacity hle

/-- The cap is reached from 512 on, and is no less than what is asked for at the limit itself. -/
example : ItemTable.nextCapacity 511 = some 513 ∧ ItemTable.nextCapacity 512 = some 1025 ∧
    ItemTable.nextCapacity 1024 = some 1025 := by
  decide

end Socks5d
