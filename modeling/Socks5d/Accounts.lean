import Mathlib.Data.List.Nodup
import Socks5d.Mgmt

/-! # The table of users in memory: `users.c`

The functions of `Users` work on a list of pairs of strings. Here they work, as in the
source, on an array of fields of fixed size that strings are copied to without a check. -/

namespace Socks5d
open Memory EventRun

/-! ## The functions on the array -/

/-- `strcpy` -/
def strcpy (m : ℕ → UInt8) (dst : ℕ) (s : List UInt8) : ℕ → UInt8 := store m dst (s ++ [0])

/-- Whether `strcmp` finds no difference between the string `s` and what lies at `p`. -/
def strcmpEq (m : ℕ → UInt8) (p : ℕ) (s : List UInt8) : Bool := slice m p (s.length + 1) = s ++ [0]

/-- `users` and `user_count`. Addresses count from the start of the array. -/
structure UserArray where
  users : ℕ → UInt8
  userCount : ℕ

/-- `sizeof(user)` -/
def userSize : ℕ := (maxUserLen + 1) + (maxPassLen + 1)

def usernameAt (i : ℕ) : ℕ := i * userSize

def passwordAt (i : ℕ) : ℕ := i * userSize + (maxUserLen + 1)

namespace UserArray

def empty : UserArray := ⟨fun _ => 0, 0⟩

def checkNewUser (username : List UInt8) (t : UserArray) : Bool :=
  (List.range t.userCount).all fun i => !strcmpEq t.users (usernameAt i) username

def addUser (t : UserArray) (userpass : List UInt8) : Bool × UserArray :=
  if colon ∉ userpass then (false, t)
  else
    let username := userpass.takeWhile (· ≠ colon)
    let password := (userpass.dropWhile (· ≠ colon)).tail
    if t.userCount = maxUsers || !checkValid username maxUserLen ||
        !checkValid password maxPassLen || !checkNewUser username t then (false, t)
    else
      let users := strcpy t.users (usernameAt t.userCount) username
      (true, ⟨strcpy users (passwordAt t.userCount) password, t.userCount + 1⟩)

def addUsers (t : UserArray) (userpasses : List (List UInt8)) : UserArray :=
  userpasses.foldl (fun t userpass => (t.addUser userpass).2) t

def tryCredentials (t : UserArray) (username password : List UInt8) : Bool :=
  (List.range t.userCount).any fun i =>
    strcmpEq t.users (usernameAt i) username && strcmpEq t.users (passwordAt i) password

/-- The strings in the fields of the users that were added. -/
def entries (t : UserArray) : UserTable := (List.range t.userCount).map fun i =>
  ⟨cString (slice t.users (usernameAt i) (maxUserLen + 1)),
    cString (slice t.users (passwordAt i) (maxPassLen + 1))⟩

end UserArray

/-! ## Strings in memory -/

section
variable {m : ℕ → UInt8} {p : ℕ} {s s' : List UInt8}

/-- The string `s` and its zero lie at `p`. -/
def HoldsString (m : ℕ → UInt8) (p : ℕ) (s : List UInt8) : Prop :=
  0 ∉ s ∧ slice m p (s.length + 1) = s ++ [0]

/-- A field that is long enough is read back as the string. -/
theorem HoldsString.field (h : HoldsString m p s) {size : ℕ} (hsize : s.length < size) :
    cString (slice m p size) = s := by
  obtain ⟨k, rfl⟩ : ∃ k, size = s.length + 1 + k := ⟨size - (s.length + 1), by omega⟩
  rw [slice_add, h.2, List.append_assoc]
  exact cString_zero h.1

theorem HoldsString.strcmpEq_iff (h : HoldsString m p s) (hs' : 0 ∉ s') :
    strcmpEq m p s' = true ↔ s = s' := by
  rw [strcmpEq, decide_eq_true_eq]
  constructor
  · intro heq
    have h' : HoldsString m p s' := ⟨hs', heq⟩
    let size := s.length + s'.length + 1
    rw [← h.field (show s.length < size by omega), h'.field (show s'.length < size by omega)]
  · rintro rfl
    exact h.2

theorem HoldsString.strcpy_self (hs : 0 ∉ s) : HoldsString (strcpy m p s) p s := by
  refine ⟨hs, ?_⟩
  have hself := slice_store_self (m := m) (i := p) (s ++ [0])
  rwa [List.length_append] at hself

theorem HoldsString.strcpy_above (h : HoldsString m p s) {dst : ℕ} (hdst : p + s.length < dst) :
    HoldsString (strcpy m dst s') p s := by
  refine ⟨h.1, ?_⟩
  rw [strcpy, slice_store_below _ (by omega)]
  exact h.2

theorem checkValid_nonzero {len : ℕ} (h : checkValid s len = true) : 0 ∉ s := by
  intro h0
  have hprint := ((checkValid_iff.mp h).2 0 h0).2
  revert hprint
  decide

end

/-! ## What the table keeps -/

structure WellKept (users : UserTable) : Prop where
  count : users.length ≤ maxUsers
  distinct : (users.map User.username).Nodup
  name : ∀ u ∈ users, checkValid u.username maxUserLen = true
  pass : ∀ u ∈ users, checkValid u.password maxPassLen = true

theorem WellKept.snoc {users : UserTable} {before after : List UInt8} (h : WellKept users)
    (hok : Acceptable users before after) : WellKept (users ++ [⟨before, after⟩]) := by
  have hlast : ∀ u ∈ users ++ [⟨before, after⟩], u ∈ users ∨ u = ⟨before, after⟩ := by
    intro u hu
    rw [List.mem_append, List.mem_singleton] at hu
    exact hu
  refine ⟨?_, ?_, fun u hu => ?_, fun u hu => ?_⟩
  · have hcount := h.count
    have hroom := hok.room
    rw [List.length_append, List.length_singleton]
    omega
  · rw [List.map_append, List.map_singleton]
    apply List.Nodup.append h.distinct (List.nodup_singleton _)
    rw [List.disjoint_singleton]
    intro hmem
    obtain ⟨u, hu, heq⟩ := List.mem_map.mp hmem
    exact hok.new u hu heq
  · rcases hlast u hu with hu | rfl
    · exact h.name u hu
    · exact hok.name
  · rcases hlast u hu with hu | rfl
    · exact h.pass u hu
    · exact hok.pass

theorem addUser_wellKept {users : UserTable} (h : WellKept users) (userpass : List UInt8) :
    WellKept (addUser users userpass).2.1 := by
  rcases addUser_cases users userpass with ⟨-, hsame⟩ | ⟨before, after, -, -, hok, -, happ⟩
  · rw [hsame]
    exact h
  · rw [happ]
    exact h.snoc hok

theorem addUsers_wellKept {users : UserTable} (h : WellKept users)
    (userpasses : List (List UInt8)) :
    WellKept (addUsers users userpasses) := by
  induction userpasses generalizing users with
  | nil => exact h
  | cons userpass userpasses ih => exact ih (addUser_wellKept h userpass)

/-- The array holds the users of the list, which are kept well. -/
structure UserArray.Holds (t : UserArray) (users : UserTable) : Prop where
  kept : WellKept users
  count : t.userCount = users.length
  name : ∀ i (h : i < users.length), HoldsString t.users (usernameAt i) users[i].username
  pass : ∀ i (h : i < users.length), HoldsString t.users (passwordAt i) users[i].password

section
variable {t : UserArray} {users : UserTable} {userpass before after : List UInt8}

theorem UserArray.empty_holds : UserArray.empty.Holds [] where
  kept := ⟨Nat.zero_le _, List.nodup_nil, by simp, by simp⟩
  count := rfl
  name i h := absurd h (Nat.not_lt_zero i)
  pass i h := absurd h (Nat.not_lt_zero i)

namespace UserArray.Holds

theorem checkNewUser_eq (h : t.Holds users) (h0 : 0 ∉ before) :
    UserArray.checkNewUser before t = Socks5d.checkNewUser before users := by
  rw [Bool.eq_iff_iff, UserArray.checkNewUser, Socks5d.checkNewUser, List.all_eq_true,
    List.all_eq_true, h.count]
  constructor
  · intro hall u hu
    obtain ⟨i, hi, rfl⟩ := List.mem_iff_getElem.mp hu
    have hne := hall i (List.mem_range.mpr hi)
    rw [Bool.not_eq_true', ← Bool.not_eq_true, (h.name i hi).strcmpEq_iff h0] at hne
    exact decide_eq_true (Ne.symm hne)
  · intro hall i hi
    rw [List.mem_range] at hi
    have hne := of_decide_eq_true (hall users[i] (List.getElem_mem hi))
    rw [Bool.not_eq_true', ← Bool.not_eq_true, (h.name i hi).strcmpEq_iff h0]
    exact Ne.symm hne

/-- Both strings fit into their fields, so that `strcpy` touches nothing else. -/
theorem snoc (h : t.Holds users) (hok : Acceptable users before after) :
    UserArray.Holds ⟨strcpy (strcpy t.users (usernameAt t.userCount) before)
      (passwordAt t.userCount) after, t.userCount + 1⟩ (users ++ [⟨before, after⟩]) := by
  have hbefore := (checkValid_iff.mp hok.name).1
  have hnew : usernameAt t.userCount + before.length < passwordAt t.userCount := by
    unfold usernameAt passwordAt
    omega
  -- the fields of the entries that are there lie below both of the new ones
  have hbelow : ∀ i < users.length, passwordAt i + maxPassLen < usernameAt t.userCount := by
    intro i hi
    have hmul := Nat.mul_le_mul_right userSize (show i + 1 ≤ t.userCount by rw [h.count]; omega)
    rw [Nat.add_one_mul] at hmul
    have hsize : userSize = (maxUserLen + 1) + (maxPassLen + 1) := rfl
    unfold usernameAt passwordAt
    omega
  have hindex : ∀ i, i < (users ++ [(⟨before, after⟩ : User)]).length → i < users.length ∨
      i = users.length := by
    intro i hi
    rw [List.length_append, List.length_singleton] at hi
    omega
  refine ⟨h.kept.snoc hok, ?_, fun i hi => ?_, fun i hi => ?_⟩
  · rw [List.length_append, List.length_singleton, h.count]
  · rcases hindex i hi with hlt | rfl
    · have hlen := (checkValid_iff.mp (h.kept.name _ (List.getElem_mem hlt))).1
      have hle : usernameAt i + (maxUserLen + 1) = passwordAt i := rfl
      have hpos := hbelow i hlt
      rw [List.getElem_append_left hlt]
      apply ((h.name i hlt).strcpy_above (by omega)).strcpy_above
      omega
    · rw [List.getElem_concat_length rfl, ← h.count]
      exact (HoldsString.strcpy_self (checkValid_nonzero hok.name)).strcpy_above hnew
  · rcases hindex i hi with hlt | rfl
    · have hlen := (checkValid_iff.mp (h.kept.pass _ (List.getElem_mem hlt))).1
      have hpos := hbelow i hlt
      rw [List.getElem_append_left hlt]
      apply ((h.pass i hlt).strcpy_above (by omega)).strcpy_above
      omega
    · rw [List.getElem_concat_length rfl, ← h.count]
      exact HoldsString.strcpy_self (checkValid_nonzero hok.pass)

/-- A call on the array does what it does on the list. -/
theorem addUser (h : t.Holds users) (h0 : 0 ∉ userpass) :
    (t.addUser userpass).1 = (Socks5d.addUser users userpass).1 ∧
      (t.addUser userpass).2.Holds (Socks5d.addUser users userpass).2.1 := by
  rcases colon_cases userpass with hno | ⟨before, after, rfl, hno⟩
  · rw [UserArray.addUser, Socks5d.addUser, if_pos hno, if_pos hno]
    exact ⟨rfl, h⟩
  have h0before : 0 ∉ before := fun hmem => h0 (List.mem_append_left _ hmem)
  obtain ⟨htake, hdrop⟩ := takeWhile_colon hno after
  unfold UserArray.addUser
  dsimp only
  rw [htake, hdrop, List.tail_cons, if_neg (by simp), h.checkNewUser_eq h0before]
  have hrefuses := refuses_iff users before after
  rw [← h.count] at hrefuses
  rcases addUser_split users hno after with ⟨hok, heq⟩ | ⟨hbad, heq⟩
  · rw [heq, if_neg fun hno => hrefuses.mp hno hok]
    exact ⟨rfl, h.snoc hok⟩
  · rw [heq, if_pos (hrefuses.mpr hbad)]
    exact ⟨rfl, h⟩

theorem addUsers (h : t.Holds users) {userpasses : List (List UInt8)}
    (h0 : ∀ userpass ∈ userpasses, 0 ∉ userpass) :
    (t.addUsers userpasses).Holds (Socks5d.addUsers users userpasses) := by
  induction userpasses generalizing t users with
  | nil => exact h
  | cons userpass userpasses ih =>
    rw [List.forall_mem_cons] at h0
    exact ih (h.addUser h0.1).2 h0.2

theorem tryCredentials_eq (h : t.Holds users) {u p : List UInt8} (hu : 0 ∉ u) (hp : 0 ∉ p) :
    t.tryCredentials u p = Socks5d.tryCredentials users u p := by
  rw [Bool.eq_iff_iff, UserArray.tryCredentials, Socks5d.tryCredentials, List.any_eq_true,
    List.any_eq_true, h.count]
  constructor
  · rintro ⟨i, hi, heq⟩
    rw [List.mem_range] at hi
    rw [Bool.and_eq_true, (h.name i hi).strcmpEq_iff hu, (h.pass i hi).strcmpEq_iff hp] at heq
    exact ⟨users[i], List.getElem_mem hi, by simpa using heq⟩
  · rintro ⟨x, hx, heq⟩
    obtain ⟨i, hi, rfl⟩ := List.mem_iff_getElem.mp hx
    refine ⟨i, List.mem_range.mpr hi, ?_⟩
    rw [Bool.and_eq_true, (h.name i hi).strcmpEq_iff hu, (h.pass i hi).strcmpEq_iff hp]
    simpa using heq

theorem entries_eq (h : t.Holds users) : t.entries = users := by
  refine List.ext_getElem ?_ fun i hi hi' => ?_
  · simp [UserArray.entries, h.count]
  · have hname := (checkValid_iff.mp (h.kept.name _ (List.getElem_mem hi'))).1
    have hpass := (checkValid_iff.mp (h.kept.pass _ (List.getElem_mem hi'))).1
    simp only [UserArray.entries, List.getElem_map, List.getElem_range]
    rw [(h.name i hi').field (by omega), (h.pass i hi').field (by omega)]

end UserArray.Holds

/-! ## The table as a map -/

/-- A field of this size holds a string that was let in. -/
def GoodField (m : ℕ → UInt8) (p size : ℕ) : Prop :=
  0 ∈ slice m p size ∧ ∀ c ∈ cString (slice m p size), isprint c = true ∧ c ≠ colon

theorem HoldsString.good {m : ℕ → UInt8} {p len : ℕ} {s : List UInt8} (h : HoldsString m p s)
    (hs : checkValid s len = true) : GoodField m p (len + 1) := by
  obtain ⟨hlen, hall⟩ := checkValid_iff.mp hs
  refine ⟨?_, ?_⟩
  · obtain ⟨k, hk⟩ : ∃ k, len + 1 = s.length + 1 + k := ⟨len - s.length, by omega⟩
    rw [hk, slice_add, h.2]
    simp
  · rw [h.field (by omega)]
    exact fun c hc => (hall c hc).symm

theorem mem_addUser (users : UserTable) (userpass : List UInt8) (u : User) :
    u ∈ (addUser users userpass).2.1 ↔ u ∈ users ∨
      (userpass = u.username ++ colon :: u.password ∧ colon ∉ u.username ∧
        (addUser users userpass).1 = true) := by
  constructor
  · intro hu
    rcases addUser_cases users userpass with ⟨-, hsame⟩ | ⟨before, after, rfl, hno, -, hadd, happ⟩
    · rw [hsame] at hu
      exact .inl hu
    · rw [happ, List.mem_append, List.mem_singleton] at hu
      rcases hu with hu | rfl
      · exact .inl hu
      · exact .inr ⟨rfl, hno, hadd⟩
  · rintro (hu | ⟨rfl, hno, hadd⟩)
    · rcases addUser_cases users userpass with ⟨-, hsame⟩ | ⟨_, _, -, -, -, -, happ⟩
      · rwa [hsame]
      · rw [happ]
        exact List.mem_append_left _ hu
    · rcases addUser_split users hno u.password with ⟨-, heq⟩ | ⟨-, heq⟩
      · rw [heq]
        exact List.mem_append_right _ List.mem_cons_self
      · rw [heq] at hadd
        cases hadd

/-- A pair of strings is in the table when a call that succeeded has put it there. -/
theorem mem_addUsers (userpasses : List (List UInt8)) (u : User) :
    u ∈ addUsers [] userpasses ↔
    ∃ us₁ us₂, userpasses = us₁ ++ (u.username ++ colon :: u.password) :: us₂ ∧
      colon ∉ u.username ∧
      (addUser (addUsers [] us₁) (u.username ++ colon :: u.password)).1 = true := by
  have hrun : u ∈ addUsers [] userpasses ↔ u ∈ [] ∨ _ :=
    exec_iff_brought fun users userpass => mem_addUser users userpass u
  refine (hrun.trans (or_iff_right List.not_mem_nil)).trans ?_
  constructor
  · rintro ⟨us₁, userpass, us₂, rfl, rfl, hno, hadd⟩
    exact ⟨us₁, us₂, rfl, hno, hadd⟩
  · rintro ⟨us₁, us₂, rfl, hno, hadd⟩
    exact ⟨us₁, _, us₂, rfl, rfl, hno, hadd⟩

/-- The array, after these calls of `add_user`, is a map from names to passwords. -/
structure RefinesMap (userpasses : List (List UInt8)) (t : UserArray) : Prop where
  count : t.userCount ≤ maxUsers
  distinct : (t.entries.map User.username).Nodup
  fields : ∀ i < t.userCount, GoodField t.users (usernameAt i) (maxUserLen + 1) ∧
    GoodField t.users (passwordAt i) (maxPassLen + 1)
  refused : ∀ userpass, 0 ∉ userpass → (t.addUser userpass).1 = false → (t.addUser userpass).2 = t
  added : ∀ userpass, 0 ∉ userpass → (t.addUser userpass).1 = true →
    ∃ before after, userpass = before ++ colon :: after ∧ colon ∉ before ∧
      (t.addUser userpass).2.entries = t.entries ++ [⟨before, after⟩]
  found : ∀ u p, 0 ∉ u → 0 ∉ p → (t.tryCredentials u p = true ↔
    ∃ us₁ us₂, userpasses = us₁ ++ (u ++ colon :: p) :: us₂ ∧ colon ∉ u ∧
      ((UserArray.empty.addUsers us₁).addUser (u ++ colon :: p)).1 = true)

/-- After any calls of `add_user`, there are at most `MAX_USERS` names, every field ends in
its place, a call that fails changes nothing, one that succeeds appends the parts of its
argument, and `try_credentials` finds the pairs that were added and no others. -/
theorem user_table_refines_map (userpasses : List (List UInt8))
    (h0 : ∀ userpass ∈ userpasses, 0 ∉ userpass) :
    RefinesMap userpasses (UserArray.empty.addUsers userpasses) := by
  generalize ht : UserArray.empty.addUsers userpasses = t
  have h : t.Holds (addUsers [] userpasses) := by
    rw [← ht]
    exact UserArray.empty_holds.addUsers h0
  refine ⟨?_, ?_, fun i hi => ?_, fun userpass _ hf => ?_, fun userpass hz htrue => ?_,
    fun u p hu hp => ?_⟩
  · rw [h.count]
    exact h.kept.count
  · rw [h.entries_eq]
    exact h.kept.distinct
  · rw [h.count] at hi
    exact ⟨(h.name i hi).good (h.kept.name _ (List.getElem_mem hi)),
      (h.pass i hi).good (h.kept.pass _ (List.getElem_mem hi))⟩
  · unfold UserArray.addUser at hf ⊢
    dsimp only at hf ⊢
    split_ifs at hf ⊢
    · rfl
    · rfl
  · obtain ⟨heq, hnext⟩ := h.addUser hz
    rw [htrue] at heq
    rcases addUser_cases (addUsers [] userpasses) userpass with ⟨hbad, -⟩ |
      ⟨before, after, hsplit, hno, -, -, happ⟩
    · rw [hbad] at heq
      cases heq
    · refine ⟨before, after, hsplit, hno, ?_⟩
      rw [hnext.entries_eq, happ, h.entries_eq]
  · rw [h.tryCredentials_eq hu hp, tryCredentials, List.any_eq_true]
    have hmem := mem_addUsers userpasses ⟨u, p⟩
    constructor
    · rintro ⟨x, hx, heq⟩
      rw [Bool.and_eq_true, decide_eq_true_eq, decide_eq_true_eq] at heq
      obtain ⟨rfl, rfl⟩ := heq
      obtain ⟨us₁, us₂, rfl, hno, hadd⟩ := hmem.mp hx
      refine ⟨us₁, us₂, rfl, hno, ?_⟩
      rw [List.forall_mem_append, List.forall_mem_cons] at h0
      rw [((UserArray.empty_holds.addUsers h0.1).addUser h0.2.1).1]
      exact hadd
    · rintro ⟨us₁, us₂, rfl, hno, hadd⟩
      rw [List.forall_mem_append, List.forall_mem_cons] at h0
      rw [((UserArray.empty_holds.addUsers h0.1).addUser h0.2.1).1] at hadd
      exact ⟨⟨u, p⟩, hmem.mpr ⟨us₁, us₂, rfl, hno, hadd⟩, by simp⟩

theorem added_user_may_enter :
    (UserArray.empty.addUsers [asc "ada:pw:1", asc "ada:pw"]).tryCredentials (asc "ada")
      (asc "pw") = true := by
  have h := (user_table_refines_map [asc "ada:pw:1", asc "ada:pw"] (by decide +kernel)).found
    (asc "ada") (asc "pw") (by decide +kernel) (by decide +kernel)
  exact h.mpr ⟨[asc "ada:pw:1"], [], rfl, by decide +kernel, by decide +kernel⟩

end

/-! ## The users that are let in

A field of `MAX_USER_LEN + 1` bytes holds a name of `MAX_USER_LEN` characters, but
`check_valid` asks for fewer than its second argument, so such a name is refused. -/

/-- The part before the first colon. -/
def namePart (userpass : List UInt8) : List UInt8 := userpass.takeWhile (· ≠ colon)

/-- The part after it. -/
def passPart (userpass : List UInt8) : List UInt8 := (userpass.dropWhile (· ≠ colon)).tail

/-- The string fits a field for `len` characters and has none that is not allowed. -/
def FitsField (s : List UInt8) (len : ℕ) : Prop :=
  s.length ≤ len ∧ ∀ c ∈ s, isprint c = true ∧ c ≠ colon

instance (s : List UInt8) (len : ℕ) : Decidable (FitsField s len) :=
  decidable_of_iff (s.length ≤ len ∧ (s.all fun c => isprint c && decide (c ≠ colon)) = true)
    (by simp [FitsField])

/-- The string is a user that the table has room for and does not know yet. -/
structure WellFormedUser (users : UserTable) (userpass : List UInt8) : Prop where
  room : users.length < maxUsers
  split : colon ∈ userpass
  name : FitsField (namePart userpass) maxUserLen
  pass : FitsField (passPart userpass) maxPassLen
  new : ∀ u ∈ users, u.username ≠ namePart userpass

/-- One of its parts fills its field. -/
def FillsField (userpass : List UInt8) : Prop :=
  (namePart userpass).length = maxUserLen ∨ (passPart userpass).length = maxPassLen

theorem checkValid_iff_fitsField {s : List UInt8} {len : ℕ} :
    checkValid s len = true ↔ FitsField s len ∧ s.length ≠ len := by
  rw [checkValid_iff, FitsField, Nat.lt_iff_le_and_ne, and_right_comm]
  simp only [and_comm]

theorem addUser_iff {users : UserTable} (hcount : users.length ≤ maxUsers) (userpass : List UInt8) :
    (addUser users userpass).1 = true ↔ WellFormedUser users userpass ∧ ¬ FillsField userpass := by
  rcases colon_cases userpass with hno | ⟨before, after, rfl, hno⟩
  · rw [addUser, if_pos hno]
    constructor
    · exact fun hf => absurd hf Bool.false_ne_true
    · exact fun h => absurd h.1.split hno
  obtain ⟨htake, hdrop⟩ := takeWhile_colon hno after
  have hname : namePart (before ++ colon :: after) = before := htake
  have hpass : passPart (before ++ colon :: after) = after := by
    rw [passPart, hdrop, List.tail_cons]
  have hok : Acceptable users before after ↔
      WellFormedUser users (before ++ colon :: after) ∧
        ¬ FillsField (before ++ colon :: after) := by
    rw [FillsField, hname, hpass, not_or]
    constructor
    · intro h
      obtain ⟨hn, hn'⟩ := checkValid_iff_fitsField.mp h.name
      obtain ⟨hp, hp'⟩ := checkValid_iff_fitsField.mp h.pass
      refine ⟨⟨Nat.lt_of_le_of_ne hcount h.room, by simp, ?_, ?_, ?_⟩, hn', hp'⟩
      · rw [hname]
        exact hn
      · rw [hpass]
        exact hp
      · rw [hname]
        exact h.new
    · rintro ⟨h, hn', hp'⟩
      have hn := h.name
      have hp := h.pass
      have hnew := h.new
      rw [hname] at hn hnew
      rw [hpass] at hp
      exact ⟨Nat.ne_of_lt h.room, checkValid_iff_fitsField.mpr ⟨hn, hn'⟩,
        checkValid_iff_fitsField.mpr ⟨hp, hp'⟩,
        hnew⟩
  rw [← hok]
  rcases addUser_split users hno after with ⟨hacc, heq⟩ | ⟨hbad, heq⟩
  · rw [heq]
    exact iff_of_true rfl hacc
  · rw [heq]
    exact iff_of_false Bool.false_ne_true hbad

/-- After any calls of `add_user`, the next one lets in exactly the well-formed new users,
except for those with a part that fills its field. -/
theorem add_user_exact_iff (userpasses : List (List UInt8))
    (h0 : ∀ userpass ∈ userpasses, 0 ∉ userpass) (userpass : List UInt8) (hz : 0 ∉ userpass) :
    (((UserArray.empty.addUsers userpasses).addUser userpass).1 = true ↔
        WellFormedUser (UserArray.empty.addUsers userpasses).entries userpass) ↔
      ¬ (WellFormedUser (UserArray.empty.addUsers userpasses).entries userpass ∧
        FillsField userpass) := by
  have h : (UserArray.empty.addUsers userpasses).Holds (addUsers [] userpasses) :=
    UserArray.empty_holds.addUsers h0
  rw [h.entries_eq, (h.addUser hz).1, addUser_iff h.kept.count]
  tauto

theorem short_user_is_let_in :
    (UserArray.empty.addUser (asc "ninechars:pw")).1 = true ∧
    WellFormedUser [] (asc "ninechars:pw") := by
  have hadd : (UserArray.empty.addUser (asc "ninechars:pw")).1 = true := by decide +kernel
  have h := (add_user_exact_iff [] (by simp) (asc "ninechars:pw") (by decide +kernel)).mpr
    fun hbad => absurd hbad.2 (by unfold FillsField; decide +kernel)
  exact ⟨hadd, h.mp hadd⟩

/-- A name of `MAX_USER_LEN` characters is refused by an empty table. -/
theorem ten_letter_name_is_refused :
    ¬ (((UserArray.empty.addUsers []).addUser (asc "tenletters:pw")).1 = true ↔
      WellFormedUser (UserArray.empty.addUsers []).entries (asc "tenletters:pw")) := by
  have hgood : WellFormedUser (UserArray.empty.addUsers []).entries (asc "tenletters:pw") :=
    ⟨by decide, by decide +kernel, by decide +kernel, by decide +kernel,
      fun u hu => absurd hu List.not_mem_nil⟩
  have hno : ((UserArray.empty.addUsers []).addUser (asc "tenletters:pw")).1 = false := by
    decide +kernel
  intro h
  rw [h.mpr hgood] at hno
  cases hno

end Socks5d
