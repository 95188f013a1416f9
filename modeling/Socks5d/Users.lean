import Mathlib.Data.List.Basic
import Mathlib.Data.List.TakeWhile

/-! # Accounts: `users.c` and `tokens.c`

A C string is the list of its bytes before the terminating zero. -/

namespace Socks5d

/-- The C string that starts a block of memory. -/
def cString (bs : List UInt8) : List UInt8 := bs.takeWhile (· ≠ 0)

theorem cString_eq_self {s : List UInt8} (h : 0 ∉ s) : cString s = s := by
  rw [cString, List.takeWhile_eq_self_iff]
  intro c hc
  rw [decide_eq_true_eq]
  exact ne_of_mem_of_not_mem hc h

/-- A zero ends the string, whatever follows. -/
theorem cString_append_zero (l r : List UInt8) : cString (l ++ 0 :: r) = cString l := by
  unfold cString
  induction l with
  | nil => rfl
  | cons b l ih =>
    rw [List.cons_append, List.takeWhile_cons, List.takeWhile_cons, ih]

theorem cString_append {l : List UInt8} (h : 0 ∉ l) (r : List UInt8) :
    cString (l ++ r) = l ++ cString r := by
  refine List.takeWhile_append_of_pos ?_
  intro c hc
  rw [decide_eq_true_eq]
  exact ne_of_mem_of_not_mem hc h

theorem cString_no_zero (bs : List UInt8) : 0 ∉ cString bs :=
  fun h => absurd (List.mem_takeWhile_imp h) (by decide)

theorem cString_zero {l r : List UInt8} (h : 0 ∉ l) : cString (l ++ 0 :: r) = l := by
  rw [cString_append_zero, cString_eq_self h]

/-- `isprint` in the C locale. -/
def isprint (c : UInt8) : Bool := 0x20 ≤ c && c ≤ 0x7e

def maxUserLen : ℕ := 10
def maxPassLen : ℕ := 20
def maxUsers : ℕ := 20

structure User where
  username : List UInt8
  password : List UInt8
deriving DecidableEq, Repr

abbrev UserTable := List User

/-- The character `:`. -/
def colon : UInt8 := 0x3a

def checkValid : List UInt8 → ℕ → Bool
  | [], len => 0 < len
  | _ :: _, 0 => false
  | c :: s, len + 1 => if c = colon || !isprint c then false else checkValid s len

def checkNewUser (username : List UInt8) (users : UserTable) : Bool :=
  users.all fun u => username ≠ u.username

/-- The result, the table afterwards, and what is left of `userpass`: the colon
has been overwritten by a zero, whether or not the user is accepted. -/
def addUser (users : UserTable) (userpass : List UInt8) : Bool × UserTable × List UInt8 :=
  if colon ∉ userpass then (false, users, userpass)
  else
    let username := userpass.takeWhile (· ≠ colon)
    let password := (userpass.dropWhile (· ≠ colon)).tail
    if users.length = maxUsers || !checkValid username maxUserLen ||
        !checkValid password maxPassLen || !checkNewUser username users then
      (false, users, username)
    else (true, users ++ [⟨username, password⟩], username)

/-- The table after a number of calls. -/
def addUsers (users : UserTable) (userpasses : List (List UInt8)) : UserTable :=
  userpasses.foldl (fun users userpass => (addUser users userpass).2.1) users

def tryCredentials (users : UserTable) (username password : List UInt8) : Bool :=
  users.any fun u => u.username = username && u.password = password

def maxTokenLength : ℕ := 32
def maxTokens : ℕ := 10

def checkValidToken : List UInt8 → ℕ → Bool
  | [], len => 0 < len
  | _ :: _, 0 => false
  | c :: s, len + 1 => if !isprint c then false else checkValidToken s len

def addToken (tokens : List (List UInt8)) (token : List UInt8) : Bool × List (List UInt8) :=
  if maxTokens ≤ tokens.length || !checkValidToken token maxTokenLength then (false, tokens)
  else (true, tokens ++ [token])

/-- The table after a number of calls. -/
def addTokens (strs : List (List UInt8)) : List (List UInt8) :=
  strs.foldl (fun tokens token => (addToken tokens token).2) []

def checkToken (tokens : List (List UInt8)) (token : List UInt8) : Bool := tokens.contains token

/-! ## What `add_user` lets in -/

/-- The bounds that `add_user` keeps. -/
structure Bounded (users : UserTable) : Prop where
  count : users.length ≤ maxUsers
  name : ∀ u ∈ users, u.username.length < maxUserLen

theorem checkValid_iff {s : List UInt8} {len : ℕ} :
    checkValid s len = true ↔ s.length < len ∧ ∀ c ∈ s, c ≠ colon ∧ isprint c = true := by
  induction s generalizing len with
  | nil => simp [checkValid]
  | cons c s ih =>
    cases len with
    | zero => simp [checkValid]
    | succ len =>
      rw [checkValid, List.forall_mem_cons, List.length_cons, Nat.succ_lt_succ_iff]
      split_ifs with hc
      · simp only [Bool.or_eq_true, decide_eq_true_eq, Bool.not_eq_true'] at hc
        simp only [false_iff, not_and]
        rcases hc with rfl | hc
        · exact fun _ h => absurd rfl h.1
        · simp [hc]
      · simp only [Bool.or_eq_true, decide_eq_true_eq, Bool.not_eq_true', not_or,
          Bool.not_eq_false] at hc
        rw [ih, and_iff_right (show c ≠ colon ∧ isprint c = true from hc)]

/-- What is left of the argument ends at its first colon. -/
theorem addUser_left (users : UserTable) (userpass : List UInt8) :
    (addUser users userpass).2.2 = userpass.takeWhile (· ≠ colon) := by
  unfold addUser
  split
  · rename_i hcolon
    refine (List.takeWhile_eq_self_iff.mpr ?_).symm
    intro c hc
    rw [decide_eq_true_eq]
    exact ne_of_mem_of_not_mem hc hcolon
  · dsimp only
    split_ifs <;> rfl

/-- What `add_user` checks of the two parts. -/
structure Acceptable (users : UserTable) (username password : List UInt8) : Prop where
  room : users.length ≠ maxUsers
  name : checkValid username maxUserLen = true
  pass : checkValid password maxPassLen = true
  new : ∀ u ∈ users, u.username ≠ username

theorem takeWhile_colon {before : List UInt8} (h : colon ∉ before) (after : List UInt8) :
    (before ++ colon :: after).takeWhile (· ≠ colon) = before ∧
      (before ++ colon :: after).dropWhile (· ≠ colon) = colon :: after := by
  have hne : ∀ c ∈ before, decide (c ≠ colon) = true := by
    intro c hc
    rw [decide_eq_true_eq]
    exact ne_of_mem_of_not_mem hc h
  rw [List.takeWhile_append_of_pos hne, List.dropWhile_append_of_pos hne]
  simp

/-- Every string has no colon or a first one. -/
theorem colon_cases (userpass : List UInt8) :
    colon ∉ userpass ∨ ∃ before after, userpass = before ++ colon :: after ∧ colon ∉ before := by
  by_cases h : colon ∈ userpass
  · obtain ⟨before, after, rfl, hno⟩ := List.eq_append_cons_of_mem h
    exact .inr ⟨before, after, rfl, hno⟩
  · exact .inl h

theorem refuses_iff (users : UserTable) (before after : List UInt8) :
    (users.length = maxUsers || !checkValid before maxUserLen || !checkValid after maxPassLen ||
      !checkNewUser before users) = true ↔ ¬ Acceptable users before after := by
  have hnew : checkNewUser before users = true ↔ ∀ u ∈ users, u.username ≠ before := by
    simp only [checkNewUser, List.all_eq_true, decide_eq_true_eq]
    exact forall₂_congr fun u _ => ne_comm
  rw [iff_not_comm, Bool.not_eq_true]
  simp only [Bool.or_eq_false_iff, decide_eq_false_iff_not, Bool.not_eq_false', hnew]
  constructor
  · exact fun h => ⟨⟨⟨h.room, h.name⟩, h.pass⟩, h.new⟩
  · exact fun ⟨⟨⟨hroom, hname⟩, hpass⟩, hfresh⟩ => ⟨hroom, hname, hpass, hfresh⟩

theorem addUser_split (users : UserTable) {before : List UInt8} (h : colon ∉ before)
    (after : List UInt8) :
    (Acceptable users before after ∧ addUser users (before ++ colon :: after) =
      (true, users ++ [⟨before, after⟩], before)) ∨
    (¬ Acceptable users before after ∧ addUser users (before ++ colon :: after) =
      (false, users, before)) := by
  obtain ⟨htake, hdrop⟩ := takeWhile_colon h after
  unfold addUser
  dsimp only
  rw [htake, hdrop, List.tail_cons, if_neg (by simp)]
  split_ifs with hno
  · exact .inr ⟨(refuses_iff users before after).mp hno, rfl⟩
  · exact .inl ⟨not_not.mp (mt (refuses_iff users before after).mpr hno), rfl⟩

/-- What a call of `add_user` can do. -/
theorem addUser_cases (users : UserTable) (userpass : List UInt8) :
    ((addUser users userpass).1 = false ∧ (addUser users userpass).2.1 = users) ∨
    ∃ before after, userpass = before ++ colon :: after ∧ colon ∉ before ∧
      Acceptable users before after ∧ (addUser users userpass).1 = true ∧
      (addUser users userpass).2.1 = users ++ [⟨before, after⟩] := by
  rcases colon_cases userpass with hno | ⟨before, after, rfl, hno⟩
  · refine .inl ?_
    rw [addUser, if_pos hno]
    exact ⟨rfl, rfl⟩
  · rcases addUser_split users hno after with ⟨hok, h⟩ | ⟨-, h⟩
    · refine .inr ⟨before, after, rfl, hno, hok, ?_⟩
      rw [h]
      exact ⟨rfl, rfl⟩
    · refine .inl ?_
      rw [h]
      exact ⟨rfl, rfl⟩

theorem addUser_bounded {users : UserTable} (h : Bounded users) (userpass : List UInt8) :
    Bounded (addUser users userpass).2.1 := by
  rcases addUser_cases users userpass with ⟨-, hsame⟩ | ⟨before, after, -, -, hok, -, hadd⟩
  · rw [hsame]
    exact h
  · rw [hadd]
    refine ⟨?_, ?_⟩
    · have hlen := h.count
      have hroom := hok.room
      simp only [List.length_append, List.length_singleton]
      omega
    · intro u hu
      rcases List.mem_append.mp hu with hu | hu
      · exact h.name u hu
      · rw [List.mem_singleton.mp hu]
        exact (checkValid_iff.mp hok.name).1

theorem addUsers_bounded {users : UserTable} (h : Bounded users) (userpasses : List (List UInt8)) :
    Bounded (addUsers users userpasses) := by
  induction userpasses generalizing users with
  | nil => exact h
  | cons userpass userpasses ih => exact ih (addUser_bounded h userpass)

end Socks5d
