import Mathlib.Data.List.Infix
import Mathlib.Data.List.TakeWhile
import Socks5d.Accounts
import Socks5d.Lexing

/-! # How the management client reads a listing: `mgmt_client_util.c` -/

namespace Socks5d

/-! ## The client -/

def eol : List UInt8 := asc "\r\n"
def eom : List UInt8 := eol ++ asc "." ++ eol

/-- `strstr(haystack, needle) != NULL` -/
def strstr (haystack needle : List UInt8) : Bool := needle <:+: haystack

def finished (buff : List UInt8) (multiline : Bool) : Bool :=
  -- errors are one line
  let multiline := if buff.head? = some 0x2d then false else multiline
  strstr buff (if multiline then eom else eol)

/-- The characters of `EOL`, each of which ends a field. -/
def isEol (c : UInt8) : Bool := c = 0xd || c = 0xa

/-- `strtok` with `EOL`: the next field that is not empty, and where the next call goes on. -/
def strtok (s : List UInt8) : Option (List UInt8 × List UInt8) :=
  match s.dropWhile isEol with
  | [] => none
  | c :: s => some ((c :: s).takeWhile (!isEol ·), ((c :: s).dropWhile (!isEol ·)).tail)

/-- The loop of `simple_iteration`. -/
def iterate : ℕ → List UInt8 → List (List UInt8)
  | 0, _ => []
  | n + 1, s =>
    match strtok s with
    | none => []
    | some (tok, s) => if tok.head? = some 0x2e then [] else tok :: iterate n s

/-- What `simple_iteration` prints. Every field takes a byte, which bounds their number. -/
def simpleIteration (buffer : List UInt8) : List (List UInt8) :=
  match strtok buffer with
  | none => []
  | some (_, s) => iterate (s.length + 1) s

/-! ## Lines -/

/-- The lines of a listing behind the first. -/
def listing (names : List (List UInt8)) : List UInt8 :=
  (names.map fun n => n ++ [0xd, 0xa]).flatten ++ [0x2e, 0xd, 0xa]

theorem usersText_eq (users : UserTable) :
    usersText users = (asc "+OK Listing users... " ++ [0xd, 0xa]) ++
      listing (users.map User.username) := by
  have hhead : usersHead = asc "+OK Listing users... " ++ [0xd, 0xa] := rfl
  rw [usersText, hhead, listing, List.map_map, List.append_assoc]
  rfl

theorem listing_cons (n : List UInt8) (names : List (List UInt8)) :
    listing (n :: names) = n ++ 0xd :: 0xa :: listing names := by
  simp [listing]

section
variable {n y a r : List UInt8} {names : List (List UInt8)}

/-- Without a line of one dot, the end is where the listing ends. -/
theorem listing_end (hnames : ∀ n ∈ names, 0xd ∉ n ∧ n ≠ [0x2e])
    (h : 0xd :: 0xa :: listing names = a ++ (eom ++ r)) : r = [] := by
  have heom : eom ++ r = 0xd :: 0xa :: 0x2e :: 0xd :: 0xa :: r := rfl
  induction names generalizing a with
  | nil =>
    have hlen := congrArg List.length h
    rw [heom] at hlen
    simp only [listing, List.map_nil, List.flatten_nil, List.nil_append, List.length_append,
      List.length_cons, List.length_nil] at hlen
    exact List.eq_nil_of_length_eq_zero (by omega)
  | cons n names ih =>
    rw [List.forall_mem_cons] at hnames
    rw [listing_cons, heom] at h
    cases a with
    | nil =>
      simp only [List.nil_append, List.cons.injEq, true_and] at h
      have h' : n ++ 0xd :: 0xa :: listing names = [0x2e] ++ 0xd :: 0xa :: r := h
      obtain ⟨a', ha, h''⟩ := append_eq_append_return hnames.1.1 h'
      -- the dot would be all of the name
      obtain ⟨b, hb, -⟩ := append_eq_append_return (x := [0x2e]) (by decide) h'.symm
      rw [hb, List.append_assoc, List.self_eq_append_right, List.append_eq_nil_iff] at ha
      rw [ha.1, List.append_nil] at hb
      exact absurd hb hnames.1.2
    | cons c a =>
      rw [List.cons_append, List.cons.injEq] at h
      have hno : 0xd ∉ 0xa :: n := by simpa using hnames.1.1
      obtain ⟨a', -, htail⟩ := append_eq_append_return hno h.2
      exact ih hnames.2 (by rw [htail, heom])

/-- A field between two ends of lines. -/
theorem strtok_field (hne : n ≠ []) (hn : ∀ c ∈ n, isEol c = false) :
    strtok (0xa :: (n ++ 0xd :: y)) = some (n, y) := by
  obtain ⟨c, n, rfl⟩ := List.exists_cons_of_ne_nil hne
  have hc := hn c List.mem_cons_self
  have hfirst : (0xa :: (c :: n ++ 0xd :: y)).dropWhile isEol = c :: (n ++ 0xd :: y) := by
    rw [List.dropWhile_cons_of_pos (by decide), List.cons_append,
      List.dropWhile_cons_of_neg (by simp [hc])]
  have hall : ∀ b ∈ c :: n, (!isEol b) = true := by
    intro b hb
    rw [hn b hb]
    rfl
  have hstop : (!isEol 0xd) = false := by decide
  unfold strtok
  rw [hfirst]
  dsimp only
  rw [← List.cons_append, List.takeWhile_append_of_pos hall, List.dropWhile_append_of_pos hall]
  simp [hstop]

/-- An empty line is no field. -/
theorem strtok_empty : strtok (0xa :: 0xd :: 0xa :: y) = strtok (0xa :: y) := by
  unfold strtok
  simp only [List.dropWhile_cons, show isEol 0xa = true from rfl,
    show isEol 0xd = true from rfl, if_true]

/-- What a listing is read as: the lines that are not empty, up to the first that begins
with a dot. -/
def readBack (names : List (List UInt8)) : List (List UInt8) :=
  (names.filter (· ≠ [])).takeWhile (·.head? ≠ some 0x2e)

theorem iterate_listing (hnames : ∀ n ∈ names, ∀ c ∈ n, isEol c = false) {fuel : ℕ}
    (hfuel : names.length < fuel) : iterate fuel (0xa :: listing names) = readBack names := by
  induction names generalizing fuel with
  | nil =>
    obtain ⟨k, rfl⟩ : ∃ k, fuel = k + 1 := ⟨fuel - 1, by simp at hfuel; omega⟩
    rfl
  | cons n names ih =>
    rw [List.forall_mem_cons] at hnames
    rw [List.length_cons] at hfuel
    obtain ⟨k, rfl⟩ : ∃ k, fuel = k + 1 := ⟨fuel - 1, by omega⟩
    rw [listing_cons]
    by_cases hne : n = []
    · subst hne
      have hrec : iterate (k + 1) (0xa :: listing names) = readBack names := ih hnames.2 (by omega)
      rw [iterate, List.nil_append, strtok_empty]
      rw [iterate] at hrec
      rw [hrec, readBack, readBack, List.filter_cons_of_neg (by simp)]
    · rw [iterate, strtok_field hne hnames.1]
      dsimp only
      rw [ih hnames.2 (by omega), readBack, readBack, List.filter_cons_of_pos (by simpa using hne)]
      split_ifs with hdot
      · rw [List.takeWhile_cons_of_neg (by simp [hdot])]
      · rw [List.takeWhile_cons_of_pos (by simpa using hdot)]

end

/-! ## Listings of users -/

section
variable {users : UserTable}

theorem isprint_not_isEol {c : UInt8} (h : isprint c = true) : isEol c = false := by
  by_contra hc
  rw [Bool.not_eq_false, isEol, Bool.or_eq_true, decide_eq_true_eq, decide_eq_true_eq] at hc
  rcases hc with rfl | rfl
  · revert h
    decide
  · revert h
    decide

theorem WellKept.name_isEol (h : WellKept users) :
    ∀ n ∈ users.map User.username, ∀ c ∈ n, isEol c = false := by
  intro n hn c hc
  obtain ⟨u, hu, rfl⟩ := List.mem_map.mp hn
  exact isprint_not_isEol ((checkValid_iff.mp (h.name u hu)).2 c hc).2

theorem simpleIteration_usersText (h : WellKept users) :
    simpleIteration (usersText users) = readBack (users.map User.username) := by
  have hfirst : strtok (usersText users) = some (asc "+OK Listing users... ",
      0xa :: listing (users.map User.username)) := by
    rw [usersText_eq]
    rfl
  unfold simpleIteration
  rw [hfirst]
  dsimp only
  apply iterate_listing h.name_isEol
  have hlen : ∀ names : List (List UInt8), names.length ≤ (listing names).length := by
    intro names
    induction names with
    | nil => exact Nat.zero_le _
    | cons n names ih =>
      rw [listing_cons]
      simp only [List.length_append, List.length_cons]
      omega
  have hle := hlen (users.map User.username)
  rw [List.length_cons]
  omega

/-- Every part of the response begins with a plus sign, so that the end is looked for. -/
theorem finished_iff {p : List UInt8} (h : p <+: usersText users) :
    finished p true = true ↔ eom <:+: p := by
  have hhead : p.head? ≠ some 0x2d := by
    obtain ⟨q, hq⟩ := h
    cases p with
    | nil => simp
    | cons c p =>
      rw [usersText_eq] at hq
      have hc : c = 0x2b := (List.cons.inj hq).1
      simp [hc]
  unfold finished
  rw [if_neg hhead]
  exact decide_eq_true_iff

theorem listing_ends (names : List (List UInt8)) : eom <:+ 0xd :: 0xa :: listing names := by
  induction names with
  | nil => exact ⟨[], rfl⟩
  | cons n names ih =>
    obtain ⟨a, ha⟩ := ih
    refine ⟨0xd :: 0xa :: n ++ a, ?_⟩
    rw [listing_cons, ← ha, List.append_assoc]
    rfl

theorem usersText_ends : eom <:+ usersText users := by
  obtain ⟨a, ha⟩ := listing_ends (users.map User.username)
  refine ⟨asc "+OK Listing users... " ++ a, ?_⟩
  rw [usersText_eq, List.append_assoc, List.append_assoc, ha]
  rfl

/-- The name is one that a listing can hold. -/
def Listable (name : List UInt8) : Prop := name ≠ [] ∧ name.head? ≠ some 0x2e

theorem finished_only_at_end (h : WellKept users) (hok : ∀ u ∈ users, Listable u.username)
    {p : List UInt8} (hp : p <+: usersText users) (hfin : eom <:+: p) : p = usersText users := by
  obtain ⟨q, hq⟩ := hp
  obtain ⟨a, b, rfl⟩ := hfin
  have hbody : 0xd ∉ asc "+OK Listing users... " := by decide
  have htext : asc "+OK Listing users... " ++ (0xd :: 0xa :: listing (users.map User.username)) =
      a ++ 0xd :: (0xa :: 0x2e :: 0xd :: 0xa :: (b ++ q)) := by
    have hq' := hq.symm
    rw [usersText_eq, List.append_assoc, List.append_assoc, List.append_assoc] at hq'
    exact hq'
  obtain ⟨a', -, htail⟩ := append_eq_append_return hbody htext
  have hnames : ∀ n ∈ users.map User.username, 0xd ∉ n ∧ n ≠ [0x2e] := by
    intro n hn
    refine ⟨fun hcr => ?_, ?_⟩
    · have hno := h.name_isEol n hn 0xd hcr
      revert hno
      decide
    · rintro rfl
      obtain ⟨u, hu, hname⟩ := List.mem_map.mp hn
      have hdot := (hok u hu).2
      rw [hname] at hdot
      exact hdot rfl
  have hrest := listing_end (r := b ++ q) hnames htail
  rw [List.append_eq_nil_iff] at hrest
  rw [← hq, hrest.2, List.append_nil]

theorem readBack_eq_iff {names : List (List UInt8)} :
    readBack names = names ↔ ∀ n ∈ names, Listable n := by
  constructor
  · intro h n hn
    rw [← h, readBack] at hn
    have hdot := List.mem_takeWhile_imp hn
    have hne := List.mem_filter.mp ((List.takeWhile_sublist _).mem hn)
    exact ⟨by simpa using hne.2, by simpa using hdot⟩
  · intro h
    have hfilter : names.filter (· ≠ []) = names :=
      List.filter_eq_self.mpr fun n hn => by simpa using (h n hn).1
    rw [readBack, hfilter]
    exact List.takeWhile_eq_self_iff.mpr fun n hn => by simpa using (h n hn).2

end

/-- The response tells where it ends, and the names in it are read back. -/
def RoundTrips (users : UserTable) : Prop :=
  (∀ p, p <+: usersText users → (finished p true = true ↔ p = usersText users)) ∧
    simpleIteration (usersText users) = users.map User.username

/-- The listing of a table that `add_user` has built is read back when no name is empty or
begins with a dot, and only then. -/
theorem users_listing_round_trips_iff (userpasses : List (List UInt8)) :
    RoundTrips (addUsers [] userpasses) ↔ ∀ u ∈ addUsers [] userpasses, Listable u.username := by
  have h : WellKept (addUsers [] userpasses) :=
    addUsers_wellKept UserArray.empty_holds.kept userpasses
  have hread := simpleIteration_usersText h
  generalize addUsers [] userpasses = users at h hread ⊢
  constructor
  · rintro ⟨-, hnames⟩ u hu
    rw [hread, readBack_eq_iff] at hnames
    exact hnames _ (List.mem_map_of_mem hu)
  · intro hok
    refine ⟨fun p hp => ?_, ?_⟩
    · rw [finished_iff hp]
      constructor
      · exact finished_only_at_end h hok hp
      · rintro rfl
        exact usersText_ends.isInfix
    · rw [hread, readBack_eq_iff]
      intro n hn
      obtain ⟨u, hu, rfl⟩ := List.mem_map.mp hn
      exact hok u hu

/-- A name of one dot ends the response early, an empty one is skipped. -/
theorem dot_and_empty_names_are_lost :
    (addUser (addUser [] (asc ".:pw")).2.1 (asc ":pw")).1 = true ∧
    addUsers [] [asc ".:pw", asc ":pw"] = [⟨asc ".", asc "pw"⟩, ⟨[], asc "pw"⟩] ∧
    finished ((usersText (addUsers [] [asc ".:pw", asc ":pw"])).take 26) true = true ∧
    simpleIteration (usersText (addUsers [] [asc ".:pw", asc ":pw"])) = [] ∧
    ¬ RoundTrips (addUsers [] [asc ".:pw", asc ":pw"]) := by
  have hrun : simpleIteration (usersText (addUsers [] [asc ".:pw", asc ":pw"])) = [] := by
    decide +kernel
  refine ⟨by decide +kernel, by decide +kernel, by decide +kernel, hrun, fun h => ?_⟩
  have hnames := h.2
  rw [hrun] at hnames
  revert hnames
  decide +kernel

end Socks5d
