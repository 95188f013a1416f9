import Mathlib.Data.List.Basic

/-! # Scanners that can be interrupted

A pattern is a sequence of atoms. All rules are followed at once, one thread for
each, and the first thread that has no pattern left accepts. A thread records the
positions at which it passes the tags of its pattern. A scan that runs out of input
gives back its threads. -/

namespace Scanner

variable {α τ ρ : Type*}

inductive Atom (α τ : Type*)
  | one (p : α → Bool)
  | star (p : α → Bool)
  | tag (t : τ)

abbrev Pattern (α τ : Type*) := List (Atom α τ)

/-- What is left of a pattern after one symbol, and the tags passed before it. A
star takes whatever it can. -/
def derive : Pattern α τ → α → Option (Pattern α τ × List τ)
  | [], _ => none
  | .one p :: q, b => if p b then some (q, []) else none
  | .star p :: q, b => if p b then some (.star p :: q, []) else derive q b
  | .tag t :: q, b => (derive q b).map fun r => (r.1, t :: r.2)

structure Rule (α τ ρ : Type*) where
  pattern : Pattern α τ
  result : ρ

/-- Tags with the positions at which they were passed. -/
abbrev Marks (τ : Type*) := List (τ × ℕ)

def Marks.shift (d : ℕ) (ms : Marks τ) : Marks τ := ms.map fun m => (m.1, m.2 + d)

structure Thread (α τ ρ : Type*) where
  rest : Pattern α τ
  rule : Rule α τ ρ
  marks : Marks τ

def start (rules : List (Rule α τ ρ)) : List (Thread α τ ρ) := rules.map fun r => ⟨r.pattern, r, []⟩

def Thread.next (pos : ℕ) (b : α) (th : Thread α τ ρ) : Option (Thread α τ ρ) :=
  (derive th.rest b).map fun r => ⟨r.1, th.rule, th.marks ++ r.2.map (·, pos)⟩

def advance (ths : List (Thread α τ ρ)) (pos : ℕ) (b : α) : List (Thread α τ ρ) :=
  ths.filterMap (Thread.next pos b)

inductive Result (α τ ρ : Type*)
  | accept (th : Thread α τ ρ) (pos : ℕ)
  | dead
  | more (ths : List (Thread α τ ρ))

def run : List (Thread α τ ρ) → ℕ → List α → Result α τ ρ
  | ths, _, [] => .more ths
  | ths, pos, b :: bs =>
    match (advance ths pos b).find? fun th => th.rest.isEmpty with
    | some th => .accept th (pos + 1)
    | none =>
      if (advance ths pos b).isEmpty then .dead else run (advance ths pos b) (pos + 1) bs

/-- The list is in the language of the pattern, with its tags at these offsets. -/
inductive Matches : Pattern α τ → List α → Marks τ → Prop
  | nil : Matches [] [] []
  | one {p : α → Bool} {b : α} {q u ms} : p b = true → Matches q u ms →
    Matches (.one p :: q) (b :: u) (ms.shift 1)
  | skip {p : α → Bool} {q u ms} : Matches q u ms → Matches (.star p :: q) u ms
  | star {p : α → Bool} {b : α} {q u ms} : p b = true → Matches (.star p :: q) u ms →
    Matches (.star p :: q) (b :: u) (ms.shift 1)
  | tag {t : τ} {q u ms} : Matches q u ms → Matches (.tag t :: q) u ((t, 0) :: ms)

variable {ths ths' : List (Thread α τ ρ)} {th th' : Thread α τ ρ} {rule : Rule α τ ρ}
  {pos pos' : ℕ} {b : α} {bs bs' u : List α} {t : τ} {p q : Pattern α τ} {ms ms' : Marks τ}

/-! ## Scans -/

/-- What one symbol does. -/
theorem run_cons_cases (ths : List (Thread α τ ρ)) (pos : ℕ) (b : α) (bs : List α) :
    (∃ th ∈ advance ths pos b, th.rest = [] ∧ run ths pos (b :: bs) = .accept th (pos + 1)) ∨
    run ths pos (b :: bs) = .dead ∨
    run ths pos (b :: bs) = run (advance ths pos b) (pos + 1) bs := by
  rw [run]
  cases hf : (advance ths pos b).find? fun th => th.rest.isEmpty with
  | some th =>
    exact .inl ⟨th, List.mem_of_find?_eq_some hf, by simpa using List.find?_some hf, rfl⟩
  | none =>
    by_cases he : advance ths pos b = []
    · exact .inr (.inl (by simp [he]))
    · exact .inr (.inr (by simp [he]))

/-- `P` speaks of a thread and of what it has read, and is kept by each symbol. -/
theorem run_invariant {P : List α → Thread α τ ρ → Prop} {d : ℕ} (bs : List α)
    (hnext : ∀ u b th th', th.next (d + u.length) b = some th' → P u th → P (u ++ [b]) th')
    (h : ∀ th ∈ ths, P u th) :
    match run ths (d + u.length) bs with
    | .accept th pos => th.rest = [] ∧ ∃ v, v <+: bs ∧ pos = d + (u ++ v).length ∧ P (u ++ v) th
    | .dead => True
    | .more ths' => ∀ th ∈ ths', P (u ++ bs) th := by
  induction bs generalizing ths u with
  | nil =>
    rw [List.append_nil]
    exact h
  | cons b bs ih =>
    have hadv : ∀ th ∈ advance ths (d + u.length) b, P (u ++ [b]) th := by
      intro th' hth'
      obtain ⟨th, hth, hn⟩ := List.mem_filterMap.mp hth'
      exact hnext u b th th' hn (h th hth)
    have hlen : d + (u ++ [b]).length = d + u.length + 1 := by
      rw [List.length_append, List.length_singleton, Nat.add_assoc]
    rcases run_cons_cases ths (d + u.length) b bs with ⟨th, hth, hrest, hr⟩ | hr | hr
    · rw [hr]
      exact ⟨hrest, [b], List.prefix_append [b] bs, hlen.symm, hadv th hth⟩
    · rw [hr]
      trivial
    · have hrec := ih hadv
      rw [hlen] at hrec
      rw [hr]
      cases hres : run (advance ths (d + u.length) b) (d + u.length + 1) bs with
      | accept th pos =>
        rw [hres] at hrec
        obtain ⟨hrest, v, hv, hpos, hP⟩ := hrec
        rw [List.append_assoc] at hpos hP
        exact ⟨hrest, [b] ++ v, List.prefix_append_right_inj [b] |>.mpr hv, hpos, hP⟩
      | dead => trivial
      | more ths' =>
        rw [hres, List.append_assoc] at hrec
        exact hrec

/-- A scan that goes on has threads, and none of them has finished. -/
theorem run_more (h : run ths pos bs = .more ths') (hne : ths ≠ [] ∧ ∀ th ∈ ths, th.rest ≠ []) :
    ths' ≠ [] ∧ ∀ th ∈ ths', th.rest ≠ [] := by
  induction bs generalizing ths pos with
  | nil =>
    cases h
    exact hne
  | cons b bs ih =>
    rw [run] at h
    cases hf : (advance ths pos b).find? fun th => th.rest.isEmpty with
    | some th =>
      rw [hf] at h
      cases h
    | none =>
      rw [hf] at h
      dsimp only at h
      split_ifs at h with he
      refine ih h ⟨by simpa using he, fun th hth hnil => ?_⟩
      have hno := List.find?_eq_none.mp hf th hth
      simp [hnil] at hno

theorem run_accept_pos (h : run ths pos bs = .accept th pos') :
    pos < pos' ∧ pos' ≤ pos + bs.length := by
  induction bs generalizing ths pos with
  | nil => cases h
  | cons b bs ih =>
    rw [List.length_cons]
    rcases run_cons_cases ths pos b bs with ⟨th, -, -, hr⟩ | hr | hr
    · rw [hr] at h
      cases h
      omega
    · rw [hr] at h
      cases h
    · rw [hr] at h
      have hpos := ih h
      omega

/-- A scan of two pieces is a scan of the first that is taken up again. -/
theorem run_append (ths : List (Thread α τ ρ)) (pos : ℕ) (bs bs' : List α) :
    run ths pos (bs ++ bs') = match run ths pos bs with
      | .more ths' => run ths' (pos + bs.length) bs'
      | r => r := by
  induction bs generalizing ths pos with
  | nil => rfl
  | cons b bs ih =>
    have hlen : pos + (b :: bs).length = pos + 1 + bs.length := by
      rw [List.length_cons]
      omega
    rw [List.cons_append, hlen, run, run]
    cases (advance ths pos b).find? fun th => th.rest.isEmpty with
    | some th => rfl
    | none =>
      by_cases he : (advance ths pos b).isEmpty
      · rw [if_pos he, if_pos he]
      · rw [if_neg he, if_neg he]
        exact ih _ _

theorem run_accept_of_advance (h : advance ths pos b = th :: ths') (hrest : th.rest = []) :
    run ths pos (b :: bs) = .accept th (pos + 1) := by
  rw [run, h]
  simp [hrest]

theorem run_of_advance (h : advance ths pos b = th :: ths')
    (hrest : ∀ th' ∈ th :: ths', th'.rest ≠ []) :
    run ths pos (b :: bs) = run (th :: ths') (pos + 1) bs := by
  have hnone : (th :: ths').find? (fun th => th.rest.isEmpty) = none := by
    refine List.find?_eq_none.mpr fun th' hth' => ?_
    simpa using hrest th' hth'
  rw [run, h, hnone]
  rfl

/-- Symbols that leave the threads as they are. -/
theorem run_of_stay (hne : ths ≠ []) (hrest : ∀ th ∈ ths, th.rest ≠ [])
    (hstay : ∀ b ∈ u, ∀ pos, advance ths pos b = ths) :
    run ths pos (u ++ bs) = run ths (pos + u.length) bs := by
  induction u generalizing pos with
  | nil => rfl
  | cons b u ih =>
    obtain ⟨th, ths', rfl⟩ := List.exists_cons_of_ne_nil hne
    have hb := hstay b List.mem_cons_self pos
    rw [List.cons_append, run_of_advance hb hrest, ih fun b' hb' =>
      hstay b' (List.mem_cons_of_mem b hb'), List.length_cons, Nat.add_assoc, Nat.add_comm 1]

/-- One thread alone, over a list. -/
def Thread.follow : ℕ → List α → Thread α τ ρ → Option (Thread α τ ρ)
  | _, [], th => some th
  | pos, b :: bs, th => (th.next pos b).bind (Thread.follow (pos + 1) bs)

/-- A scan does not end before one of its threads does. -/
theorem run_follow (hth : th ∈ ths) (h : th.follow pos bs = some th') :
    run ths pos bs ≠ .dead ∧ ∀ ths', run ths pos bs = .more ths' → th' ∈ ths' := by
  induction bs generalizing ths th pos with
  | nil =>
    cases h
    refine ⟨by simp [run], fun ths' hr => ?_⟩
    cases hr
    exact hth
  | cons b bs ih =>
    obtain ⟨th₁, hnext, hrest⟩ := Option.bind_eq_some_iff.mp h
    have hmem : th₁ ∈ advance ths pos b := List.mem_filterMap.mpr ⟨th, hth, hnext⟩
    rw [run]
    cases (advance ths pos b).find? fun th => th.rest.isEmpty with
    | some th₂ => exact ⟨by simp, fun _ hr => by (cases hr)⟩
    | none =>
      have hne : ¬ (advance ths pos b).isEmpty = true := by
        rw [List.isEmpty_iff]
        exact List.ne_nil_of_mem hmem
      dsimp only
      rw [if_neg hne]
      exact ih hmem hrest

/-! ## Moving the input -/

def Thread.shift (d : ℕ) (th : Thread α τ ρ) : Thread α τ ρ := { th with marks := th.marks.shift d }

def Result.shift (d : ℕ) : Result α τ ρ → Result α τ ρ
  | .accept th pos => .accept (th.shift d) (pos + d)
  | .dead => .dead
  | .more ths => .more (ths.map (Thread.shift d))

theorem start_shift (rules : List (Rule α τ ρ)) (d : ℕ) :
    (start rules).map (Thread.shift d) = start rules := by
  rw [start, List.map_map]
  rfl

theorem next_shift (d : ℕ) :
    (th.shift d).next (pos + d) b = (th.next pos b).map (Thread.shift d) := by
  simp only [Thread.next, Thread.shift, Option.map_map]
  congr 1
  funext r
  simp only [Function.comp_apply, Thread.shift, Marks.shift, List.map_append, List.map_map]
  rfl

theorem advance_shift (d : ℕ) :
    advance (ths.map (Thread.shift d)) (pos + d) b = (advance ths pos b).map (Thread.shift d) := by
  rw [advance, advance, List.filterMap_map, List.map_filterMap]
  congr 1
  funext th
  exact next_shift d

/-- The positions of a scan count from where it starts. -/
theorem run_shift (d : ℕ) (ths : List (Thread α τ ρ)) (pos : ℕ) (bs : List α) :
    run (ths.map (Thread.shift d)) (pos + d) bs = (run ths pos bs).shift d := by
  induction bs generalizing ths pos with
  | nil => rfl
  | cons b bs ih =>
    rw [run, run, advance_shift, List.find?_map]
    have hrest : ((fun th : Thread α τ ρ => th.rest.isEmpty) ∘ Thread.shift d) =
        fun th => th.rest.isEmpty := rfl
    rw [hrest]
    cases (advance ths pos b).find? fun th => th.rest.isEmpty with
    | some th => exact congrArg (Result.accept _) (Nat.add_right_comm pos d 1)
    | none =>
      simp only [Option.map_none, List.isEmpty_map]
      split_ifs
      · rfl
      · rw [Nat.add_right_comm pos d 1]
        exact ih _ _

/-! ## Forgetting the marks -/

def Thread.unmark (th : Thread α τ ρ) : Thread α τ ρ := { th with marks := [] }

theorem next_unmark (pos pos' : ℕ) (h : th.unmark = th'.unmark) :
    (th.next pos b).map Thread.unmark = (th'.next pos' b).map Thread.unmark := by
  have hrest : th.unmark.rest = th'.unmark.rest := by rw [h]
  have hrule : th.unmark.rule = th'.unmark.rule := by rw [h]
  change th.rest = th'.rest at hrest
  change th.rule = th'.rule at hrule
  simp only [Thread.next, Option.map_map, hrest, hrule]
  congr 1

theorem advance_unmark (pos pos' : ℕ) (h : ths.map Thread.unmark = ths'.map Thread.unmark) :
    (advance ths pos b).map Thread.unmark = (advance ths' pos' b).map Thread.unmark := by
  induction ths generalizing ths' with
  | nil =>
    rw [List.map_nil, eq_comm, List.map_eq_nil_iff] at h
    rw [h]
    rfl
  | cons th ths ih =>
    cases ths' with
    | nil => cases h
    | cons th' ths' =>
      obtain ⟨hhead, htail⟩ := List.cons.inj h
      have hnext := next_unmark (b := b) pos pos' hhead
      have hrec := ih htail
      simp only [advance, List.map_filterMap] at hrec ⊢
      rw [List.filterMap_cons, List.filterMap_cons, hnext, hrec]

/-- Marks do not decide whether a scan goes on. -/
theorem run_more_unmark (pos' : ℕ) (h : ths.map Thread.unmark = ths'.map Thread.unmark)
    {us : List (Thread α τ ρ)} (hrun : run ths pos bs = .more us) :
    ∃ us', run ths' pos' bs = .more us' ∧ us.map Thread.unmark = us'.map Thread.unmark := by
  induction bs generalizing ths ths' pos pos' with
  | nil =>
    cases hrun
    exact ⟨ths', rfl, h⟩
  | cons b bs ih =>
    have hadv := advance_unmark (b := b) pos pos' h
    have hend : ∀ l : List (Thread α τ ρ), l.find? (fun th => th.rest.isEmpty) = none ↔
        (l.map Thread.unmark).find? (fun th => th.rest.isEmpty) = none := by
      intro l
      rw [List.find?_map, Option.map_eq_none_iff]
      rfl
    rw [run] at hrun ⊢
    cases hf : (advance ths pos b).find? fun th => th.rest.isEmpty with
    | some th =>
      rw [hf] at hrun
      cases hrun
    | none =>
      rw [hf] at hrun
      rw [(hend _).mpr (hadv ▸ (hend _).mp hf)]
      dsimp only at hrun ⊢
      have hempty : (advance ths' pos' b).isEmpty = (advance ths pos b).isEmpty := by
        rw [← List.isEmpty_map (f := Thread.unmark), ← hadv, List.isEmpty_map]
      rw [hempty]
      split_ifs at hrun ⊢
      exact ih _ hadv hrun

/-! ## What a pattern means -/

theorem derive_matches {ts : List τ} (h : derive p b = some (q, ts)) (hm : Matches q u ms) :
    Matches p (b :: u) (ts.map (·, 0) ++ ms.shift 1) := by
  induction p generalizing ts with
  | nil => cases h
  | cons a p ih =>
    cases a with
    | one c =>
      rw [derive] at h
      split_ifs at h with hc
      cases h
      exact .one hc hm
    | star c =>
      rw [derive] at h
      split_ifs at h with hc
      · cases h
        exact .star hc hm
      · exact .skip (ih h)
    | tag t =>
      obtain ⟨⟨q', ts'⟩, hq, heq⟩ := Option.map_eq_some_iff.mp h
      cases heq
      exact .tag (ih hq)

theorem shift_shift (d d' : ℕ) : (ms.shift d).shift d' = ms.shift (d + d') := by
  simp [Marks.shift, Nat.add_assoc]

theorem shift_append (d : ℕ) : Marks.shift d (ms ++ ms') = ms.shift d ++ ms'.shift d := by
  simp [Marks.shift]

@[simp] theorem shift_zero : ms.shift 0 = ms := by simp [Marks.shift]

/-- What a thread has read and what its rest matches are matched by its rule. -/
def Thread.Follows (u : List α) (th : Thread α τ ρ) : Prop :=
  ∀ v ms, Matches th.rest v ms → Matches th.rule.pattern (u ++ v) (th.marks ++ ms.shift u.length)

theorem Thread.Follows.next (h : th.Follows u) (hn : th.next u.length b = some th') :
    th'.Follows (u ++ [b]) := by
  obtain ⟨⟨q, ts⟩, hd, rfl⟩ := Option.map_eq_some_iff.mp hn
  intro v ms hm
  have hfull := h _ _ (derive_matches hd hm)
  have hts : Marks.shift u.length (ts.map (·, 0)) = ts.map (·, u.length) := by
    simp [Marks.shift]
  rw [shift_append, shift_shift, hts, Nat.add_comm 1] at hfull
  simpa [List.append_assoc] using hfull

/-- A scan accepts what its rule matches. -/
theorem run_accept_matches {rules : List (Rule α τ ρ)}
    (h : run (start rules) 0 bs = .accept th pos) :
    th.rule ∈ rules ∧ Matches th.rule.pattern (bs.take pos) th.marks := by
  have hstart : ∀ th ∈ start rules, th.rule ∈ rules ∧ th.Follows [] := by
    intro th hth
    obtain ⟨rule, hrule, rfl⟩ := List.mem_map.mp hth
    refine ⟨hrule, fun v ms hm => ?_⟩
    simpa using hm
  have hrun := run_invariant (d := 0) bs (P := fun u th => th.rule ∈ rules ∧ th.Follows u) ?_ hstart
  · rw [List.length_nil, Nat.add_zero, h] at hrun
    obtain ⟨hrest, v, hv, hpos, hmem, hf⟩ := hrun
    rw [Nat.zero_add, List.nil_append] at hpos
    rw [List.nil_append] at hf
    have hm := hf [] [] (by rw [hrest]; exact .nil)
    rw [hpos, ← List.prefix_iff_eq_take.mp hv]
    simp only [List.append_nil, Marks.shift, List.map_nil] at hm
    exact ⟨hmem, hm⟩
  · rintro u b th th' hn ⟨hmem, hf⟩
    rw [Nat.zero_add] at hn
    refine ⟨?_, hf.next hn⟩
    obtain ⟨r, -, rfl⟩ := Option.map_eq_some_iff.mp hn
    exact hmem

/-! ## Putting matches together -/

theorem Matches.append {w : List α} (h : Matches p u ms) (h' : Matches q w ms') :
    ∃ ms'', Matches (p ++ q) (u ++ w) ms'' := by
  induction h with
  | nil => exact ⟨ms', h'⟩
  | one hb _ ih =>
    obtain ⟨_, hm⟩ := ih
    exact ⟨_, .one hb hm⟩
  | skip _ ih =>
    obtain ⟨_, hm⟩ := ih
    exact ⟨_, .skip hm⟩
  | star hb _ ih =>
    obtain ⟨_, hm⟩ := ih
    exact ⟨_, .star hb hm⟩
  | tag _ ih =>
    obtain ⟨_, hm⟩ := ih
    exact ⟨_, .tag hm⟩

theorem matches_star {c : α → Bool} (h : ∀ b ∈ u, c b = true) :
    ∃ ms, Matches ([.star c] : Pattern α τ) u ms := by
  induction u with
  | nil => exact ⟨_, .skip .nil⟩
  | cons b u ih =>
    rw [List.forall_mem_cons] at h
    obtain ⟨_, hm⟩ := ih h.2
    exact ⟨_, .star h.1 hm⟩

/-! ## Following a match -/

/-- A star that could also be left with a symbol it takes loses nothing by staying. -/
def Greedy : Pattern α τ → Prop
  | [] => True
  | .one _ :: q => Greedy q
  | .star p :: q =>
    (∀ b, p b = true → derive q b = none ∨ ∃ ts, derive q b = some (q, ts)) ∧ Greedy q
  | .tag _ :: q => Greedy q

theorem Greedy.derive {ts : List τ} (hg : Greedy p) (h : derive p b = some (q, ts)) : Greedy q := by
  induction p generalizing ts with
  | nil => cases h
  | cons a p ih =>
    cases a with
    | one c =>
      rw [Scanner.derive] at h
      split_ifs at h with hc
      cases h
      exact hg
    | star c =>
      rw [Scanner.derive] at h
      split_ifs at h with hc
      · cases h
        exact hg
      · exact ih hg.2 h
    | tag t =>
      obtain ⟨⟨q', ts'⟩, hq, heq⟩ := Option.map_eq_some_iff.mp h
      cases heq
      exact ih hg hq

/-- After the first symbol of a match, what is left of the pattern matches the rest. -/
theorem matches_derive (hg : Greedy p) (h : Matches p (b :: u) ms) :
    ∃ q ts, derive p b = some (q, ts) ∧ ∃ ms', Matches q u ms' := by
  induction p generalizing ms with
  | nil => cases h
  | cons a p ih =>
    cases a with
    | one c =>
      cases h with
      | one hc hm => exact ⟨p, [], by rw [derive, if_pos hc], _, hm⟩
    | star c =>
      cases h with
      | skip hm =>
        obtain ⟨q, ts, hd, ms', hq⟩ := ih hg.2 hm
        by_cases hc : c b = true
        · refine ⟨.star c :: p, [], by rw [derive, if_pos hc], ms', ?_⟩
          rcases hg.1 b hc with hnone | ⟨ts', hsame⟩
          · rw [hnone] at hd
            cases hd
          · rw [hsame] at hd
            cases hd
            exact .skip hq
        · exact ⟨q, ts, by rw [derive, if_neg hc, hd], ms', hq⟩
      | star hc hm => exact ⟨.star c :: p, [], by rw [derive, if_pos hc], _, hm⟩
    | tag t =>
      cases h with
      | tag hm =>
        obtain ⟨q, ts, hd, hq⟩ := ih hg hm
        exact ⟨q, t :: ts, by rw [derive, hd]; rfl, hq⟩

/-- A thread follows what its pattern matches. -/
theorem matches_follow (th : Thread α τ ρ) (pos : ℕ) (hg : Greedy th.rest)
    (h : Matches th.rest u ms) :
    ∃ th', th.follow pos u = some th' ∧ th'.rule = th.rule ∧ ∃ ms', Matches th'.rest [] ms' := by
  induction u generalizing th ms pos with
  | nil => exact ⟨th, rfl, rfl, ms, h⟩
  | cons b u ih =>
    obtain ⟨q, ts, hd, ms', hm⟩ := matches_derive hg h
    have hnext : th.next pos b = some ⟨q, th.rule, th.marks ++ ts.map (·, pos)⟩ := by
      rw [Thread.next, hd]
      rfl
    obtain ⟨th', hf, hrule, hend⟩ := ih ⟨q, th.rule, th.marks ++ ts.map (·, pos)⟩ (pos + 1)
      (hg.derive hd) hm
    exact ⟨th', by rw [Thread.follow, hnext, Option.bind_some, hf], hrule, hend⟩

/-- If the rules that meet `P` come first, they are the first to accept. -/
theorem run_accept_first {P : Rule α τ ρ → Prop}
    (hord : ths.Pairwise fun a b => P b.rule → P a.rule) (hth : th ∈ ths)
    (hf : th.follow pos bs = some th') (hend : th'.rest = []) (hP : P th'.rule)
    {th₂ : Thread α τ ρ} (hr : run ths pos bs = .accept th₂ (pos + bs.length)) : P th₂.rule := by
  induction bs generalizing ths th pos with
  | nil => cases hr
  | cons b bs ih =>
    obtain ⟨th₁, hnext, hrest⟩ := Option.bind_eq_some_iff.mp hf
    have hmem : th₁ ∈ advance ths pos b := List.mem_filterMap.mpr ⟨th, hth, hnext⟩
    have hadv : (advance ths pos b).Pairwise fun a b => P b.rule → P a.rule := by
      refine List.Pairwise.filterMap _ ?_ hord
      intro a a' haa c hc c' hc'
      obtain ⟨r, -, rfl⟩ := Option.map_eq_some_iff.mp hc
      obtain ⟨r', -, rfl⟩ := Option.map_eq_some_iff.mp hc'
      exact haa
    rw [run] at hr
    cases hfind : (advance ths pos b).find? fun th => th.rest.isEmpty with
    | some th₃ =>
      rw [hfind] at hr
      obtain ⟨rfl, hpos⟩ := Result.accept.inj hr
      rw [List.length_cons] at hpos
      have hnil : bs = [] := List.eq_nil_of_length_eq_zero (by omega)
      subst hnil
      cases hrest
      obtain ⟨-, l, r, heq, hl⟩ := List.find?_eq_some_iff_append.mp hfind
      rw [heq] at hadv hmem
      rw [List.mem_append, List.mem_cons] at hmem
      rcases hmem with hbefore | rfl | hafter
      · have hno := hl _ hbefore
        simp [hend] at hno
      · exact hP
      · exact (List.pairwise_cons.mp (List.pairwise_append.mp hadv).2.1).1 _ hafter hP
    | none =>
      rw [hfind] at hr
      dsimp only at hr
      split_ifs at hr with hempty
      refine ih hadv hmem hrest ?_
      rw [hr, List.length_cons, Nat.add_assoc, Nat.add_comm 1]

/-! ## Taking a match apart -/

theorem Matches.split (h : Matches (p ++ q) u ms) :
    ∃ v w ms₁ ms₂, u = v ++ w ∧ ms = ms₁ ++ ms₂.shift v.length ∧ Matches p v ms₁ ∧
    Matches q w ms₂ := by
  generalize hr : p ++ q = r at h
  induction h generalizing p with
  | nil =>
    obtain ⟨rfl, rfl⟩ := List.append_eq_nil_iff.mp hr
    exact ⟨[], [], [], [], rfl, rfl, .nil, .nil⟩
  | one hb hm ih =>
    cases p with
    | nil =>
      rw [List.nil_append] at hr
      subst hr
      exact ⟨[], _, [], _, rfl, by simp, .nil, .one hb hm⟩
    | cons a p =>
      obtain ⟨rfl, hr'⟩ := List.cons.inj hr
      obtain ⟨v, w, ms₁, ms₂, rfl, rfl, h1, h2⟩ := ih hr'
      refine ⟨_ :: v, w, ms₁.shift 1, ms₂, rfl, ?_, .one hb h1, h2⟩
      rw [shift_append, shift_shift, List.length_cons]
  | skip hm ih =>
    cases p with
    | nil =>
      rw [List.nil_append] at hr
      subst hr
      exact ⟨[], _, [], _, rfl, by simp, .nil, .skip hm⟩
    | cons a p =>
      obtain ⟨rfl, hr'⟩ := List.cons.inj hr
      obtain ⟨v, w, ms₁, ms₂, rfl, rfl, h1, h2⟩ := ih hr'
      exact ⟨v, w, ms₁, ms₂, rfl, rfl, .skip h1, h2⟩
  | star hb hm ih =>
    cases p with
    | nil =>
      rw [List.nil_append] at hr
      subst hr
      exact ⟨[], _, [], _, rfl, by simp, .nil, .star hb hm⟩
    | cons a p =>
      obtain ⟨rfl, hr'⟩ := List.cons.inj hr
      obtain ⟨v, w, ms₁, ms₂, rfl, rfl, h1, h2⟩ := ih hr
      refine ⟨_ :: v, w, ms₁.shift 1, ms₂, rfl, ?_, .star hb h1, h2⟩
      rw [shift_append, shift_shift, List.length_cons]
  | tag hm ih =>
    cases p with
    | nil =>
      rw [List.nil_append] at hr
      subst hr
      exact ⟨[], _, [], _, rfl, by simp, .nil, .tag hm⟩
    | cons a p =>
      obtain ⟨rfl, hr'⟩ := List.cons.inj hr
      obtain ⟨v, w, ms₁, ms₂, rfl, rfl, h1, h2⟩ := ih hr'
      exact ⟨v, w, (_, 0) :: ms₁, ms₂, rfl, rfl, .tag h1, h2⟩

theorem Matches.of_nil (h : Matches ([] : Pattern α τ) u ms) : u = [] ∧ ms = [] := by
  cases h
  exact ⟨rfl, rfl⟩

theorem Matches.of_tag {t : τ} (h : Matches [.tag t] u ms) : u = [] ∧ ms = [(t, 0)] := by
  cases h with
  | tag h =>
    obtain ⟨rfl, rfl⟩ := h.of_nil
    exact ⟨rfl, rfl⟩

theorem Matches.of_star {p : α → Bool} (h : Matches ([.star p] : Pattern α τ) u ms) :
    (∀ b ∈ u, p b = true) ∧ ms = [] := by
  generalize hr : ([.star p] : Pattern α τ) = r at h
  induction h with
  | nil => cases hr
  | one => cases hr
  | skip h _ =>
    cases hr
    obtain ⟨rfl, rfl⟩ := h.of_nil
    exact ⟨by simp, rfl⟩
  | star hb _ ih =>
    cases hr
    obtain ⟨hall, rfl⟩ := ih rfl
    exact ⟨by simpa [hb] using hall, rfl⟩
  | tag => cases hr

end Scanner
