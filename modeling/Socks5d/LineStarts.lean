import Socks5d.Requests

/-! # Where commands begin

A line that one of the rules can follow to its end is one token. Of any other line the
lexer drops the first byte and starts again behind it, so that a command may begin in
the middle of a line. -/

namespace Socks5d
open Memory Scanner

variable {cond : Cond} {u v bs rest : List UInt8} {t : MgmtToken} {rule : MgmtRule} {ms : Marks Tag}

def MgmtCommand.isCommand (cmd : MgmtCommand) : Bool := cmd ≠ .invalidCmd && cmd ≠ .invalidArgs

/-! ## The rules as a grammar -/

theorem greedy_ones {γ : Type} (l : List γ) (f : γ → UInt8 → Bool) {q : MgmtPattern}
    (hq : Greedy q) :
    Greedy (l.map (fun x => .one (f x)) ++ q) := by
  induction l with
  | nil => exact hq
  | cons x l ih => exact ih

theorem derive_crlf {b : UInt8} (hb : b ≠ 0xd) : derive crlf b = none := if_neg (by simpa using hb)

theorem isSpace_derive {b : UInt8} (hb : isSpace b = true) : derive crlf b = none := by
  refine derive_crlf ?_
  rintro rfl
  cases hb

theorem greedy_spaces : Greedy ([.star isSpace] ++ crlf) :=
  ⟨fun _ hb => .inl (isSpace_derive hb), trivial⟩

theorem greedy_argument {p : UInt8 → Bool} (hp : ∀ b, p b = true → isArg b = true) :
    Greedy (argument p ++ crlf) := by
  refine ⟨fun b hb => .inl ?_, fun b hb => .inl ?_, greedy_spaces⟩
  · have hnot : p b = false := by
      by_contra hpb
      have harg := isArg_iff.mp (hp b (by simpa using hpb))
      rw [hb] at harg
      cases harg.2
    change ((if p b = true then _ else none : Option _)).map _ = none
    rw [hnot]
    rfl
  · have harg := isArg_iff.mp (hp b hb)
    change ((if isSpace b = true then _ else derive crlf b : Option _)).map _ = none
    rw [harg.2, if_neg (by simp), derive_crlf]
    · rfl
    rintro rfl
    cases harg.1

theorem greedy_word (s : String) {p : MgmtPattern} (c : Option Cond) (cmd : MgmtCommand)
    (e : ArgEnd) (hp : Greedy (p ++ crlf)) : Greedy (line c (word s ++ p) cmd e).2.pattern := by
  change Greedy (word s ++ p ++ crlf)
  rw [List.append_assoc]
  exact greedy_ones _ _ hp

theorem greedy_args (c : String) :
    Greedy (line none (word c ++ some1 isSpace ++ [.star (· ≠ 0xd)]) .invalidArgs
      .none).2.pattern := by
  have hrest : Greedy (some1 isSpace ++ [.star (· ≠ 0xd)] ++ crlf) := by
    refine ⟨fun b hb => .inr ⟨[], ?_⟩, fun b hb => .inl ?_, trivial⟩
    · have hne : b ≠ 0xd := by
        rintro rfl
        cases hb
      exact if_pos (by simpa using hne)
    · exact derive_crlf (by simpa using hb)
  rw [List.append_assoc (word c)]
  exact greedy_word c _ _ _ hrest

theorem requestRules_greedy : ∀ r ∈ requestRules, Greedy r.2.pattern := by
  intro r hr
  simp only [requestRules, List.mem_append, List.mem_cons, List.mem_map, List.not_mem_nil,
    or_false] at hr
  have hspace : ∀ b : UInt8, isSpace b = true → b = 0x20 := fun b hb => by simpa [isSpace] using hb
  have hsome : Greedy (some1 isSpace ++ crlf) := greedy_spaces
  have hon : Greedy (keyword "on" ++ crlf) := ⟨fun b hb => .inl (by rw [hspace b hb]; rfl), trivial⟩
  have hoff : Greedy (keyword "off" ++ crlf) :=
    ⟨fun b hb => .inl (by rw [hspace b hb]; rfl), trivial⟩
  rcases hr with ((rfl | rfl | rfl | rfl | rfl | rfl | rfl | rfl | rfl | rfl | rfl) |
    ⟨c, -, rfl⟩) | rfl | rfl
  · exact greedy_word "token" _ _ _ (greedy_argument fun _ h => h)
  · exact greedy_word "stats" _ _ _ greedy_spaces
  · exact greedy_word "users" _ _ _ greedy_spaces
  · exact greedy_word "buffsize" _ _ _ greedy_spaces
  · exact greedy_word "set-buffsize" _ _ _ (greedy_argument fun _ => isNumarg_isArg)
  · exact greedy_word "dissector-status" _ _ _ hsome
  · exact greedy_word "set-dissector-status" _ _ _ hon
  · exact greedy_word "set-dissector-status" _ _ _ hoff
  · exact greedy_word "add-user" _ _ _ (greedy_argument fun _ h => h)
  · exact greedy_word "quit" _ _ _ greedy_spaces
  · exact greedy_word "capa" _ _ _ greedy_spaces
  · exact greedy_args c
  · refine ⟨fun b hb => .inl (derive_crlf ?_), trivial⟩
    rintro rfl
    cases hb
  · trivial

theorem matches_noReturn {body : MgmtPattern} (h : Matches body u ms)
    (hbody : body.all rejectsCr = true) :
    0xd ∉ u := by
  induction h with
  | nil => simp
  | one hb _ ih =>
    rw [List.all_cons, Bool.and_eq_true] at hbody
    rw [List.mem_cons, not_or]
    refine ⟨?_, ih hbody.2⟩
    rintro rfl
    simp [rejectsCr, hb] at hbody
  | skip _ ih =>
    rw [List.all_cons, Bool.and_eq_true] at hbody
    exact ih hbody.2
  | star hb _ ih =>
    rw [List.mem_cons, not_or]
    refine ⟨?_, ih hbody⟩
    rintro rfl
    simp [rejectsCr, hb] at hbody
  | tag _ ih =>
    rw [List.all_cons, Bool.and_eq_true] at hbody
    exact ih hbody.2

/-- What a rule matches ends with the only end of a line in it. -/
theorem rulesOf_body (h : rule ∈ rulesOf cond) (hm : Matches rule.pattern u ms) :
    ∃ v, u = v ++ [0xd, 0xa] ∧ 0xd ∉ v := by
  obtain ⟨c, hmem, -⟩ := rulesOf_mem h
  obtain ⟨body, hbody, hall⟩ := requestRules_line _ hmem
  rw [hbody] at hm
  obtain ⟨v, w, ms₁, ms₂, rfl, -, hv, hw⟩ := hm.split
  rw [(matches_crlf hw).1]
  exact ⟨v, rfl, matches_noReturn hv hall⟩

/-! ## Lines -/

/-- The line begins with one of the words in `cmds` and a space. -/
def LedByWord (v : List UInt8) : Prop :=
  0xd ∉ v ∧ ∃ c ∈ cmds, ∃ w r, v = w ++ 0x20 :: r ∧ Matches (word c) w []

/-- A line that some rule follows to its end. -/
def Live (v : List UInt8) : Prop := (∀ b ∈ v, isPrint b = true) ∨ LedByWord v

/-- A line that is a command in this condition. -/
def IsCommand (cond : Cond) (v : List UInt8) : Prop :=
  ∃ rule ∈ rulesOf cond, rule.result.cmd.isCommand = true ∧
    ∃ ms, Matches rule.pattern (v ++ [0xd, 0xa]) ms

def prints : Atom UInt8 Tag → Prop
  | .one p => ∀ b, p b = true → isPrint b = true
  | .star p => ∀ b, p b = true → isPrint b = true
  | .tag _ => True

theorem matches_prints {body : MgmtPattern} (h : Matches body u ms) (hbody : ∀ a ∈ body, prints a) :
    ∀ b ∈ u, isPrint b = true := by
  induction h with
  | nil => simp
  | one hb _ ih =>
    rw [List.forall_mem_cons] at hbody ⊢
    exact ⟨hbody.1 _ hb, ih hbody.2⟩
  | skip _ ih =>
    rw [List.forall_mem_cons] at hbody
    exact ih hbody.2
  | star hb _ ih =>
    rw [List.forall_mem_cons]
    exact ⟨(List.forall_mem_cons.mp hbody).1 _ hb, ih hbody⟩
  | tag _ ih =>
    rw [List.forall_mem_cons] at hbody
    exact ih hbody.2

theorem word_prints {s : String} (h : ∀ c ∈ s.toList, isPrint (byte c.toLower) = true ∧
    isPrint (byte c.toUpper) = true) : ∀ a ∈ word s, prints a := by
  intro a ha
  obtain ⟨c, hc, rfl⟩ := List.mem_map.mp ha
  intro b hb
  simp only [Bool.or_eq_true, decide_eq_true_eq] at hb
  rcases hb with rfl | rfl
  · exact (h c hc).1
  · exact (h c hc).2

theorem isSpace_prints {b : UInt8} (hb : isSpace b = true) : isPrint b = true := by
  have heq : b = 0x20 := by simpa [isSpace] using hb
  rw [heq]
  rfl

theorem spaces_print : ∀ a ∈ ([.star isSpace] : MgmtPattern), prints a := by
  rw [List.forall_mem_singleton]
  exact fun _ => isSpace_prints

theorem argument_prints {p : UInt8 → Bool} (hp : ∀ b, p b = true → isArg b = true) :
    ∀ a ∈ argument p, prints a := by
  have hprint : ∀ b, p b = true → isPrint b = true := fun b hb => (isArg_iff.mp (hp b hb)).1
  simp only [argument, some1, List.cons_append, List.nil_append, List.forall_mem_cons]
  exact ⟨fun _ => isSpace_prints, fun _ => isSpace_prints, trivial, hprint, hprint, trivial,
    fun _ => isSpace_prints, by simp⟩

/-- All but the rules for wrong arguments stay with what can be printed. -/
theorem requestRules_prints : ∀ r ∈ requestRules,
    (∃ body, r.2.pattern = body ++ crlf ∧ ∀ a ∈ body, prints a) ∨
    (r.2.result.cmd = .invalidArgs ∧ ∃ c ∈ cmds,
      r.2.pattern = word c ++ some1 isSpace ++ [.star (· ≠ 0xd)] ++ crlf) := by
  intro r hr
  simp only [requestRules, List.mem_append, List.mem_cons, List.mem_map, List.not_mem_nil,
    or_false] at hr
  have hline : ∀ (s : String) (p : MgmtPattern),
      (s.toList.all fun c => isPrint (byte c.toLower) && isPrint (byte c.toUpper)) = true →
      (∀ a ∈ p, prints a) → ∀ a ∈ word s ++ p, prints a := by
    intro s p hs hp
    simp only [List.all_eq_true, Bool.and_eq_true] at hs
    rw [List.forall_mem_append]
    exact ⟨word_prints hs, hp⟩
  have hsome : ∀ a ∈ some1 isSpace, prints a := by
    simp only [some1, List.forall_mem_cons]
    exact ⟨fun _ => isSpace_prints, fun _ => isSpace_prints, by simp⟩
  have hkeyword : ∀ k : String, (k.toList.all fun c => isPrint (byte c)) = true →
      ∀ a ∈ keyword k, prints a := by
    intro k hk
    rw [List.all_eq_true] at hk
    simp only [keyword, List.forall_mem_append, List.forall_mem_singleton]
    refine ⟨⟨hsome, trivial⟩, fun a ha => ?_⟩
    obtain ⟨c, hc, rfl⟩ := List.mem_map.mp ha
    intro b hb
    rw [of_decide_eq_true hb]
    exact hk c hc
  rcases hr with ((rfl | rfl | rfl | rfl | rfl | rfl | rfl | rfl | rfl | rfl | rfl) |
    ⟨c, hc, rfl⟩) | rfl | rfl
  · exact .inl ⟨_, rfl, hline "token" _ (by decide +kernel) (argument_prints fun _ h => h)⟩
  · exact .inl ⟨_, rfl, hline "stats" _ (by decide +kernel) spaces_print⟩
  · exact .inl ⟨_, rfl, hline "users" _ (by decide +kernel) spaces_print⟩
  · exact .inl ⟨_, rfl, hline "buffsize" _ (by decide +kernel) spaces_print⟩
  · exact .inl ⟨_, rfl, hline "set-buffsize" _ (by decide +kernel)
      (argument_prints fun _ => isNumarg_isArg)⟩
  · exact .inl ⟨_, rfl, hline "dissector-status" _ (by decide +kernel) hsome⟩
  · exact .inl ⟨_, rfl, hline "set-dissector-status" _ (by decide +kernel)
      (hkeyword "on" (by decide +kernel))⟩
  · exact .inl ⟨_, rfl, hline "set-dissector-status" _ (by decide +kernel)
      (hkeyword "off" (by decide +kernel))⟩
  · exact .inl ⟨_, rfl, hline "add-user" _ (by decide +kernel) (argument_prints fun _ h => h)⟩
  · exact .inl ⟨_, rfl, hline "quit" _ (by decide +kernel) spaces_print⟩
  · exact .inl ⟨_, rfl, hline "capa" _ (by decide +kernel) spaces_print⟩
  · exact .inr ⟨rfl, c, hc, rfl⟩
  · refine .inl ⟨some1 isPrint, rfl, ?_⟩
    simp only [some1, List.forall_mem_cons]
    exact ⟨fun _ h => h, fun _ h => h, by simp⟩
  · exact .inl ⟨[], rfl, by simp⟩

theorem matches_line_prints (h : rule ∈ rulesOf cond)
    (hm : Matches rule.pattern (v ++ [0xd, 0xa]) ms) :
    (∀ b ∈ v, isPrint b = true) ∨ (rule.result.cmd = .invalidArgs ∧ LedByWord v) := by
  obtain ⟨v', hv', hno⟩ := rulesOf_body h hm
  obtain rfl := List.append_cancel_right hv'
  obtain ⟨c, hmem, -⟩ := rulesOf_mem h
  rcases requestRules_prints _ hmem with ⟨body, hbody, hprint⟩ | ⟨hcmd, c, hc, hbody⟩
  · dsimp only at hbody
    rw [hbody] at hm
    obtain ⟨x, y, ms₁, ms₂, heq, -, hx, hy⟩ := hm.split
    rw [(matches_crlf hy).1] at heq
    obtain rfl := List.append_cancel_right heq
    exact .inl (matches_prints hx hprint)
  · dsimp only at hbody
    rw [hbody, List.append_assoc (word c)] at hm
    obtain ⟨w, x, m, heq, -, hw, hx⟩ := matches_line hm
    obtain rfl := List.append_cancel_right heq
    obtain ⟨sp, r, ms₁, ms₂, rfl, -, hsp, -⟩ := hx.split
    obtain ⟨hne, hspace, -⟩ := matches_some1 hsp
    obtain ⟨b, sp, rfl⟩ := List.exists_cons_of_ne_nil hne
    have hb : b = 0x20 := by simpa [isSpace] using hspace b List.mem_cons_self
    refine .inr ⟨hcmd, hno, c, hc, w, sp ++ r, ?_, hw⟩
    rw [hb, List.cons_append]

/-- A command can be printed. -/
theorem IsCommand.prints (h : IsCommand cond v) : ∀ b ∈ v, isPrint b = true := by
  obtain ⟨rule, hrule, hcmd, ms, hm⟩ := h
  rcases matches_line_prints hrule hm with hprint | ⟨hargs, -⟩
  · exact hprint
  · rw [hargs] at hcmd
    cases hcmd

/-- A line that is live is matched by a rule that is there in both conditions. -/
theorem Live.matches (h : Live v) (cond : Cond) :
    ∃ rule ∈ rulesOf cond, ∃ ms, Matches rule.pattern (v ++ [0xd, 0xa]) ms := by
  have hcrlf : Matches crlf [0xd, 0xa] [] := .one rfl (.one rfl .nil)
  have hmem : ∀ rule, (none, rule) ∈ requestRules → rule ∈ rulesOf cond := by
    intro rule hrule
    exact List.mem_filterMap.mpr ⟨(none, rule), hrule, if_pos (.inl rfl)⟩
  rcases h with hprint | ⟨hno, c, hc, w, r, rfl, hw⟩
  · cases v with
    | nil => exact ⟨⟨crlf, ⟨.invalidCmd, .none⟩⟩, hmem _ (by simp [requestRules, line]), _, hcrlf⟩
    | cons b v =>
      rw [List.forall_mem_cons] at hprint
      obtain ⟨ms, hv⟩ := matches_star hprint.2
      obtain ⟨ms', hm⟩ := (Matches.one hprint.1 hv).append hcrlf
      exact ⟨printRule, hmem _ (by simp [requestRules, line, printRule]), ms', hm⟩
  · have hr : ∀ b ∈ r, (fun b : UInt8 => decide (b ≠ 0xd)) b = true := by
      intro b hb
      simpa using ne_of_mem_of_not_mem hb fun hbad => hno (by simp [hbad])
    obtain ⟨ms, hm⟩ := matches_star hr
    obtain ⟨ms₁, hm₁⟩ :=
      hw.append (Matches.one (p := isSpace) (b := 0x20) rfl (.skip (p := isSpace) hm))
    obtain ⟨ms₂, hm₂⟩ := hm₁.append hcrlf
    refine ⟨⟨word c ++ some1 isSpace ++ [.star (· ≠ 0xd)] ++ crlf, ⟨.invalidArgs, .none⟩⟩,
      hmem _ ?_, ms₂, ?_⟩
    · simp only [requestRules, List.mem_append, List.mem_map]
      exact .inl (.inr ⟨c, hc, rfl⟩)
    · rw [List.append_assoc (word c)]
      exact hm₂

/-! ## The token at the start of a line -/

/-- The first end of a line. -/
theorem line_unique {r r' : List UInt8} (hu : 0xd ∉ u) (hv : ¬ [0xd, 0xa] <:+: v)
    (h : u ++ 0xd :: 0xa :: r = v ++ 0xd :: 0xa :: r') : u = v := by
  rcases List.append_eq_append_iff.mp h with ⟨a, rfl, ha⟩ | ⟨a, rfl, ha⟩
  · cases a with
    | nil => exact (List.append_nil u).symm
    | cons b a =>
      obtain ⟨rfl, ha'⟩ := List.cons.inj ha
      cases a with
      | nil => cases ha'
      | cons c a =>
        obtain ⟨rfl, -⟩ := List.cons.inj ha'
        exact absurd ⟨u, a, by simp⟩ hv
  · cases a with
    | nil => exact List.append_nil v
    | cons b a =>
      obtain ⟨rfl, -⟩ := List.cons.inj ha
      exact absurd (List.mem_append_right v List.mem_cons_self) hu

/-- What is accepted is one line. -/
theorem accept_line {th : MgmtThread} {pos : ℕ}
    (h : run (start (rulesOf cond)) 0 bs = .accept th pos) :
    ∃ u, bs.take pos = u ++ [0xd, 0xa] ∧ pos = u.length + 2 ∧ 0xd ∉ u := by
  obtain ⟨hrule, hm⟩ := run_accept_matches h
  obtain ⟨u, hu, hno⟩ := rulesOf_body hrule hm
  have hle := (run_accept_pos h).2
  rw [Nat.zero_add] at hle
  have hlen := congrArg List.length hu
  rw [List.length_take, Nat.min_eq_left hle, List.length_append] at hlen
  exact ⟨u, hu, hlen, hno⟩

theorem rulesOf_ordered (cond : Cond) : (start (rulesOf cond)).Pairwise fun a b =>
    b.rule.result.cmd.isCommand = true → a.rule.result.cmd.isCommand = true := by
  have hrules : (rulesOf cond).Pairwise fun a b =>
      b.result.cmd.isCommand = true → a.result.cmd.isCommand = true := by
    cases cond <;> decide
  exact hrules.map _ fun _ _ h => h

theorem follow_atLine {th th' : MgmtThread} {pos : ℕ} {w : List UInt8} (h : AtLine u th)
    (hf : th.follow pos w = some th') : AtLine (u ++ w) th' := by
  induction w generalizing u th pos with
  | nil =>
    cases hf
    rw [List.append_nil]
    exact h
  | cons b w ih =>
    obtain ⟨th₁, hnext, hrest⟩ := Option.bind_eq_some_iff.mp hf
    have hcons := ih (h.next hnext) hrest
    rw [List.append_assoc] at hcons
    exact hcons

/-- A thread that follows a line to its end has nothing left to read. -/
theorem follow_line (h : rule ∈ rulesOf cond) (hm : Matches rule.pattern u ms) :
    ∃ th', Thread.follow 0 u (⟨rule.pattern, rule, []⟩ : MgmtThread) = some th' ∧ th'.rest = [] ∧
      th'.rule = rule := by
  obtain ⟨c, hmem, -⟩ := rulesOf_mem h
  obtain ⟨body, hbody, hall⟩ := requestRules_line _ hmem
  obtain ⟨th', hf, hrule, ms', hend⟩ :=
    matches_follow (⟨rule.pattern, rule, []⟩ : MgmtThread) 0 (requestRules_greedy _ hmem) hm
  refine ⟨th', hf, ?_, hrule⟩
  have hstart : AtLine [] (⟨rule.pattern, rule, []⟩ : MgmtThread) :=
    .inl ⟨body, hbody, hall, by simp⟩
  rcases follow_atLine hstart hf with ⟨body', hrest, -, -⟩ | ⟨hrest, -⟩ | hrest
  · rw [hrest] at hend
    obtain ⟨x, y, _, _, heq, -, -, hy⟩ := hend.split
    rw [(matches_crlf hy).1] at heq
    simp at heq
  · rw [hrest] at hend
    cases hend
  · exact hrest

/-- Behind the end of a line, nothing is looked at. -/
theorem run_line_append (v rest : List UInt8) :
    run (start (rulesOf cond)) 0 (v ++ 0xd :: 0xa :: rest) =
    run (start (rulesOf cond)) 0 (v ++ [0xd, 0xa]) := by
  have hsplit : v ++ 0xd :: 0xa :: rest = (v ++ [0xd, 0xa]) ++ rest := by simp
  rw [hsplit, run_append]
  cases hr : run (start (rulesOf cond)) 0 (v ++ [0xd, 0xa]) with
  | accept th pos => rfl
  | dead => rfl
  | more ths =>
    have hnone : nextToken cond (v ++ [0xd, 0xa]) = none := by rw [nextToken, hr]
    exact absurd (List.suffix_append v _).isInfix (nextToken_none_line hnone)

/-- A live line is one token, and a command if it is one by the rules; of a dead one, the
scan fails. -/
theorem run_line (hv : ¬ [0xd, 0xa] <:+: v) (rest : List UInt8) :
    (Live v ∧ ∃ th, run (start (rulesOf cond)) 0 (v ++ 0xd :: 0xa :: rest) =
      .accept th (v.length + 2) ∧
      (th.rule.result.cmd.isCommand = true ↔ IsCommand cond v)) ∨
    (¬ Live v ∧ run (start (rulesOf cond)) 0 (v ++ 0xd :: 0xa :: rest) = .dead) := by
  rw [run_line_append]
  cases hr : run (start (rulesOf cond)) 0 (v ++ [0xd, 0xa]) with
  | more ths =>
    have hnone : nextToken cond (v ++ [0xd, 0xa]) = none := by rw [nextToken, hr]
    exact absurd (List.suffix_append v _).isInfix (nextToken_none_line hnone)
  | dead =>
    refine .inr ⟨fun hlive => ?_, rfl⟩
    obtain ⟨rule, hrule, ms, hm⟩ := hlive.matches cond
    obtain ⟨th', hf, -⟩ := follow_line hrule hm
    exact (run_follow (List.mem_map_of_mem hrule) hf).1 hr
  | accept th pos =>
    obtain ⟨u, htake, hpos, hno⟩ := accept_line hr
    have hu : u = v := by
      have happ := List.take_append_drop pos (v ++ [0xd, 0xa])
      rw [htake, List.append_assoc] at happ
      exact line_unique hno hv happ
    subst hu
    obtain ⟨hrule, hm⟩ := run_accept_matches hr
    rw [htake] at hm
    refine .inl ⟨?_, th, by rw [hpos], fun hcmd => ⟨th.rule, hrule, hcmd, _, hm⟩, ?_⟩
    · exact (matches_line_prints hrule hm).imp (fun h => h) And.right
    · rintro ⟨rule, hrule', hcmd, ms, hm'⟩
      obtain ⟨th', hf, hend, hsame⟩ := follow_line hrule' hm'
      have hstart : (⟨rule.pattern, rule, []⟩ : MgmtThread) ∈ start (rulesOf cond) :=
        List.mem_map_of_mem hrule'
      refine run_accept_first (P := fun r => r.result.cmd.isCommand = true)
        (rulesOf_ordered cond) hstart
        hf hend (hsame ▸ hcmd) ?_
      rw [hr, hpos, Nat.zero_add, List.length_append]
      rfl

/-- The token at the start of a whole line. -/
theorem nextToken_line (cond : Cond) (hv : ¬ [0xd, 0xa] <:+: v) (rest : List UInt8) :
    (Live v ∧ ∃ t, nextToken cond (v ++ 0xd :: 0xa :: rest) = some t ∧ t.len = v.length + 2 ∧
      (t.cmd.isCommand = true ↔ IsCommand cond v)) ∨
    (¬ Live v ∧ nextToken cond (v ++ 0xd :: 0xa :: rest) = some ⟨.invalidCmd, none, 1⟩) := by
  rcases run_line hv rest with ⟨hlive, th, hr, hcmd⟩ | ⟨hdead, hr⟩
  · exact .inl ⟨hlive, _, by rw [nextToken, hr], rfl, hcmd⟩
  · exact .inr ⟨hdead, by rw [nextToken, hr]⟩

/-- A token is a line, or one byte that is taken for no command. -/
theorem nextToken_cases (h : nextToken cond bs = some t) :
    (∃ v rest, bs = v ++ 0xd :: 0xa :: rest ∧ t.len = v.length + 2 ∧ 0xd ∉ v) ∨
    t = ⟨.invalidCmd, none, 1⟩ := by
  unfold nextToken at h
  cases hr : run (start (rulesOf cond)) 0 bs with
  | accept th pos =>
    rw [hr] at h
    cases h
    obtain ⟨v, htake, hpos, hno⟩ := accept_line hr
    refine .inl ⟨v, bs.drop pos, ?_, hpos, hno⟩
    have happ := List.take_append_drop pos bs
    rw [htake, List.append_assoc] at happ
    exact happ.symm
  | dead =>
    rw [hr] at h
    cases h
    exact .inr rfl
  | more ths =>
    rw [hr] at h
    cases h

/-! ## Streams -/

/-- The tokens that repeated calls return, each with the offset of its first byte. Between
two calls the condition may change; `conds` says what it is at an offset. -/
def calls (conds : ℕ → Cond) : ℕ → Input → List (ℕ × MgmtCommand)
  | 0, _ => []
  | n + 1, inp =>
    let p := parseMgmtRequest { inp with cond := conds inp.tok }
    if p.cmd = .incomplete then [] else (inp.tok, p.cmd) :: calls conds n p.input

/-- The calls on a buffer that holds all of `bs`. -/
def streamCalls (conds : ℕ → Cond) (bs : List UInt8) : List (ℕ × MgmtCommand) :=
  calls conds (bs.length + 1) (wholeInput bs)

/-- From behind `pre`, with `post` to follow, the lexer comes to stand behind `pre'`. -/
inductive Reaches (conds : ℕ → Cond) : List UInt8 → List UInt8 → List UInt8 → List UInt8 → Prop
  | refl {pre post} : Reaches conds pre post pre post
  | step {pre post pre' post' t} : nextToken (conds pre.length) post = some t →
    Reaches conds (pre ++ post.take t.len) (post.drop t.len) pre' post' →
      Reaches conds pre post pre' post'

section
variable {conds : ℕ → Cond} {pre post pre' post' : List UInt8} {P : List UInt8 → List UInt8 → Prop}

theorem Reaches.invariant (h : Reaches conds pre post pre' post') (h0 : P pre post)
    (hstep : ∀ pre post t, nextToken (conds pre.length) post = some t → P pre post →
      P (pre ++ post.take t.len) (post.drop t.len)) : P pre' post' := by
  induction h with
  | refl => exact h0
  | step ht _ ih => exact ih (hstep _ _ _ ht h0)

theorem Reaches.next (h : Reaches conds pre post pre' post')
    (ht : nextToken (conds pre'.length) post' = some t) :
    Reaches conds pre post (pre' ++ post'.take t.len) (post'.drop t.len) := by
  induction h with
  | refl => exact .step ht .refl
  | step ht' _ ih => exact .step ht' (ih ht)

/-- The calls are those of the places that the lexer reaches. -/
theorem mem_calls (conds : ℕ → Cond) (pre : List UInt8) (n : ℕ) (inp : Input) (hs : inp.Sound)
    (hstate : inp.state = none) (htok : inp.tok = pre.length)
    (hn : inp.text.length < n) (i : ℕ) (cmd : MgmtCommand) :
    (i, cmd) ∈ calls conds n inp ↔ ∃ pre' post' t, Reaches conds pre inp.text pre' post' ∧
      nextToken (conds pre'.length) post' = some t ∧ i = pre'.length ∧ t.cmd = cmd := by
  induction n generalizing pre inp with
  | zero => exact absurd hn (Nat.not_lt_zero _)
  | succ n ih =>
    have hres : Input.Resumable { inp with cond := conds inp.tok } := by
      intro ths hths
      rw [show ({ inp with cond := conds inp.tok } : Input).state = none from hstate] at hths
      cases hths
    have hs' : Input.Sound { inp with cond := conds inp.tok } :=
      ⟨hs.tok_le, hs.cur_le, hs.lim_le, hs.fresh, hs.marked⟩
    rw [calls]
    cases ht : nextToken (conds inp.tok) inp.text with
    | none =>
      obtain ⟨ths, -, hp⟩ := parseMgmtRequest_incomplete hs' hres (.inl hstate) ht
      rw [hp]
      dsimp only
      rw [if_pos rfl]
      refine ⟨fun h => by (cases h), ?_⟩
      rintro ⟨pre', post', t, hreach, hnext, -⟩
      rw [htok] at ht
      cases hreach with
      | refl =>
        rw [ht] at hnext
        cases hnext
      | step ht' _ =>
        rw [ht] at ht'
        cases ht'
    | some t =>
      have htok' := nextToken_isToken ht
      have hle := htok'.le
      rw [Input.text_length] at hle hn
      have hpos := htok'.pos
      have hlim := hs.lim_le
      have hp := parseMgmtRequest_token hs' hres (.inl hstate) ht
      rw [hp]
      dsimp only
      have hrest :=
        ih (pre ++ inp.text.take t.len) (Input.skip { inp with cond := conds inp.tok } t.len)
        ⟨Nat.le_refl _, by dsimp only [Input.skip]; omega, hlim, fun _ => rfl,
          fun h => absurd rfl h⟩ rfl
        (by
          rw [List.length_append, List.length_take, Input.text_length, ← htok]
          dsimp only [Input.skip]
          omega)
        (by rw [Input.text_length]; dsimp only [Input.skip]; omega)
      have htext : (Input.skip { inp with cond := conds inp.tok } t.len).text =
        inp.text.drop t.len :=
        Input.text_after
      rw [htext] at hrest
      rw [if_neg htok'.cmd, List.mem_cons, Prod.mk.injEq, hrest]
      rw [htok] at ht ⊢
      constructor
      · rintro (⟨rfl, rfl⟩ | ⟨pre', post', t', hreach, hnext, hi, hcmd⟩)
        · exact ⟨pre, inp.text, t, .refl, ht, rfl, rfl⟩
        · exact ⟨pre', post', t', .step ht hreach, hnext, hi, hcmd⟩
      · rintro ⟨pre', post', t', hreach, hnext, hi, hcmd⟩
        cases hreach with
        | refl =>
          rw [ht] at hnext
          cases hnext
          exact .inl ⟨hi, hcmd.symm⟩
        | step ht' hreach =>
          rw [ht] at ht'
          cases ht'
          exact .inr ⟨pre', post', t', hreach, hnext, hi, hcmd⟩

theorem mem_streamCalls (conds : ℕ → Cond) (bs : List UInt8) (i : ℕ) (cmd : MgmtCommand) :
    (i, cmd) ∈ streamCalls conds bs ↔ ∃ pre post t, Reaches conds [] bs pre post ∧
      nextToken (conds pre.length) post = some t ∧ i = pre.length ∧ t.cmd = cmd := by
  have htext : (wholeInput bs).text = bs := by
    have hself := slice_store_self (m := fun _ => 0) (i := 0) bs
    exact hself
  have h := mem_calls conds [] (bs.length + 1) (wholeInput bs)
    ⟨Nat.le_refl _, Nat.zero_le _, Nat.le_refl _, fun _ => rfl, fun h => absurd rfl h⟩ rfl rfl
    (by rw [htext]; omega) i cmd
  rw [htext] at h
  exact h

theorem Reaches.append_eq (h : Reaches conds [] bs pre post) : pre ++ post = bs := by
  refine h.invariant (P := fun pre post => pre ++ post = bs) rfl ?_
  intro pre post t _ heq
  rw [List.append_assoc, List.take_append_drop, heq]

/-- The end of a line is never taken apart. -/
theorem Reaches.noStraddle (h : Reaches conds [] bs pre post) :
    ∀ q r, pre = q ++ [0xd] → post ≠ 0xa :: r := by
  refine h.invariant (P := fun pre post => ∀ q r, pre = q ++ [0xd] → post ≠ 0xa :: r) (by simp) ?_
  intro pre post t ht _ q r hpre hpost
  rcases nextToken_cases ht with ⟨v, rest, rfl, hlen, -⟩ | rfl
  · have htake : (v ++ 0xd :: 0xa :: rest).take t.len = v ++ [0xd, 0xa] := by
      rw [hlen, List.take_length_add_append]
      rfl
    rw [htake] at hpre
    have hlast := congrArg List.getLast? hpre
    simp at hlast
  · obtain ⟨b, post', rfl⟩ :=
      List.exists_cons_of_ne_nil (List.length_pos_iff.mp (nextToken_isToken ht).le)
    rw [List.drop_one, List.tail_cons] at hpost
    subst hpost
    have hb : b = 0xd := by
      have hlast := congrArg List.getLast? hpre
      simpa using hlast
    subst hb
    -- an empty line is a token of two bytes
    rcases nextToken_line (conds pre.length) (v := []) (by simp) r with
      ⟨-, t', ht', hlen, -⟩ | ⟨hdead, -⟩
    · rw [List.nil_append, ht] at ht'
      cases ht'
      cases hlen
    · exact hdead (.inl (by simp))

/-- The beginning of the stream, or behind the end of a line. -/
def LineStart (pre : List UInt8) : Prop := pre = [] ∨ [0xd, 0xa] <:+ pre

/-- A token does not reach beyond the end of a line. -/
theorem nextToken_len_le {cond : Cond} {m : List UInt8}
    (ht : nextToken cond (m ++ 0xd :: 0xa :: post) = some t) : t.len ≤ m.length + 2 := by
  rcases nextToken_cases ht with ⟨v, rest, heq, hlen, hno⟩ | rfl
  · rw [hlen]
    rcases List.append_eq_append_iff.mp heq with ⟨a, rfl, ha⟩ | ⟨a, rfl, -⟩
    · cases a with
      | nil => simp
      | cons b a =>
        obtain ⟨rfl, -⟩ := List.cons.inj ha
        exact absurd (List.mem_append_right m List.mem_cons_self) hno
    · simp
  · exact Nat.le_add_left 1 _

/-- The lexer comes to every line. -/
theorem Reaches.lineStart {m : List UInt8} (h : Reaches conds [] bs pre (m ++ post))
    (hline : LineStart (pre ++ m)) : Reaches conds [] bs (pre ++ m) post := by
  induction hn : m.length using Nat.strongRecOn generalizing pre m with
  | ind n ih =>
    subst hn
    by_cases hm : m = []
    · subst hm
      rw [List.append_nil]
      exact h
    have hend : [0xd, 0xa] <:+ pre ++ m := hline.resolve_left (by simp [hm])
    by_cases htwo : 2 ≤ m.length
    · obtain ⟨m', rfl⟩ := List.suffix_of_suffix_length_le hend (List.suffix_append pre m) htwo
      cases ht : nextToken (conds pre.length) (m' ++ [0xd, 0xa] ++ post) with
      | none =>
        exact absurd ⟨m', post, rfl⟩ (nextToken_none_line ht)
      | some t =>
        have hpos := (nextToken_isToken ht).pos
        have hle : t.len ≤ (m' ++ [0xd, 0xa]).length := by
          rw [List.length_append]
          rw [List.append_assoc] at ht
          exact nextToken_len_le ht
        have hnext := h.next ht
        rw [List.take_append_of_le_length hle, List.drop_append_of_le_length hle] at hnext
        have hall : pre ++ (m' ++ [0xd, 0xa]).take t.len ++ (m' ++ [0xd, 0xa]).drop t.len =
            pre ++ (m' ++ [0xd, 0xa]) := by
          rw [List.append_assoc, List.take_append_drop]
        rw [← hall] at hline ⊢
        refine ih _ ?_ hnext hline rfl
        rw [List.length_drop]
        omega
    · -- one byte more would be the line feed of an end of a line
      have hone : m.length = 1 := by
        have hpos := List.length_pos_iff.mpr hm
        omega
      obtain ⟨b, rfl⟩ := List.length_eq_one_iff.mp hone
      obtain ⟨q, hq⟩ := hend
      have hsplit : (q ++ [0xd]) ++ [0xa] = pre ++ [b] := by simpa using hq
      obtain ⟨hpre, hb⟩ := List.append_inj' hsplit rfl
      cases hb
      exact absurd rfl (h.noStraddle q post hpre.symm)

/-- Where the lexer stands, it has dropped what lies behind the start of the line. -/
theorem Reaches.dropped (h : Reaches conds [] bs pre post) :
    ∃ p m, pre = p ++ m ∧ LineStart p ∧ ∀ y z, m = y ++ z → z ≠ [] →
      nextToken (conds (p ++ y).length) (z ++ post) = some ⟨.invalidCmd, none, 1⟩ := by
  refine h.invariant (P := fun pre post => ∃ p m, pre = p ++ m ∧ LineStart p ∧
    ∀ y z, m = y ++ z → z ≠ [] →
      nextToken (conds (p ++ y).length) (z ++ post) = some ⟨.invalidCmd, none, 1⟩) ?_ ?_
  · refine ⟨[], [], rfl, .inl rfl, fun y z hyz hz => ?_⟩
    exact absurd (List.append_eq_nil_iff.mp hyz.symm).2 hz
  · rintro pre post t ht ⟨p, m, rfl, hp, hm⟩
    rcases nextToken_cases ht with ⟨v, rest, rfl, hlen, -⟩ | rfl
    · refine ⟨_, [], (List.append_nil _).symm, .inr ?_, fun y z hyz hz => ?_⟩
      · rw [hlen, List.take_length_add_append]
        exact ⟨p ++ m ++ v, by simp⟩
      · exact absurd (List.append_eq_nil_iff.mp hyz.symm).2 hz
    · obtain ⟨b, post, rfl⟩ :=
        List.exists_cons_of_ne_nil (List.length_pos_iff.mp (nextToken_isToken ht).le)
      refine ⟨p, m ++ [b], by simp, hp, fun y z hyz hz => ?_⟩
      obtain ⟨z, c, rfl⟩ := List.eq_nil_or_concat z |>.resolve_left hz
      rw [List.concat_eq_append, ← List.append_assoc] at hyz
      obtain ⟨rfl, hc⟩ := List.append_inj' hyz rfl
      cases hc
      rw [List.drop_one, List.tail_cons, List.concat_eq_append, List.append_assoc]
      by_cases hz' : z = []
      · subst hz'
        rw [List.append_nil] at ht
        exact ht
      · exact hm y z rfl hz'

/-- Every command that the calls return begins a line. -/
def OnlyAtLineStarts (conds : ℕ → Cond) (bs : List UInt8) : Prop :=
  ∀ i cmd, (i, cmd) ∈ streamCalls conds bs → cmd.isCommand = true → LineStart (bs.take i)

/-- Where a line has a command behind a byte that cannot be printed, one of the words in
`cmds` with a space stands before that byte, and no carriage return after it. -/
def Sheltered (conds : ℕ → Cond) (bs : List UInt8) : Prop :=
  ∀ pre x b c rest, bs = pre ++ (x ++ b :: c) ++ 0xd :: 0xa :: rest → LineStart pre →
    ¬ [0xd, 0xa] <:+: x ++ b :: c → isPrint b = false →
    IsCommand (conds (pre.length + x.length + 1)) c → ∃ y z, x = y ++ z ∧ LedByWord (z ++ b :: c)

theorem not_live_of_dropped {cond : Cond} {v rest : List UInt8} (hv : ¬ [0xd, 0xa] <:+: v)
    (h : nextToken cond (v ++ 0xd :: 0xa :: rest) = some ⟨.invalidCmd, none, 1⟩) : ¬ Live v := by
  rcases nextToken_line cond hv rest with ⟨-, t, ht, hlen, -⟩ | ⟨hdead, -⟩
  · rw [h] at ht
    cases ht
    cases hlen
  · exact hdead

theorem Reaches.drop {x : List UInt8} (h : Reaches conds [] bs pre (x ++ post))
    (hdead : ∀ y z, x = y ++ z → z ≠ [] →
      nextToken (conds (pre ++ y).length) (z ++ post) = some ⟨.invalidCmd, none, 1⟩) :
    Reaches conds [] bs (pre ++ x) post := by
  induction x generalizing pre with
  | nil =>
    rw [List.append_nil]
    exact h
  | cons a x ih =>
    have hfirst := hdead [] (a :: x) rfl (by simp)
    rw [List.append_nil] at hfirst
    have hnext : Reaches conds [] bs (pre ++ [a]) (x ++ post) := h.next hfirst
    have hrest := ih hnext fun y z hyz hz => by
      have hd := hdead (a :: y) z (by rw [hyz]; rfl) hz
      rw [List.append_assoc]
      exact hd
    rw [List.append_assoc] at hrest
    exact hrest

theorem OnlyAtLineStarts.sheltered (h : OnlyAtLineStarts conds bs) : Sheltered conds bs := by
  intro pre x b c rest hbs hpre hno hb hc
  by_contra hled
  have hbs' : bs = pre ++ ((x ++ [b]) ++ (c ++ 0xd :: 0xa :: rest)) := by simp [hbs]
  have hreach : Reaches conds [] bs pre ((x ++ [b]) ++ (c ++ 0xd :: 0xa :: rest)) := by
    have hstart : Reaches conds [] bs [] (pre ++ ((x ++ [b]) ++ (c ++ 0xd :: 0xa :: rest))) :=
      hbs' ▸ .refl
    exact hstart.lineStart hpre
  -- no place before the command is live, so all of it is dropped
  have hthere : Reaches conds [] bs (pre ++ (x ++ [b])) (c ++ 0xd :: 0xa :: rest) := by
    refine hreach.drop fun y z hyz hz => ?_
    obtain ⟨z, d, rfl⟩ := List.eq_nil_or_concat z |>.resolve_left hz
    rw [List.concat_eq_append, ← List.append_assoc] at hyz
    obtain ⟨rfl, hd⟩ := List.append_inj' hyz rfl
    cases hd
    have hnone : ¬ [0xd, 0xa] <:+: z ++ b :: c := fun hin =>
      hno (hin.trans ⟨y, [], by simp⟩)
    have htext : z.concat b ++ (c ++ 0xd :: 0xa :: rest) = (z ++ b :: c) ++ 0xd :: 0xa :: rest := by
      simp
    rw [htext]
    rcases nextToken_line _ hnone rest with ⟨hlive | hlive, -⟩ | ⟨-, hdead⟩
    · rw [hlive b (by simp)] at hb
      cases hb
    · exact absurd ⟨y, z, rfl, hlive⟩ hled
    · exact hdead
  have hlen : (pre ++ (x ++ [b])).length = pre.length + x.length + 1 := by
    simp only [List.length_append, List.length_singleton]
    omega
  have hcno : ¬ [0xd, 0xa] <:+: c := fun hin => hno (hin.trans ⟨x ++ [b], [], by simp⟩)
  rcases nextToken_line (conds (pre.length + x.length + 1)) hcno rest with
    ⟨-, t, ht, -, hcmd⟩ | ⟨hdead, -⟩
  swap
  · exact hdead (.inl hc.prints)
  have hmem : ((pre ++ (x ++ [b])).length, t.cmd) ∈ streamCalls conds bs :=
    (mem_streamCalls conds bs _ _).mpr ⟨_, _, t, hthere, by rw [hlen]; exact ht, rfl, rfl⟩
  have hstart := h _ _ hmem (hcmd.mpr hc)
  rw [← hthere.append_eq, List.take_left] at hstart
  -- a line cannot start here
  obtain ⟨q, hq⟩ := hstart.resolve_left (by simp)
  have hsplit : (q ++ [0xd]) ++ [0xa] = (pre ++ x) ++ [b] := by simpa using hq
  obtain ⟨hpx, hb'⟩ := List.append_inj' hsplit rfl
  cases hb'
  rcases List.eq_nil_or_concat x with rfl | ⟨x', d, rfl⟩
  · rw [List.append_nil] at hpx
    rcases hpre with rfl | ⟨q', hq'⟩
    · simp at hpx
    · have hlast := congrArg List.getLast? (hq'.trans hpx.symm)
      simp at hlast
  · rw [List.concat_eq_append, ← List.append_assoc] at hpx
    obtain ⟨-, hd⟩ := List.append_inj' hpx rfl
    cases hd
    exact hno ⟨x', c, by simp⟩

theorem Sheltered.onlyAtLineStarts (h : Sheltered conds bs) : OnlyAtLineStarts conds bs := by
  intro i cmd hmem hcmd
  obtain ⟨pre, post, t, hreach, ht, rfl, rfl⟩ := (mem_streamCalls conds bs i cmd).mp hmem
  have hbs := hreach.append_eq
  obtain ⟨p, m, rfl, hp, hm⟩ := hreach.dropped
  have htake : bs.take (p ++ m).length = p ++ m := by rw [← hbs, List.take_left]
  rw [htake]
  rcases List.eq_nil_or_concat m with rfl | ⟨x, b, rfl⟩
  · rw [List.append_nil]
    exact hp
  exfalso
  rw [List.concat_eq_append] at *
  rcases nextToken_cases ht with ⟨c, rest, rfl, -, hno⟩ | rfl
  swap
  · cases hcmd
  have hcno : ¬ [0xd, 0xa] <:+: c := fun hin => hno (hin.mem (by simp))
  have hc : IsCommand (conds (p ++ (x ++ [b])).length) c := by
    rcases nextToken_line _ hcno rest with ⟨-, t', ht', -, hiff⟩ | ⟨-, hdead⟩
    · rw [ht] at ht'
      cases ht'
      exact hiff.mp hcmd
    · rw [ht] at hdead
      cases hdead
      cases hcmd
  -- the byte before the command was dropped, so it cannot be printed
  have hb : isPrint b = false := by
    by_contra hprint
    have hlive : Live (b :: c) := .inl (List.forall_mem_cons.mpr ⟨by simpa using hprint, hc.prints⟩)
    refine not_live_of_dropped ?_ (hm x [b] rfl (by simp)) hlive
    intro hin
    have hcr := hin.mem (List.mem_cons_self (a := 0xd))
    rcases List.mem_cons.mp hcr with rfl | hcr
    · exact hprint rfl
    · exact hno hcr
  -- and there is no end of a line among what was dropped
  have hxno : ¬ [0xd, 0xa] <:+: x ++ b :: c := by
    rintro ⟨l, r, heq⟩
    have hsplit : l ++ 0xd :: 0xa :: r = (x ++ [b]) ++ c := by simpa using heq
    rcases List.append_eq_append_iff.mp hsplit with ⟨a, ha, hr⟩ | ⟨a, -, hr⟩
    · cases a with
      | nil =>
        rw [List.nil_append] at hr
        exact hno (hr ▸ List.mem_cons_self)
      | cons d a =>
        obtain ⟨rfl, hr'⟩ := List.cons.inj hr
        cases a with
        | nil =>
          have hlf := hc.prints 0xa (by rw [← show 0xa :: r = c from hr']; exact List.mem_cons_self)
          cases hlf
        | cons d a =>
          obtain ⟨rfl, -⟩ := List.cons.inj hr'
          exact not_live_of_dropped (v := []) (by simp) (hm l _ ha (by simp)) (.inl (by simp))
    · exact hno (by rw [hr]; simp)
  obtain ⟨y, z, rfl, hled⟩ := h p x b c rest (by simp [← hbs]) hp hxno hb (by
    have hlen : (p ++ (x ++ [b])).length = p.length + x.length + 1 := by
      simp only [List.length_append, List.length_singleton]
      omega
    rw [hlen] at hc
    exact hc)
  have hdrop := hm y (z ++ [b]) (List.append_assoc y z [b]) (by simp)
  have htext : z ++ [b] ++ (c ++ 0xd :: 0xa :: rest) = (z ++ b :: c) ++ 0xd :: 0xa :: rest := by
    simp
  rw [htext] at hdrop
  exact not_live_of_dropped (fun hin => hled.1 (hin.mem (by simp))) hdrop (.inr hled)

end

end Socks5d
