import Socks5d.Mgmt

/-! # What the lexer recognises -/

namespace Socks5d
open Memory Scanner

variable {inp : Input} {th th' : MgmtThread} {ths : List MgmtThread} {pos : ℕ} {b : UInt8}

/-! ## Lines -/

/-- A carriage return is behind everything that has none. -/
theorem append_eq_append_return {x y a z : List UInt8} (hx : 0xd ∉ x) (h : x ++ y = a ++ 0xd :: z) :
    ∃ a', a = x ++ a' ∧ y = a' ++ 0xd :: z := by
  rcases List.append_eq_append_iff.mp h with ⟨a', ha, hy⟩ | ⟨c, rfl, hc⟩
  · exact ⟨a', ha, hy⟩
  · cases c with
    | nil => exact ⟨[], by simp, by simpa using hc.symm⟩
    | cons b c =>
      rw [List.cons_append, List.cons.injEq] at hc
      exact absurd (by simp [hc.1]) hx

/-! ## Rules and conditions -/

theorem next_rule (h : th.next pos b = some th') : th'.rule = th.rule := by
  obtain ⟨r, -, rfl⟩ := Option.map_eq_some_iff.mp h
  rfl

/-- Whatever comes of a thread, it keeps its rule. -/
theorem run_rules {Q : MgmtRule → Prop} (h : ∀ th ∈ ths, Q th.rule) (pos : ℕ) (bs : List UInt8) :
    match run ths pos bs with
    | .accept th _ => Q th.rule
    | .dead => True
    | .more ths' => ∀ th ∈ ths', Q th.rule := by
  have hrun := Scanner.run_invariant (P := fun _ th => Q th.rule) (d := pos) (u := []) bs
    (fun _ _ _ _ hn hth => by rw [next_rule hn]; exact hth) h
  rw [List.length_nil, Nat.add_zero] at hrun
  cases hr : run ths pos bs with
  | accept th pos' =>
    rw [hr] at hrun
    obtain ⟨-, v, -, -, hth⟩ := hrun
    exact hth
  | dead => trivial
  | more ths' =>
    rw [hr] at hrun
    exact hrun

/-- The lexer was stopped while it followed rules of its condition. -/
def Input.Conditioned (inp : Input) : Prop :=
  ∀ ths, inp.state = some ths → ∀ th ∈ ths, th.rule ∈ rulesOf inp.cond

/-- The commands of rules that are not for all conditions or for `pass`. -/
def MgmtCommand.privileged : MgmtCommand → Bool
  | .stats | .users | .getBuffsize | .setBuffsize | .getDissectorStatus | .setDissectorStatus
  | .addUser => true
  | .invalidCmd | .incomplete | .token | .capa | .quit | .invalidArgs => false

theorem rulesOf_pass : ∀ rule ∈ rulesOf .pass, rule.result.cmd.privileged = false := by decide

/-- What a call of the lexer does about conditions. -/
structure Conditions (inp : Input) (p : Parsed) : Prop where
  cond_eq : p.input.cond = inp.cond
  conditioned : p.input.Conditioned
  fresh : p.cmd ≠ .incomplete → p.input.state = none
  unprivileged : inp.cond = .pass → p.cmd.privileged = false

theorem finish_conditions {cmd : MgmtCommand} {arg : Option (ℕ × ℕ)} {inp' : Input}
    (hc : inp'.cond = inp.cond) (hp : inp.cond = .pass → cmd.privileged = false) :
    Conditions inp (finish cmd arg inp') := by
  refine ⟨hc, ?_, fun _ => rfl, hp⟩
  intro ths hths
  cases hths

theorem scan_conditions (h : ∀ th ∈ ths, th.rule ∈ rulesOf inp.cond) :
    Conditions inp (scan ths inp) := by
  have hrun := run_rules h inp.cur (slice inp.buf inp.cur (inp.lim - inp.cur))
  unfold scan
  cases hr : run ths inp.cur (slice inp.buf inp.cur (inp.lim - inp.cur)) with
  | accept th cur =>
    rw [hr] at hrun
    refine finish_conditions rfl fun hc => rulesOf_pass _ ?_
    rw [← hc]
    exact hrun
  | dead => exact finish_conditions rfl fun _ => rfl
  | more ths' =>
    rw [hr] at hrun
    refine ⟨rfl, ?_, fun hne => absurd rfl hne, fun _ => rfl⟩
    intro ths hths
    cases hths
    exact hrun

theorem parseMgmtRequest_conditions (h : inp.Conditioned) :
    Conditions inp (parseMgmtRequest inp) := by
  unfold parseMgmtRequest
  cases hs : inp.state with
  | none =>
    refine scan_conditions fun th hth => ?_
    obtain ⟨rule, hrule, rfl⟩ := List.mem_map.mp hth
    exact hrule
  | some ths =>
    dsimp only
    split_ifs
    · exact finish_conditions rfl fun _ => rfl
    · exact finish_conditions rfl fun _ => rfl
    · exact scan_conditions (h ths hs)

/-! ## Arguments -/

section
variable {u bs : List UInt8} {ms : Marks Tag} {cond : Cond}

theorem matches_ones {γ : Type} {l : List γ} {f : γ → UInt8 → Bool}
    (h : Matches (l.map fun x => .one (f x)) u ms) :
    List.Forall₂ (fun x b => f x b = true) l u ∧ ms = [] := by
  induction l generalizing u ms with
  | nil =>
    obtain ⟨rfl, rfl⟩ := h.of_nil
    exact ⟨.nil, rfl⟩
  | cons x l ih =>
    cases h with
    | one hb h =>
      obtain ⟨hl, rfl⟩ := ih h
      exact ⟨.cons hb hl, rfl⟩

theorem matches_crlf (h : Matches crlf u ms) : u = [0xd, 0xa] ∧ ms = [] := by
  cases h with
  | one hr h =>
    cases h with
    | one hn h =>
      obtain ⟨rfl, rfl⟩ := h.of_nil
      simp only [decide_eq_true_eq] at hr hn
      rw [hr, hn]
      exact ⟨rfl, rfl⟩

theorem matches_some1 {p : UInt8 → Bool} (h : Matches (some1 p) u ms) :
    u ≠ [] ∧ (∀ b ∈ u, p b = true) ∧ ms = [] := by
  cases h with
  | one hb h =>
    obtain ⟨hall, rfl⟩ := h.of_star
    exact ⟨by simp, by simpa [hb] using hall, rfl⟩

/-- A word has no tags. -/
theorem matches_word {s : String} (h : Matches (word s) u ms) : ms = [] := (matches_ones h).2

theorem matches_literal {s : String} (h : Matches (literal s) u ms) : u = asc s ∧ ms = [] := by
  obtain ⟨hl, hms⟩ := matches_ones h
  refine ⟨?_, hms⟩
  unfold asc
  clear h
  generalize s.toList = l at hl
  induction hl with
  | nil => rfl
  | cons hb _ ih =>
    rw [List.map_cons, ← ih, of_decide_eq_true hb]

/-- An argument between spaces. -/
theorem matches_argument {p : UInt8 → Bool} (h : Matches (argument p) u ms) :
    ∃ sp arg sp', u = sp ++ arg ++ sp' ∧ sp ≠ [] ∧ arg ≠ [] ∧ (∀ b ∈ sp, isSpace b = true) ∧
      (∀ b ∈ arg, p b = true) ∧ (∀ b ∈ sp', isSpace b = true) ∧
      ms = [(.yyt1, sp.length), (.yyt2, (sp ++ arg).length)] := by
  unfold argument at h
  obtain ⟨x, y, m₁, m₂, rfl, rfl, hx, hy⟩ := h.split
  obtain ⟨x, arg, m₁, m₃, rfl, rfl, hx, harg⟩ := hx.split
  obtain ⟨sp, tg, m₁, m₄, rfl, rfl, hsp, htg⟩ := hx.split
  obtain ⟨hsp0, hspace, rfl⟩ := matches_some1 hsp
  obtain ⟨rfl, rfl⟩ := htg.of_tag
  obtain ⟨hne, hall, rfl⟩ := matches_some1 harg
  have hy' : Matches ([.tag .yyt2] ++ [.star isSpace]) y m₂ := hy
  obtain ⟨tg', sp', m₁, m₄, rfl, rfl, htg', hsp'⟩ := hy'.split
  obtain ⟨rfl, rfl⟩ := htg'.of_tag
  obtain ⟨hspace', rfl⟩ := hsp'.of_star
  refine ⟨sp, arg, sp', by simp, hsp0, hne, hspace, hall, hspace', ?_⟩
  simp [Marks.shift]

theorem matches_keyword {k : String} (h : Matches (keyword k) u ms) :
    ∃ sp, u = sp ++ asc k ∧ ms = [(.yyt1, sp.length)] := by
  unfold keyword at h
  obtain ⟨x, y, m₁, m₂, rfl, rfl, hx, hy⟩ := h.split
  obtain ⟨sp, tg, m₁, m₃, rfl, rfl, hsp, htg⟩ := hx.split
  obtain ⟨-, -, rfl⟩ := matches_some1 hsp
  obtain ⟨rfl, rfl⟩ := htg.of_tag
  obtain ⟨rfl, rfl⟩ := matches_literal hy
  exact ⟨sp, by simp, by simp [Marks.shift]⟩

/-- A word, something with marks, and the end of the line. -/
theorem matches_line {s : String} {p : MgmtPattern} (h : Matches (word s ++ p ++ crlf) u ms) :
    ∃ w v m, u = w ++ v ++ [0xd, 0xa] ∧ ms = m.shift w.length ∧ Matches (word s) w [] ∧
      Matches p v m := by
  obtain ⟨x, y, m₁, m₂, rfl, rfl, hx, hy⟩ := h.split
  obtain ⟨rfl, rfl⟩ := matches_crlf hy
  obtain ⟨w, v, m₁, m₂, rfl, rfl, hw, hv⟩ := hx.split
  obtain rfl := matches_word hw
  exact ⟨w, v, m₂, rfl, by simp [Marks.shift], hw, hv⟩

/-- The rules with an argument, and what it is made of. -/
inductive Shaped : MgmtRule → Prop
  | plain {rule} : rule.result.argEnd = .none → Shaped rule
  | tagged {s p cmd} : p 0 = false → Shaped ⟨word s ++ argument p ++ crlf, ⟨cmd, .tagged⟩⟩
  | fixed {s k cmd} : 0 ∉ asc k → Shaped ⟨word s ++ keyword k ++ crlf, ⟨cmd, .fixed⟩⟩

theorem requestRules_shaped : ∀ r ∈ requestRules, Shaped r.2 := by
  intro r hr
  simp only [requestRules, List.mem_append, List.mem_cons, List.mem_map, List.not_mem_nil,
    or_false] at hr
  rcases hr with ((rfl | rfl | rfl | rfl | rfl | rfl | rfl | rfl | rfl | rfl | rfl) |
    ⟨c, -, rfl⟩) | rfl | rfl
  · exact .tagged rfl
  · exact .plain rfl
  · exact .plain rfl
  · exact .plain rfl
  · exact .tagged rfl
  · exact .plain rfl
  · exact .fixed (by decide)
  · exact .fixed (by decide)
  · exact .tagged rfl
  · exact .plain rfl
  · exact .plain rfl
  · exact .plain rfl
  · exact .plain rfl
  · exact .plain rfl

theorem rulesOf_mem {rule : MgmtRule} (h : rule ∈ rulesOf cond) :
    ∃ c, (c, rule) ∈ requestRules ∧ (c = none ∨ c = some cond) := by
  obtain ⟨⟨c, r⟩, hr, hif⟩ := List.mem_filterMap.mp h
  split_ifs at hif with hc
  cases hif
  exact ⟨c, hr, hc⟩

theorem rulesOf_shaped {rule : MgmtRule} (h : rule ∈ rulesOf cond) : Shaped rule := by
  obtain ⟨c, hr, -⟩ := rulesOf_mem h
  exact requestRules_shaped _ hr

/-- The bytes `bs` of a token have an argument from `a` to `e`. -/
structure HasArg (bs : List UInt8) (a e : ℕ) : Prop where
  le : a ≤ e
  lt : e + 2 ≤ bs.length
  nonzero : 0 ∉ (bs.drop a).take (e - a)

theorem HasArg.of_split (pre post : List UInt8) {arg : List UInt8} (h0 : 0 ∉ arg)
    (hpost : 2 ≤ post.length) :
    HasArg (pre ++ (arg ++ post)) pre.length (pre.length + arg.length) := by
  refine ⟨by omega, ?_, ?_⟩
  · simp only [List.length_append]
    omega
  · rw [List.drop_left, Nat.add_sub_cancel_left, List.take_left]
    exact h0

theorem accept_args {th : MgmtThread} {pos : ℕ}
    (h : run (start (rulesOf cond)) 0 bs = .accept th pos) :
    (th.rule.result.argEnd = .none ∧ argsOf th pos = none) ∨
    (th.rule.result.argEnd ≠ .none ∧ ∃ a e,
      argsOf th pos = some (a, e) ∧ HasArg (bs.take pos) a e) := by
  obtain ⟨hrule, hm⟩ := run_accept_matches h
  have hlen : (bs.take pos).length = pos := by
    have hpos := run_accept_pos h
    rw [List.length_take]
    omega
  rcases th with ⟨rest, rule, marks⟩
  cases rulesOf_shaped hrule with
  | plain hnone =>
    refine .inl ⟨hnone, ?_⟩
    unfold argsOf
    dsimp only
    rw [hnone]
  | @tagged s p cmd hp =>
    obtain ⟨w, v, m, hu, hms, -, hv⟩ := matches_line hm
    obtain ⟨sp, arg, sp', rfl, -, -, -, hall, -, rfl⟩ := matches_argument hv
    have h0 : 0 ∉ arg := by
      intro hz
      have hpz := hall 0 hz
      rw [hp] at hpz
      cases hpz
    refine .inr ⟨by simp, (w ++ sp).length, (w ++ sp).length + arg.length, ?_, ?_⟩
    · simp only at hms
      subst hms
      change some (sp.length + w.length, (sp ++ arg).length + w.length) = _
      rw [Option.some.injEq, Prod.mk.injEq, List.length_append, List.length_append]
      omega
    · rw [hu]
      have hargs := HasArg.of_split (w ++ sp) (sp' ++ [0xd, 0xa]) h0 (by simp)
      simpa only [List.append_assoc] using hargs
  | @fixed s k cmd hk =>
    obtain ⟨w, v, m, hu, hms, -, hv⟩ := matches_line hm
    obtain ⟨sp, rfl, rfl⟩ := matches_keyword hv
    refine .inr ⟨by simp, (w ++ sp).length, (w ++ sp).length + (asc k).length, ?_, ?_⟩
    · simp only at hms
      subst hms
      have hpos := congrArg List.length hu
      rw [hlen] at hpos
      simp only [List.length_append, List.length_cons, List.length_nil] at hpos
      change some (sp.length + w.length, pos - 2) = _
      rw [Option.some.injEq, Prod.mk.injEq, List.length_append]
      omega
    · rw [hu]
      have hargs := HasArg.of_split (w ++ sp) [0xd, 0xa] hk (by simp)
      simpa only [List.append_assoc] using hargs

end

/-! ## Tokens of a text -/

structure MgmtToken where
  cmd : MgmtCommand
  /-- The offsets of the argument in the token. -/
  arg : Option (ℕ × ℕ)
  len : ℕ

/-- The first token of `bs`, unless `bs` is a piece of one. -/
def nextToken (cond : Cond) (bs : List UInt8) : Option MgmtToken :=
  match run (start (rulesOf cond)) 0 bs with
  | .accept th pos => some ⟨th.rule.result.cmd, argsOf th pos, pos⟩
  | .dead => some ⟨.invalidCmd, none, 1⟩
  | .more _ => none

/-- The commands that use `args` and `arge`. -/
def MgmtCommand.takesArg : MgmtCommand → Bool
  | .token | .setBuffsize | .setDissectorStatus | .addUser => true
  | .invalidCmd | .incomplete | .stats | .capa | .users | .getBuffsize | .getDissectorStatus
  | .quit | .invalidArgs => false

theorem rulesOf_result (cond : Cond) : ∀ rule ∈ rulesOf cond, rule.result.cmd ≠ .incomplete ∧
    (rule.result.cmd.takesArg = true ↔ rule.result.argEnd ≠ .none) := by
  cases cond <;> decide

section
variable {cond : Cond} {bs more : List UInt8} {t : MgmtToken}

theorem run_ne_nil (h : run ths pos bs = .dead) : bs ≠ [] := by
  rintro rfl
  cases h

/-- What is known of a token. -/
structure IsToken (bs : List UInt8) (t : MgmtToken) : Prop where
  pos : 0 < t.len
  le : t.len ≤ bs.length
  cmd : t.cmd ≠ .incomplete
  noArg : t.cmd.takesArg = false → t.arg = none
  hasArg : t.cmd.takesArg = true → ∃ a e, t.arg = some (a, e) ∧ HasArg (bs.take t.len) a e

theorem nextToken_isToken (h : nextToken cond bs = some t) : IsToken bs t := by
  unfold nextToken at h
  cases hr : run (start (rulesOf cond)) 0 bs with
  | accept th pos =>
    rw [hr] at h
    cases h
    have hpos := run_accept_pos hr
    rw [Nat.zero_add] at hpos
    obtain ⟨hcmd, htakes⟩ := rulesOf_result cond _ (run_accept_matches hr).1
    refine ⟨hpos.1, hpos.2, hcmd, fun hno => ?_, fun hyes => ?_⟩
    · rcases accept_args hr with ⟨-, ha⟩ | ⟨hne, -⟩
      · exact ha
      · rw [htakes.mpr hne] at hno
        cases hno
    · rcases accept_args hr with ⟨hnone, -⟩ | ⟨-, ha⟩
      · exact absurd hnone (htakes.mp hyes)
      · exact ha
  | dead =>
    rw [hr] at h
    cases h
    have hne := List.length_pos_iff.mpr (run_ne_nil hr)
    exact ⟨Nat.one_pos, hne, by simp, fun _ => rfl, fun hyes => by (cases hyes)⟩
  | more ths =>
    rw [hr] at h
    cases h

/-- A token is not changed by what follows it. -/
theorem nextToken_append (h : nextToken cond bs = some t) :
    nextToken cond (bs ++ more) = some t := by
  unfold nextToken at h ⊢
  rw [run_append]
  cases hr : run (start (rulesOf cond)) 0 bs with
  | accept th pos =>
    rw [hr] at h
    exact h
  | dead =>
    rw [hr] at h
    exact h
  | more ths =>
    rw [hr] at h
    cases h

end

/-! ## The input as a text -/

/-- The pointers are in order, and the marker is where a token leaves it. -/
structure Input.Sound (inp : Input) : Prop where
  tok_le : inp.tok ≤ inp.cur
  cur_le : inp.cur ≤ inp.lim
  lim_le : inp.lim ≤ inp.bufSize
  fresh : inp.state = none → inp.cur = inp.tok
  marked : inp.cur ≠ inp.tok → inp.mar = inp.tok + 1

/-- What was received and is not part of a token yet. -/
def Input.text (inp : Input) : List UInt8 := slice inp.buf inp.tok (inp.lim - inp.tok)

/-- The part of it that the lexer has seen. -/
def Input.seen (inp : Input) : List UInt8 := slice inp.buf inp.tok (inp.cur - inp.tok)

/-- A lexer that was stopped is where it would be after what it has seen. -/
def Input.Resumable (inp : Input) : Prop :=
  ∀ ths, inp.state = some ths → ∃ ths₀,
    run (start (rulesOf inp.cond)) 0 inp.seen = .more ths₀ ∧ ths = ths₀.map (Thread.shift inp.tok)

theorem scan_run (hs : inp.Sound) (hr : inp.Resumable)
    (hths : (inp.state = none ∧ ths = start (rulesOf inp.cond)) ∨ inp.state = some ths) :
    run ths inp.cur (slice inp.buf inp.cur (inp.lim - inp.cur)) =
      (run (start (rulesOf inp.cond)) 0 inp.text).shift inp.tok := by
  have h1 := hs.tok_le
  have h2 := hs.cur_le
  have htext : inp.text = inp.seen ++ slice inp.buf inp.cur (inp.lim - inp.cur) := by
    have hlen : inp.lim - inp.tok = (inp.cur - inp.tok) + (inp.lim - inp.cur) := by omega
    have hcur : inp.tok + (inp.cur - inp.tok) = inp.cur := by omega
    rw [Input.text, Input.seen, hlen, slice_add, hcur]
  have hseen : inp.seen.length + inp.tok = inp.cur := by
    rw [Input.seen, slice_length]
    omega
  obtain ⟨ths₀, hrun, rfl⟩ : ∃ ths₀, run (start (rulesOf inp.cond)) 0 inp.seen = .more ths₀ ∧
      ths = ths₀.map (Thread.shift inp.tok) := by
    rcases hths with ⟨hnone, rfl⟩ | hsome
    · refine ⟨start (rulesOf inp.cond), ?_, (start_shift _ _).symm⟩
      rw [Input.seen, hs.fresh hnone, Nat.sub_self]
      rfl
    · exact hr ths hsome
  rw [htext, run_append, hrun]
  dsimp only
  rw [Nat.zero_add, ← hseen, run_shift]

theorem lookup_shift (ms : Marks Tag) (d : ℕ) (t : Tag) :
    (ms.shift d).lookup t = (ms.lookup t).map (· + d) := by
  induction ms with
  | nil => rfl
  | cons m ms ih =>
    obtain ⟨t', n⟩ := m
    simp only [Marks.shift, List.map_cons, List.lookup_cons]
    cases t == t' with
    | true => rfl
    | false => exact ih

/-- Two offsets of an argument, moved. -/
def moveArg (d : ℕ) (a : ℕ × ℕ) : ℕ × ℕ := (a.1 + d, a.2 + d)

theorem argsOf_shift (d : ℕ) (h : th.rule.result.argEnd = .fixed → 2 ≤ pos) :
    argsOf (th.shift d) (pos + d) = (argsOf th pos).map (moveArg d) := by
  unfold argsOf Thread.shift
  dsimp only
  rw [lookup_shift, lookup_shift]
  cases he : th.rule.result.argEnd with
  | none => cases th.marks.lookup .yyt1 <;> cases th.marks.lookup .yyt2 <;> rfl
  | tagged => cases th.marks.lookup .yyt1 <;> cases th.marks.lookup .yyt2 <;> rfl
  | fixed =>
    have hpos := h he
    cases th.marks.lookup .yyt1 with
    | none => rfl
    | some a =>
      simp only [Option.map_some, moveArg, Option.some.injEq, Prod.mk.injEq, true_and]
      omega

/-- The input behind a token. -/
def Input.skip (inp : Input) (len : ℕ) : Input :=
  { inp with
    tok := inp.tok + len
    cur := inp.tok + len
    mar := inp.tok + len
    state := none }

section
variable (hs : inp.Sound) (hr : inp.Resumable) (hnew : inp.state = none ∨ inp.cur < inp.lim)
include hs hr hnew

theorem parseMgmtRequest_scan : ∃ ths, parseMgmtRequest inp = scan ths inp ∧
    run ths inp.cur (slice inp.buf inp.cur (inp.lim - inp.cur)) =
      (run (start (rulesOf inp.cond)) 0 inp.text).shift inp.tok := by
  unfold parseMgmtRequest
  cases hst : inp.state with
  | none => exact ⟨_, rfl, scan_run hs hr (.inl ⟨hst, rfl⟩)⟩
  | some ths =>
    have hlt : ¬ inp.lim ≤ inp.cur := by
      rcases hnew with hno | hlt
      · rw [hst] at hno
        cases hno
      · omega
    refine ⟨ths, ?_, scan_run hs hr (.inr hst)⟩
    dsimp only
    rw [if_neg hlt]

/-- The lexer finds the first token of the text. -/
theorem parseMgmtRequest_token {t : MgmtToken} (ht : nextToken inp.cond inp.text = some t) :
    parseMgmtRequest inp = ⟨t.cmd, t.arg.map (moveArg inp.tok), t.len, inp.skip t.len⟩ := by
  obtain ⟨ths, hp, hrun⟩ := parseMgmtRequest_scan hs hr hnew
  unfold nextToken at ht
  rw [hp, scan, hrun]
  cases hres : run (start (rulesOf inp.cond)) 0 inp.text with
  | accept th pos =>
    rw [hres] at ht
    cases ht
    have hfix : th.rule.result.argEnd = .fixed → 2 ≤ pos := by
      intro hf
      have hle := (run_accept_pos hres).2
      rcases accept_args hres with ⟨hno, -⟩ | ⟨-, a, e, -, harg⟩
      · rw [hf] at hno
        cases hno
      · have hlt := harg.lt
        rw [List.length_take] at hlt
        omega
    have hlen : pos + inp.tok - inp.tok = pos := Nat.add_sub_cancel pos inp.tok
    simp only [Result.shift, finish]
    rw [argsOf_shift _ hfix, hlen, Nat.add_comm pos inp.tok]
    rfl
  | dead =>
    rw [hres] at ht
    cases ht
    have hmark : inp.marker = inp.tok + 1 := by
      have hne := List.length_pos_iff.mpr (run_ne_nil hres)
      rw [Input.text, slice_length] at hne
      unfold Input.marker
      split_ifs with hc
      · rfl
      · refine hs.marked fun heq => hc ⟨heq, ?_⟩
        omega
    simp only [Result.shift, finish, hmark, Nat.add_sub_cancel_left]
    rfl
  | more ths =>
    rw [hres] at ht
    cases ht

/-- Without a whole token it stops at the end of the text. -/
theorem parseMgmtRequest_incomplete (ht : nextToken inp.cond inp.text = none) :
    ∃ ths, run (start (rulesOf inp.cond)) 0 inp.text = .more ths ∧
      parseMgmtRequest inp = ⟨.incomplete, none, 0, { inp with
        cur := inp.lim
        mar := inp.marker
        state := some (ths.map (Thread.shift inp.tok)) }⟩ := by
  obtain ⟨ths, hp, hrun⟩ := parseMgmtRequest_scan hs hr hnew
  unfold nextToken at ht
  rw [hp, scan, hrun]
  cases hres : run (start (rulesOf inp.cond)) 0 inp.text with
  | accept th pos =>
    rw [hres] at ht
    cases ht
  | dead =>
    rw [hres] at ht
    cases ht
  | more ths => exact ⟨ths, rfl, rfl⟩

end

end Socks5d
