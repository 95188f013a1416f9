import Mathlib.Data.List.Forall2
import Socks5d.Answers
import Socks5d.LineStarts

/-! # The login line

What the server makes of the first line of a management connection, when it is `TOKEN`
with a string behind it. The string is registered by `add_token` and recognised by the
lexer, which do not agree on what a token is made of. -/

namespace Socks5d
open Memory Scanner EventRun

/-! ## Enrolled tokens -/

/-- A call of `add_token` with this string has succeeded. -/
def Enrolled (strs : List (List UInt8)) (t : List UInt8) : Prop :=
  ∃ l₁ l₂, strs = l₁ ++ t :: l₂ ∧ (addToken (addTokens l₁) t).1 = true

theorem addToken_cases (tokens : List (List UInt8)) (t : List UInt8) :
    ((addToken tokens t).1 = false ∧ (addToken tokens t).2 = tokens) ∨
    (checkValidToken t maxTokenLength = true ∧ (addToken tokens t).1 = true ∧
      (addToken tokens t).2 = tokens ++ [t]) := by
  unfold addToken
  split_ifs with h
  · exact .inl ⟨rfl, rfl⟩
  · simp only [Bool.or_eq_true, decide_eq_true_eq, Bool.not_eq_true', not_or,
      Bool.not_eq_false] at h
    exact .inr ⟨h.2, rfl, rfl⟩

theorem mem_addToken (tokens : List (List UInt8)) (str t : List UInt8) :
    t ∈ (addToken tokens str).2 ↔ t ∈ tokens ∨ str = t ∧ (addToken tokens str).1 = true := by
  rcases addToken_cases tokens str with ⟨hno, hsame⟩ | ⟨-, hadd, happ⟩
  · rw [hno, hsame]
    exact (or_iff_left fun h => Bool.false_ne_true h.2).symm
  · rw [hadd, happ, List.mem_append, List.mem_singleton, and_iff_left rfl, eq_comm]

theorem mem_addTokens (strs : List (List UInt8)) (t : List UInt8) :
    t ∈ addTokens strs ↔ Enrolled strs t := by
  have hrun : t ∈ addTokens strs ↔ t ∈ [] ∨ _ :=
    exec_iff_brought fun tokens str => mem_addToken tokens str t
  refine (hrun.trans (or_iff_right List.not_mem_nil)).trans ?_
  constructor
  · rintro ⟨l₁, str, l₂, rfl, rfl, hadd⟩
    exact ⟨l₁, l₂, rfl, hadd⟩
  · rintro ⟨l₁, l₂, rfl, hadd⟩
    exact ⟨l₁, t, l₂, rfl, rfl, hadd⟩

theorem checkValidToken_print {s : List UInt8} {len : ℕ} (h : checkValidToken s len = true) :
    ∀ c ∈ s, isprint c = true := by
  induction s generalizing len with
  | nil => simp
  | cons c s ih =>
    cases len with
    | zero => cases h
    | succ len =>
      rw [checkValidToken] at h
      split_ifs at h with hc
      rw [List.forall_mem_cons]
      exact ⟨by simpa using hc, ih h⟩

/-- A registered token without spaces is an argument for the lexer. -/
theorem Enrolled.isArg {strs : List (List UInt8)} {t : List UInt8} (h : Enrolled strs t)
    (hspace : 0x20 ∉ t) : ∀ c ∈ t, isArg c = true := by
  obtain ⟨l₁, l₂, -, hadd⟩ := h
  rcases addToken_cases (addTokens l₁) t with ⟨hno, -⟩ | ⟨hvalid, -, -⟩
  · rw [hadd] at hno
    cases hno
  · intro c hc
    have hprint := checkValidToken_print hvalid c hc
    have hne := ne_of_mem_of_not_mem hc hspace
    rw [isArg_iff, isSpace, decide_eq_false_iff_not]
    refine ⟨?_, hne⟩
    simp only [isprint, isPrint, Bool.and_eq_true, decide_eq_true_eq,
      UInt8.le_iff_toNat_le] at hprint ⊢
    change 32 ≤ c.toNat ∧ c.toNat ≤ 126 at hprint
    change 32 ≤ c.toNat ∧ c.toNat ≤ 127
    omega

/-! ## The line as a token -/

def loginLine (t : List UInt8) : List UInt8 := asc "TOKEN " ++ (t ++ [0xd, 0xa])

/-- The string without the spaces around it. -/
def trim (t : List UInt8) : List UInt8 :=
  ((t.dropWhile isSpace).reverse.dropWhile isSpace).reverse

/-- `tok` is the whole of `l`, as the lexer sees it on a new connection. -/
def OnlyToken (l : List UInt8) (tok : MgmtToken) : Prop :=
  nextToken .pass l = some tok ∧ tok.len = l.length

section
variable {l p t : List UInt8} {tok : MgmtToken}

/-- A piece of the line is no token, and all of it is this one. -/
theorem OnlyToken.piece (h : OnlyToken l tok) (hp : p <+: l) :
    nextToken .pass p = none ∨ (p = l ∧ nextToken .pass p = some tok) := by
  obtain ⟨q, rfl⟩ := hp
  cases hnext : nextToken .pass p with
  | none => exact .inl rfl
  | some tok' =>
    have happ : nextToken .pass (p ++ q) = some tok' := nextToken_append hnext
    rw [h.1] at happ
    cases happ
    have hle := (nextToken_isToken hnext).le
    have hlen := h.2
    rw [List.length_append] at hlen
    have hq : q = [] := List.eq_nil_of_length_eq_zero (by omega)
    exact .inr ⟨by rw [hq, List.append_nil], rfl⟩

theorem trim_eq {sp a sp' : List UInt8} (hsp : ∀ c ∈ sp, isSpace c = true)
    (hsp' : ∀ c ∈ sp', isSpace c = true) (hne : a ≠ []) (ha : ∀ c ∈ a, isSpace c = false) :
    trim (sp ++ a ++ sp') = a := by
  have hdrop : ∀ {b : List UInt8}, b ≠ [] → (∀ c ∈ b, isSpace c = false) → ∀ r,
      (b ++ r).dropWhile isSpace = b ++ r := by
    intro b hb hall r
    obtain ⟨c, b, rfl⟩ := List.exists_cons_of_ne_nil hb
    rw [List.cons_append, List.dropWhile_cons_of_neg (by simp [hall c])]
  unfold trim
  rw [List.append_assoc, List.dropWhile_append_of_pos hsp, hdrop hne ha, List.reverse_append,
    List.dropWhile_append_of_pos (by simpa using hsp')]
  have hrev := hdrop (b := a.reverse) (by simpa using hne) (by simpa using ha) []
  rw [List.append_nil] at hrev
  rw [hrev, List.reverse_reverse]

/-- Enrolled tokens without spaces are recognised. -/
theorem loginLine_token (hne : t ≠ []) (ht : ∀ c ∈ t, isArg c = true) :
    OnlyToken (loginLine t) ⟨.token, some (6, 6 + t.length), 6 + t.length + 2⟩ ∧
      MgmtToken.pair ⟨.token, some (6, 6 + t.length), 6 + t.length + 2⟩ (loginLine t) =
        (.token, some t) := by
  refine ⟨⟨nextToken_argument [] rfl hne ht, ?_⟩, ?_⟩
  · simp only [loginLine, List.length_append, List.length_cons, List.length_nil,
      show (asc "TOKEN ").length = 6 from rfl]
    omega
  · have hdrop : (loginLine t).drop 6 = t ++ [0xd, 0xa] := rfl
    simp [MgmtToken.pair, hdrop]

/-- A printable line is one token, whatever it is. -/
theorem printLine_token {cond : Cond} (hprint : ∀ c ∈ l, isPrint c = true) :
    ∃ th, run (start (rulesOf cond)) 0 (l ++ [0xd, 0xa]) = .accept th (l.length + 2) := by
  have hcr : ¬ [0xd, 0xa] <:+: l := by
    intro hin
    have hp := hprint 0xd (hin.mem (by simp))
    revert hp
    decide
  rcases run_line hcr [] with ⟨-, th, hr, -⟩ | ⟨hdead, -⟩
  · exact ⟨th, hr⟩
  · exact absurd (.inl hprint) hdead

/-- The one rule for `TOKEN`. -/
def tokenRule : MgmtRule := ⟨word "token" ++ argument isArg ++ crlf, ⟨.token, .tagged⟩⟩

theorem rulesOf_token {cond : Cond} {rule : MgmtRule} (h : rule ∈ rulesOf cond)
    (hcmd : rule.result.cmd = .token) : rule = tokenRule := by
  obtain ⟨c, hmem, -⟩ := rulesOf_mem h
  simp only [requestRules, cmds, List.map_cons, List.map_nil, List.mem_append, List.mem_cons,
    List.not_mem_nil, or_false, Prod.mk.injEq, line] at hmem
  rcases hmem with
    ((⟨-, rfl⟩ | ⟨-, rfl⟩ | ⟨-, rfl⟩ | ⟨-, rfl⟩ | ⟨-, rfl⟩ | ⟨-, rfl⟩ | ⟨-, rfl⟩ | ⟨-, rfl⟩ |
    ⟨-, rfl⟩ | ⟨-, rfl⟩ | ⟨-, rfl⟩) | ⟨-, rfl⟩ | ⟨-, rfl⟩ | ⟨-, rfl⟩ | ⟨-, rfl⟩ | ⟨-, rfl⟩ |
    ⟨-, rfl⟩ | ⟨-, rfl⟩) | ⟨-, rfl⟩ | ⟨-, rfl⟩
  · rfl
  all_goals cases hcmd

/-- The line of a printable string is one token; if it is a login, then with the string
without the spaces around it. -/
theorem loginLine_print (ht : ∀ c ∈ t, isPrint c = true) :
    ∃ tok, OnlyToken (loginLine t) tok ∧ tok.cmd.privileged = false ∧
      (tok.cmd = .token → tok.pair (loginLine t) = (.token, some (trim t))) := by
  have hline : loginLine t = (asc "TOKEN " ++ t) ++ [0xd, 0xa] := (List.append_assoc _ _ _).symm
  have hprint : ∀ c ∈ asc "TOKEN " ++ t, isPrint c = true := by
    rw [List.forall_mem_append]
    exact ⟨by decide +kernel, ht⟩
  obtain ⟨th, hrun⟩ : ∃ th, run (start (rulesOf .pass)) 0 ((asc "TOKEN " ++ t) ++ [0xd, 0xa]) =
      .accept th ((asc "TOKEN " ++ t).length + 2) := printLine_token hprint
  rw [← hline] at hrun
  obtain ⟨hrule, hm⟩ := run_accept_matches hrun
  have hlen : (loginLine t).length = (asc "TOKEN " ++ t).length + 2 := by
    rw [hline]
    simp only [List.length_append, List.length_cons, List.length_nil]
  refine ⟨⟨th.rule.result.cmd, argsOf th ((asc "TOKEN " ++ t).length + 2),
    (asc "TOKEN " ++ t).length + 2⟩, ⟨?_, hlen.symm⟩,
    rulesOf_pass _ hrule, ?_⟩
  · rw [nextToken, hrun]
  rw [← hlen, List.take_length] at hm
  rw [← hlen]
  intro hcmd
  have hrule' := rulesOf_token hrule hcmd
  rcases th with ⟨rest, rule, marks⟩
  dsimp only at hrule' hm
  subst hrule'
  obtain ⟨w, v, m, hu, hms, hw, hv⟩ := matches_line hm
  obtain ⟨sp, arg, sp', rfl, hne, harg, hspace, hall, hspace', rfl⟩ := matches_argument hv
  -- the word has five letters, so the first space is the sixth byte
  have hw5 : w.length = 5 := (matches_ones hw).1.length_eq.symm
  obtain ⟨c, sp, rfl⟩ := List.exists_cons_of_ne_nil hne
  have heq : asc "TOKEN" ++ (0x20 :: t) = w ++ (c :: (sp ++ arg ++ sp')) := by
    have hbody := List.append_cancel_right (hline.symm.trans hu)
    rw [List.cons_append, List.cons_append] at hbody
    exact hbody
  obtain ⟨-, htail⟩ := List.append_inj heq hw5.symm
  obtain ⟨rfl, ht'⟩ := List.cons.inj htail
  rw [List.forall_mem_cons] at hspace
  have htrim : trim t = arg := by
    rw [ht']
    refine trim_eq hspace.2 hspace' harg fun b hb => ?_
    exact (isArg_iff.mp (hall b hb)).2
  have hargs : argsOf (⟨rest, tokenRule, marks⟩ : MgmtThread) (loginLine t).length =
      some (6 + sp.length, 6 + sp.length + arg.length) := by
    subst hms
    change some ((0x20 :: sp).length + w.length, (0x20 :: sp ++ arg).length + w.length) = _
    rw [Option.some.injEq, Prod.mk.injEq, hw5]
    simp only [List.length_cons, List.length_append]
    omega
  rw [MgmtToken.pair, hargs, htrim]
  have hdrop : (loginLine t).drop (6 + sp.length) = arg ++ (sp' ++ [0xd, 0xa]) := by
    have hshape : loginLine t = (asc "TOKEN " ++ sp) ++ (arg ++ (sp' ++ [0xd, 0xa])) := by
      rw [loginLine, ht']
      simp
    have hsix : (asc "TOKEN " ++ sp).length = 6 + sp.length := by
      rw [List.length_append]
      rfl
    rw [hshape, List.drop_left' hsix]
  simp only [Option.map_some, hdrop, Nat.add_sub_cancel_left, List.take_left]
  rfl

end

/-! ## The connection before and after the line -/

/-- The greeting is all that was written, and no command was found. -/
structure Greeted (tokens : List (List UInt8)) (s : Session) : Prop where
  segmented : Segmented tokens s
  acts_eq : acts s.log = []
  pending : bufferReadPtr s.c.pendingBuf = []
  atStart : s.c.input.tok = 0 ∨ s.c.input.state = none
  stream_eq : s.stream = hello
  limit : s.c.writeBuf.limit = mgmtBuffsize
  written : s.c.writeBuf.write ≤ hello.length

/-- The line has arrived, and it was answered. -/
structure Replied (tokens : List (List UInt8)) (l : List UInt8) (pr : Pair)
    (s : Session) : Prop where
  received_eq : received s.log = l
  pending : bufferReadPtr s.c.pendingBuf = []
  cond_eq : s.c.input.cond = nextCond tokens pr .pass
  answer : ∃ response, acts s.log = [⟨pr.1, pr.2, response⟩] ∧ s.stream = hello ++ response ∧
    (s.c.input.cond = .trns → response = correctPassword)

section
variable {tokens : List (List UInt8)} {s t : Session} {l : List UInt8} {tok : MgmtToken} {pr : Pair}

theorem Lexes.of_nil {cond cond' : Cond} {bs rest : List UInt8}
    (h : Lexes tokens cond bs [] cond' rest) : cond' = cond ∧ rest = bs := by
  cases h
  exact ⟨rfl, rfl⟩

/-- As long as no command was found, the text is all that was received. -/
theorem Greeted.text_eq (h : Greeted tokens s) :
    s.c.input.cond = .pass ∧ s.c.input.text = received s.log := by
  have hl := h.segmented.lexes
  rw [pairs, h.acts_eq] at hl
  exact hl.of_nil

theorem Greeted.same (h : Greeted tokens s) (hu : Undisturbed s t) (htok : t.tokens = s.tokens)
    (hreceived : received t.log = received s.log) (hpend : t.c.pendingBuf = s.c.pendingBuf)
    (hinput : t.c.input = s.c.input) (hlimit : t.c.writeBuf.limit = s.c.writeBuf.limit)
    (hwrite : t.c.writeBuf.write ≤ s.c.writeBuf.write) : Greeted tokens t where
  segmented := h.segmented.same htok hinput hreceived hu.acts_eq
  acts_eq := hu.acts_eq.trans h.acts_eq
  pending := by rw [hpend]; exact h.pending
  atStart := by rw [hinput]; exact h.atStart
  stream_eq := hu.stream_eq.trans h.stream_eq
  limit := hlimit.trans h.limit
  written := Nat.le_trans hwrite h.written

theorem Replied.same (h : Replied tokens l pr s) (hu : Undisturbed s t)
    (hreceived : received t.log = received s.log) (hpend : t.c.pendingBuf = s.c.pendingBuf) :
    Replied tokens l pr t := by
  refine ⟨hreceived.trans h.received_eq, ?_, hu.cond_eq.trans h.cond_eq, ?_⟩
  · rw [hpend]
    exact h.pending
  · rw [hu.acts_eq, hu.stream_eq, hu.cond_eq]
    exact h.answer

/-- The responses to commands that need no token are short. -/
theorem execute_short {cmd : MgmtCommand} (hpriv : cmd.privileged = false) (arg : Option (ℕ × ℕ))
    (s : Session) : (execute cmd arg s).response.length ≤ 512 ∧
    (execute cmd arg s).responseLen ≤ 512 := by
  have hprint : ∀ (s : Session) (a : Option (List UInt8)) (text : List UInt8), text.length ≤ 512 →
      (snprintf s a text).response.length ≤ 512 ∧ (snprintf s a text).responseLen ≤ 512 := by
    intro s a text htext
    exact ⟨Nat.le_trans (List.length_take_le' _ _) htext, htext⟩
  unfold execute
  cases cmd with
  | incomplete => exact ⟨Nat.zero_le _, Nat.zero_le _⟩
  | invalidCmd | invalidArgs | capa | quit => exact hprint _ _ _ (by decide +kernel)
  | token =>
    dsimp only [executeToken]
    split_ifs
    · exact hprint _ _ _ (by decide +kernel)
    · exact hprint _ _ _ (by decide +kernel)
  | stats | users | getBuffsize | setBuffsize | getDissectorStatus | setDissectorStatus | addUser =>
    cases hpriv

/-- The session becomes privileged with a welcome. -/
theorem execute_welcome (cmd : MgmtCommand) (arg : Option (ℕ × ℕ)) (s : Session)
    (hbefore : s.c.input.cond = .pass) (hcond : (execute cmd arg s).s.c.input.cond = .trns) :
    (execute cmd arg s).response = correctPassword := by
  have hx := (execute_executes cmd arg s).cond_eq
  rw [hcond, hbefore] at hx
  have hgrants := hx.resolve_left (by simp)
  have hcmd : cmd = .token := by simpa [Act.grants] using (Bool.and_eq_true_iff.mp hgrants).1
  subst hcmd
  change (executeToken _ _ s).s.c.input.cond = .trns at hcond
  change (executeToken _ _ s).response = _
  unfold executeToken at hcond ⊢
  dsimp only at hcond ⊢
  split_ifs at hcond ⊢ with hc
  · rfl
  · change s.c.input.cond = .trns at hcond
    rw [hbefore] at hcond
    cases hcond

/-- A turn on a piece of the line waits for more of it, and one on the line answers it. -/
theorem Greeted.turn (h : Greeted tokens s) (hstart : s.c.input.tok = 0)
    (hnew : s.c.input.cur < s.c.input.lim) (hl : OnlyToken l tok)
    (hpriv : tok.cmd.privileged = false) (hp : received s.log <+: l) :
    ((turn s).2 = true → Replied tokens l (tok.pair l) (turn s).1 ∧ Segmented tokens (turn s).1 ∧
      (turn s).1.c.input.state = none ∧ (turn s).1.c.input.text = []) ∧
    ((turn s).2 = false → Greeted tokens (turn s).1 ∧
      nextToken .pass (received (turn s).1.log) = none) := by
  have hseg := h.segmented
  obtain ⟨hcond, htext⟩ := h.text_eq
  rcases hl.piece hp with hnone | ⟨hall, hsome⟩
  · obtain ⟨ths, hturn, hseg'⟩ :=
      hseg.turn_incomplete (.inr hnew) (by rw [hcond, htext]; exact hnone)
    rw [hturn] at hseg' ⊢
    exact ⟨fun hf => by (cases hf), fun _ =>
      ⟨⟨hseg', h.acts_eq, h.pending, .inl hstart, h.stream_eq, h.limit, h.written⟩, hnone⟩⟩
  · have hnext :
        nextToken s.c.input.cond s.c.input.text = some tok := by rw [hcond, htext]; exact hsome
    have htok := nextToken_isToken hnext
    have hparse := parseMgmtRequest_token hseg.sound hseg.resumable (.inr hnew) hnext
    obtain ⟨hpair, -, hinput⟩ := execute_token hseg.sound htok
    have hshort := execute_short hpriv (tok.arg.map (moveArg s.c.input.tok))
      (s.setInput (s.c.input.skip tok.len))
    have hwelcome := execute_welcome tok.cmd (tok.arg.map (moveArg s.c.input.tok))
      (s.setInput (s.c.input.skip tok.len)) hcond
    have hx := execute_executes tok.cmd (tok.arg.map (moveArg s.c.input.tok))
      (s.setInput (s.c.input.skip tok.len))
    obtain ⟨hact, hstate⟩ := hseg.acted hnext rfl
    have hcases := turn_cases hparse rfl
    dsimp only at hcases hpair hinput
    generalize execute tok.cmd _ _ = r at hshort hwelcome hx hact hstate hcases hpair hinput
    rw [htext, hall] at hpair hinput
    -- behind the greeting there is room for any such response
    have hroom : 512 ≤ bufferWritePtr s.c.writeBuf := by
      have hlen : hello.length + 512 ≤ mgmtBuffsize := by decide +kernel
      have hwritten := h.written
      rw [bufferWritePtr, h.limit]
      omega
    have hfit : r.response.length ≤ bufferWritePtr r.s.c.writeBuf := by
      rw [hx.writeBuf_eq]
      exact Nat.le_trans hshort.1 hroom
    have hpb : bufferReadPtr r.s.c.pendingBuf = [] := by
      rw [hx.pendingBuf_eq]
      exact h.pending
    rcases hcases with ⟨hinc, -⟩ | ⟨-, hlt, -⟩ | ⟨-, -, hturn⟩
    · exact absurd hinc htok.cmd
    · omega
    rw [hturn]
    refine ⟨fun _ => ⟨⟨?_, hpb, ?_, r.response, ?_, ?_, hwelcome⟩,
      ⟨hact.tokens_eq, hact.size, hact.sound, hact.resumable, hact.lexes⟩, hstate, ?_⟩,
        fun hf => by (cases hf)⟩
    · have hlog : r.s.log = s.log := hx.log_eq
      simp [hlog, hall]
    · change r.s.c.input.cond = _
      rw [hinput, hseg.tokens_eq, hcond]
    · have hlog : r.s.log = s.log := hx.log_eq
      simp [hlog, h.acts_eq, ← hpair]
    · have hlog : r.s.log = s.log := hx.log_eq
      have hw : r.s.c.writeBuf = s.c.writeBuf := hx.writeBuf_eq
      rw [← h.stream_eq]
      simp [Session.stream, hlog, hw, hpb, h.pending, writeResponse, hw ▸ hfit]
    · change r.s.c.input.text = []
      apply List.eq_nil_of_length_eq_zero
      rw [Input.text_length]
      have hlen := hl.2
      have hle := congrArg List.length (htext.trans hall)
      rw [Input.text_length] at hle
      rw [hinput]
      dsimp only [Input.skip]
      omega

theorem processMgmtClient_received (s : Session) :
    received (processMgmtClient s).log = received s.log := by
  refine processLoop_rule (P := fun t => received t.log = received s.log)
    (Q := fun t => received t.log = received s.log) (fun _ h => h) ?_ rfl
  intro t ht
  have hx := execute_executes (parseMgmtRequest t.c.input).cmd (parseMgmtRequest t.c.input).arg
    (t.setInput (parseMgmtRequest t.c.input).input)
  have hcases := turn_cases (s := t) rfl rfl
  generalize execute _ _ _ = r at hx hcases
  have hlog : received r.s.log = received s.log := by
    rw [hx.log_eq]
    exact ht
  have hturn : received (Socks5d.turn t).1.log = received s.log := by
    rcases hcases with ⟨-, heq⟩ | ⟨-, -, heq⟩ | ⟨-, -, heq⟩
    · rw [heq]
      exact ht
    · rw [heq]
      simpa using hlog
    · rw [heq]
      simpa using hlog
  exact ⟨fun _ => hturn, fun _ => hturn⟩

theorem Greeted.process (h : Greeted tokens s) (hstart : s.c.input.tok = 0)
    (hnew : s.c.input.cur < s.c.input.lim) (hl : OnlyToken l tok)
    (hpriv : tok.cmd.privileged = false) (hp : received s.log <+: l) :
    (Greeted tokens (processMgmtClient s) ∧ nextToken .pass (received (processMgmtClient s).log) =
      none) ∨
      Replied tokens l (tok.pair l) (processMgmtClient s) := by
  refine processMgmtClient_rule
    (P := fun s => Replied tokens l (tok.pair l) s ∧ Segmented tokens s ∧ s.c.input.state = none ∧
      s.c.input.text = [])
    (Q := fun s => (Greeted tokens s ∧ nextToken .pass (received s.log) = none) ∨
      Replied tokens l (tok.pair l) s)
    (fun _ hP => .inr hP.1) ?_ turnsMeet_true ?_
  · -- behind the line there is nothing
    intro s _ hP
    obtain ⟨ths, hturn, -⟩ := hP.2.1.turn_incomplete (.inl hP.2.2.1) (by rw [hP.2.2.2]; rfl)
    rw [hturn]
    exact ⟨fun hf => by (cases hf), fun _ => .inr (hP.1.same ⟨rfl, .refl _, rfl, rfl⟩ rfl rfl)⟩
  · intro _
    obtain ⟨htrue, hfalse⟩ := h.turn hstart hnew hl hpriv hp
    exact ⟨htrue, fun hstop => .inl (hfalse hstop)⟩

/-- What has become of a connection on which pieces of the line `l` have arrived. -/
def AtLogin (tokens : List (List UInt8)) (l : List UInt8) (pr : Pair) (s : Session) : Prop :=
  received s.log <+: l →
    (Greeted tokens s ∧ nextToken .pass (received s.log) = none) ∨ Replied tokens l pr s

theorem Greeted.filled (h : Greeted tokens s) (r : ReadResult) :
    Greeted tokens (filled r s) := by
  have hcut : ¬ s.c.input.cutsArgument := by
    rintro ⟨hne, th, hth, -⟩
    rcases h.atStart with h0 | hnone
    · exact hne h0
    · rw [hnone] at hth
      cases hth
  have hu := Undisturbed.filled s r
  exact ⟨h.segmented.fill r hcut, hu.acts_eq.trans h.acts_eq, h.pending, .inl (Nat.sub_self _),
    hu.stream_eq.trans h.stream_eq, h.limit, h.written⟩

theorem AtLogin.read (hl : OnlyToken l tok) (hpriv : tok.cmd.privileged = false)
    (h : AtLogin tokens l (tok.pair l) s) {r : ReadResult} (hr : r ≠ .again) :
    AtLogin tokens l (tok.pair l) (sessionStep s (.read r)) := by
  intro hp
  rcases read_cases r s with heq | ⟨-, -, hcases⟩
  · rw [heq] at hp ⊢
    exact h hp
  have hlog : received (filled r s).log = received s.log ++ r.bytes s.c.input.free := by
    simp [Socks5d.filled]
  have hbytes : checkEOF (fillBuffer s.c.input r).2 r.isAgain = true ↔
      r.bytes s.c.input.free = [] :=
    checkEOF_fillBuffer hr
  rcases hcases with ⟨heof, heq⟩ | ⟨heof, -, heq⟩
  · -- nothing more has arrived
    rw [hbytes.mp heof, List.append_nil] at hlog
    rw [heq] at hp ⊢
    change received (filled r s).log <+: l at hp
    rw [hlog] at hp
    have hu := (Undisturbed.filled s r).trans (.unregister _)
    rcases h hp with ⟨hg, hnone⟩ | hserved
    · have hf := hg.filled r
      refine .inl ⟨hf.same (.unregister _) rfl rfl rfl rfl rfl (Nat.le_refl _), ?_⟩
      change nextToken .pass (received (filled r s).log) = none
      rw [hlog]
      exact hnone
    · exact .inr (hserved.same hu hlog rfl)
  · have hne : r.bytes s.c.input.free ≠ [] := fun hnil => by
      rw [hbytes.mpr hnil] at heof
      cases heof
    rw [heq] at hp ⊢
    change received (processMgmtClient (filled r s)).log <+: l at hp
    rw [processMgmtClient_received, hlog] at hp
    rcases h ((List.prefix_append _ _).trans hp) with ⟨hg, -⟩ | hdone
    · have hnew : (filled r s).c.input.cur < (filled r s).c.input.lim := by
        have hpos := List.length_pos_iff.mpr hne
        have h1 := hg.segmented.sound.tok_le
        have h2 := hg.segmented.sound.cur_le
        simp only [Socks5d.filled, Session.observe_c, Session.setInput, fillBuffer]
        omega
      rw [← hlog] at hp
      rcases (hg.filled r).process (Nat.sub_self _) hnew hl hpriv hp with ⟨hg', hnone⟩ | hdone
      · exact .inl ⟨hg'.same ⟨rfl, .refl _, rfl, rfl⟩ rfl rfl rfl rfl rfl (Nat.le_refl _), hnone⟩
      · exact .inr (hdone.same ⟨rfl, .refl _, rfl, rfl⟩ rfl rfl)
    · -- the line has arrived already
      rw [hdone.received_eq] at hp
      have hlen := hp.length_le
      rw [List.length_append] at hlen
      have hpos := List.length_pos_iff.mpr hne
      omega

/-- Anything that leaves the log and the buffers as far as they matter here. -/
theorem AtLogin.same {pr : Pair} (h : AtLogin tokens l pr s) (hu : Undisturbed s t)
    (htok : t.tokens = s.tokens) (hreceived : received t.log = received s.log)
    (hpend : t.c.pendingBuf = s.c.pendingBuf) (hinput : t.c.input = s.c.input)
    (hlimit : t.c.writeBuf.limit = s.c.writeBuf.limit)
    (hwrite : t.c.writeBuf.write ≤ s.c.writeBuf.write) : AtLogin tokens l pr t := by
  intro hp
  rw [hreceived] at hp ⊢
  rcases h hp with ⟨hg, hnone⟩ | hdone
  · exact .inl ⟨hg.same hu htok hreceived hpend hinput hlimit hwrite, hnone⟩
  · exact .inr (hdone.same hu hreceived hpend)

/-- With nothing pending, a write event is only a send. -/
theorem AtLogin.write {pr : Pair} (h : AtLogin tokens l pr s) (r : SendResult) :
    AtLogin tokens l pr (sessionStep s (.write r)) := by
  have hsent : ∀ t : Session, received (sendOut r t).log = received t.log := by
    intro t
    rcases sendOut_cases r t with heq | ⟨heq, -⟩
    · rw [heq]
      simp [afterSend]
    · rw [heq]
      simp [afterSend, Session.unregister]
  rcases write_cases r s with heq | heq | ⟨-, -, heq, ⟨hsame, -⟩ | ⟨hfit, hstart, hproc⟩⟩
  · rw [heq]
    exact h
  · rw [heq]
    exact h.same ⟨rfl, .refl _, rfl, rfl⟩ rfl rfl rfl rfl rfl (Nat.le_refl _)
  · rw [heq, hsame]
    have hbuf := writeToSock_write_le r s.c.writeBuf
    have hu := Undisturbed.sendOut s r
    have hlog := hsent s
    rcases sendOut_cases r s with hend | ⟨hend, -⟩
    · rw [hend] at hu hlog ⊢
      exact h.same hu rfl hlog rfl rfl hbuf.2 hbuf.1
    · rw [hend] at hu hlog ⊢
      exact h.same hu rfl hlog rfl rfl hbuf.2 hbuf.1
  · -- nothing is pending, neither before the line nor behind it
    intro hp
    rw [heq, hsent, hproc, processMgmtClient_received] at hp
    have hpend : bufferReadPtr s.c.pendingBuf = [] := by
      rcases h hp with ⟨hg, -⟩ | hdone
      · exact hg.pending
      · exact hdone.pending
    rw [loopStart, if_pos] at hstart
    · cases hstart
    · have hcan := mt bufferCanRead_iff.mp (not_not.mpr hpend)
      simp [hcan]

theorem AtLogin.step (hl : OnlyToken l tok) (hpriv : tok.cmd.privileged = false)
    (h : AtLogin tokens l (tok.pair l) s) {ev : MgmtEvent} (hev : ev ≠ .read .again) :
    AtLogin tokens l (tok.pair l) (sessionStep s ev) := by
  cases ev with
  | read r => exact h.read hl hpriv fun hr => hev (by rw [hr])
  | write r => exact h.write r
  | server e =>
    intro hp
    rcases h hp with ⟨hg, hnone⟩ | hdone
    · exact .inl
        ⟨⟨hg.segmented.same rfl rfl rfl rfl, hg.acts_eq, hg.pending, hg.atStart, hg.stream_eq,
        hg.limit, hg.written⟩, hnone⟩
    · exact .inr ⟨hdone.received_eq, hdone.pending, hdone.cond_eq, hdone.answer⟩

theorem openSession_atLogin (server : Server) (tokens : List (List UInt8)) (sock : ℤ)
    (raw : RawMgmt) (l : List UInt8)
    (pr : Pair) : AtLogin tokens l pr (openSession server tokens sock raw) := by
  intro _
  have hfit : hello.length ≤ bufferWritePtr (bufferInit mgmtBuffsize raw.write) := by
    have hlen : hello.length ≤ mgmtBuffsize := by decide
    exact hlen
  refine .inl ⟨⟨(openSession_segmented server tokens sock raw).1, rfl, rfl, .inr rfl, ?_, ?_, ?_⟩,
    rfl⟩
  · simp [Session.stream, openSession, createMgmtClient, writeResponse, hfit, sent]
  · simp only [openSession, createMgmtClient, writeResponse, hfit]
    rfl
  · simp only [openSession, createMgmtClient, writeResponse, hfit]
    exact Nat.le_of_eq (Nat.zero_add _)

/-- When all of the line has arrived, it was answered. -/
theorem exec_replied (server : Server) (tokens : List (List UInt8)) (sock : ℤ) (raw : RawMgmt)
    {evs : List MgmtEvent} (hevs : ∀ ev ∈ evs, ev ≠ .read .again) (hl : OnlyToken l tok)
    (hpriv : tok.cmd.privileged = false) :
    AtLogin tokens l (tok.pair l) (exec sessionStep (openSession server tokens sock raw) evs) :=
  exec_invariant_along (P := AtLogin tokens l (tok.pair l))
    (openSession_atLogin server tokens sock raw l _)
    (fun _ _ hev h => h.step hl hpriv hev) (along_of_forall hevs)

theorem AtLogin.replied (h : AtLogin tokens l pr s) (hl : OnlyToken l tok)
    (hreceived : received s.log = l) :
    Replied tokens l pr s := by
  rcases h (hreceived ▸ List.prefix_rfl) with ⟨-, hnone⟩ | hdone
  · rw [hreceived, hl.1] at hnone
    cases hnone
  · exact hdone

/-- A connection to a server that knows one token. -/
def tokenSession (token : String) (evs : List MgmtEvent) : Session :=
  exec sessionStep (openSession (boot [] [] []) (addTokens [asc token]) 3 blankRaw) evs

end

end Socks5d
