import Socks5d.MgmtGate

/-! # The management parser and segmentation

What the lexer makes of a stream does not depend on how it arrives, as long as the
buffer is not moved behind the back of an argument that was begun. -/

namespace Socks5d
open Memory Scanner EventRun

abbrev Pair := MgmtCommand × Option (List UInt8)

/-! ## Streams -/

/-- The condition after a command. -/
def nextCond (tokens : List (List UInt8)) (pr : Pair) (cond : Cond) : Cond :=
  if pr.1 = .token ∧ pr.2.any (checkToken tokens) = true then .trns else cond

def MgmtToken.pair (t : MgmtToken) (bs : List UInt8) : Pair :=
  (t.cmd, t.arg.map fun a => (bs.drop a.1).take (a.2 - a.1))

/-- Under `cond`, the stream `bs` begins with the commands `ps`; `rest` is left, to
be read under `cond'`. -/
inductive Lexes (tokens : List (List UInt8)) :
    Cond → List UInt8 → List Pair → Cond → List UInt8 → Prop
  | nil {cond bs} : Lexes tokens cond bs [] cond bs
  | cons {cond bs t ps cond' rest} : nextToken cond bs = some t →
    Lexes tokens (nextCond tokens (t.pair bs) cond) (bs.drop t.len) ps cond' rest →
    Lexes tokens cond bs (t.pair bs :: ps) cond' rest

variable {tokens : List (List UInt8)} {cond cond' cond₁ cond₂ : Cond}
    {bs rest rest₁ rest₂ : List UInt8}
  {ps ps₁ ps₂ : List Pair} {pr : Pair} {inp : Input} {s : Session}

/-- The argument of a token lies inside it. -/
theorem IsToken.pair_append {t : MgmtToken} (h : IsToken bs t) (more : List UInt8) :
    t.pair (bs ++ more) = t.pair bs := by
  unfold MgmtToken.pair
  cases hc : t.cmd.takesArg with
  | false => rw [h.noArg hc]; rfl
  | true =>
    obtain ⟨a, e, ha, harg⟩ := h.hasArg hc
    have hlt := harg.lt
    have hae := harg.le
    have hle := h.le
    rw [List.length_take] at hlt
    rw [ha]
    simp only [Option.map_some, Prod.mk.injEq, Option.some.injEq, true_and]
    rw [List.drop_append_of_le_length (by omega), List.take_append_of_le_length]
    rw [List.length_drop]
    omega

theorem Lexes.append (h : Lexes tokens cond bs ps cond' rest) (more : List UInt8) :
    Lexes tokens cond (bs ++ more) ps cond' (rest ++ more) := by
  induction h with
  | nil => exact .nil
  | @cons cond bs t ps cond' rest ht _ ih =>
    have htok := nextToken_isToken ht
    have hpair := htok.pair_append more
    rw [← List.drop_append_of_le_length htok.le, ← hpair] at ih
    rw [← hpair]
    exact .cons (nextToken_append ht) ih

theorem Lexes.snoc {t : MgmtToken} (h : Lexes tokens cond bs ps cond' rest)
    (ht : nextToken cond' rest = some t) :
    Lexes tokens cond bs (ps ++ [t.pair rest]) (nextCond tokens (t.pair rest) cond')
      (rest.drop t.len) := by
  induction h with
  | nil => exact .cons ht .nil
  | cons ht' _ ih => exact .cons ht' (ih ht)

/-- A stream is read in one way; who stops early has read less. -/
theorem Lexes.prefix_of_done (h₁ : Lexes tokens cond bs ps₁ cond₁ rest₁)
    (h₂ : Lexes tokens cond bs ps₂ cond₂ rest₂) (hdone : nextToken cond₂ rest₂ = none) :
    ps₁ <+: ps₂ := by
  induction h₁ generalizing ps₂ with
  | nil => exact List.nil_prefix
  | cons ht _ ih =>
    cases h₂ with
    | nil =>
      rw [ht] at hdone
      cases hdone
    | cons ht' h₂ =>
      rw [ht, Option.some.injEq] at ht'
      subst ht'
      exact (List.prefix_cons_inj _).mpr (ih h₂)

theorem Lexes.eq_of_done (h₁ : Lexes tokens cond bs ps₁ cond₁ rest₁)
    (h₂ : Lexes tokens cond bs ps₂ cond₂ rest₂) (hd₁ : nextToken cond₁ rest₁ = none)
    (hd₂ : nextToken cond₂ rest₂ = none) : ps₁ = ps₂ :=
  (h₁.prefix_of_done h₂ hd₂).eq_of_length_le (h₂.prefix_of_done h₁ hd₁).length_le

theorem Lexes.suffix (h : Lexes tokens cond bs ps cond' rest) : rest <:+ bs := by
  induction h with
  | nil => exact List.suffix_rfl
  | cons _ _ ih => exact ih.trans (List.drop_suffix _ _)

/-! ## The whole stream in the buffer -/

/-- A buffer that holds all of `bs`. -/
def wholeInput (bs : List UInt8) : Input where
  buf := store (fun _ => 0) 0 bs
  bufSize := bs.length
  lim := bs.length
  cur := 0
  mar := 0
  tok := 0
  state := none
  cond := .pass

/-- The commands and arguments that repeated calls of the lexer find in one buffer. -/
def lexWhole (tokens : List (List UInt8)) : ℕ → Input → List Pair
  | 0, _ => []
  | n + 1, inp =>
    let p := parseMgmtRequest inp
    if p.cmd = .incomplete then []
    else
      let pr : Pair := (p.cmd, p.arg.map fun a => slice inp.buf a.1 (a.2 - a.1))
      pr :: lexWhole tokens n { p.input with cond := nextCond tokens pr p.input.cond }

def reference (tokens : List (List UInt8)) (bs : List UInt8) : List Pair :=
  lexWhole tokens (bs.length + 1) (wholeInput bs)

theorem Input.text_length : inp.text.length = inp.lim - inp.tok := slice_length

/-- The text behind a token. -/
theorem Input.text_after {k : ℕ} :
    slice inp.buf (inp.tok + k) (inp.lim - (inp.tok + k)) = inp.text.drop k := by
  rw [Input.text, slice_drop, Nat.sub_add_eq]

/-- An argument in the text, where it lies in the buffer. -/
theorem Input.text_arg {a e : ℕ} (he : e ≤ inp.text.length) :
    slice inp.buf (a + inp.tok) (e - a) = (inp.text.drop a).take (e - a) := by
  rw [Input.text_length] at he
  rw [Input.text, slice_drop, slice_take (by omega), Nat.add_comm a]

theorem IsToken.pair_eq {t : MgmtToken} (h : IsToken inp.text t) :
    (t.cmd, (t.arg.map (moveArg inp.tok)).map fun a => slice inp.buf a.1 (a.2 - a.1)) =
      t.pair inp.text := by
  unfold MgmtToken.pair
  cases hc : t.cmd.takesArg with
  | false => rw [h.noArg hc]; rfl
  | true =>
    obtain ⟨a, e, ha, harg⟩ := h.hasArg hc
    have hlt := harg.lt
    rw [List.length_take] at hlt
    rw [ha]
    simp only [Option.map_some, moveArg, Prod.mk.injEq, Option.some.injEq, true_and]
    rw [Nat.add_sub_add_right]
    exact Input.text_arg (by omega)

theorem lexWhole_lexes (tokens : List (List UInt8)) (n : ℕ) (inp : Input) (hs : inp.Sound)
    (hstate : inp.state = none) (hn : inp.text.length < n) :
    ∃ cond' rest, Lexes tokens inp.cond inp.text (lexWhole tokens n inp) cond' rest ∧
      nextToken cond' rest = none := by
  induction n generalizing inp with
  | zero => exact absurd hn (Nat.not_lt_zero _)
  | succ n ih =>
    have hres : inp.Resumable := by
      intro ths hths
      rw [hstate] at hths
      cases hths
    rw [lexWhole]
    cases ht : nextToken inp.cond inp.text with
    | none =>
      obtain ⟨ths, -, hp⟩ := parseMgmtRequest_incomplete hs hres (.inl hstate) ht
      rw [hp]
      exact ⟨_, _, .nil, ht⟩
    | some t =>
      -- one token, and the rest by induction
      have htok := nextToken_isToken ht
      have hp := parseMgmtRequest_token hs hres (.inl hstate) ht
      have hle := htok.le
      have hpos := htok.pos
      rw [Input.text_length] at hle hn
      have hlim := hs.lim_le
      rw [hp]
      dsimp only
      rw [if_neg htok.cmd, htok.pair_eq]
      obtain ⟨cond', rest, hl, hd⟩ := ih { inp.skip t.len with
        cond := nextCond tokens (t.pair inp.text) inp.cond }
        ⟨Nat.le_refl _, by dsimp only [Input.skip]; omega, hlim, fun _ => rfl,
          fun h => absurd rfl h⟩ rfl
        (by rw [Input.text_length]; dsimp only [Input.skip]; omega)
      refine ⟨cond', rest, .cons ht ?_, hd⟩
      rw [← Input.text_after]
      exact hl

theorem reference_lexes (tokens : List (List UInt8)) (bs : List UInt8) :
    ∃ cond' rest, Lexes tokens .pass bs (reference tokens bs) cond' rest ∧
      nextToken cond' rest = none := by
  have htext : (wholeInput bs).text = bs := by
    have hself := slice_store_self (m := fun _ => 0) (i := 0) bs
    exact hself
  have hs : (wholeInput bs).Sound :=
    ⟨Nat.le_refl _, Nat.zero_le _, Nat.le_refl _, fun _ => rfl, fun h => absurd rfl h⟩
  have h := lexWhole_lexes tokens (bs.length + 1) (wholeInput bs) hs rfl (by rw [htext]; omega)
  rw [htext] at h
  exact h

/-! ## Filling the buffer -/

/-- An argument was begun, and the buffer will be moved. -/
def Input.cutsArgument (inp : Input) : Prop :=
  inp.tok ≠ 0 ∧ ∃ th ∈ inp.state.getD [], th.marks ≠ []

theorem ReadResult.bytes_le (r : ReadResult) (size : ℕ) : (r.bytes size).length ≤ size := by
  cases r with
  | data bs => exact List.length_take_le size bs
  | again => exact Nat.zero_le _
  | error => exact Nat.zero_le _

section
variable (hs : inp.Sound) (r : ReadResult)
include hs

theorem fillBuffer_sound : (fillBuffer inp r).1.Sound := by
  have h1 := hs.tok_le
  have h2 := hs.cur_le
  have h3 := hs.lim_le
  have hb := r.bytes_le inp.free
  unfold Input.free at hb
  refine ⟨?_, ?_, ?_, ?_, ?_⟩
  · simp only [fillBuffer]
    omega
  · simp only [fillBuffer, Input.free]
    omega
  · simp only [fillBuffer, Input.free]
    omega
  · intro hnone
    have hf := hs.fresh hnone
    simp only [fillBuffer]
    omega
  · intro hne
    simp only [fillBuffer] at hne ⊢
    have hm := hs.marked (by omega)
    omega

/-- Up to `n` symbols of the old text are where they were, counted from its start. -/
theorem fillBuffer_slice {n : ℕ} (hn : n ≤ inp.lim - inp.tok) :
    slice (fillBuffer inp r).1.buf 0 n = slice inp.buf inp.tok n := by
  have h1 := hs.tok_le
  have h2 := hs.cur_le
  have h3 := hs.lim_le
  simp only [fillBuffer]
  rw [slice_store_below _ (by omega), slice_store_below _ (by omega), slice_move (by omega)]

theorem fillBuffer_text : (fillBuffer inp r).1.text = inp.text ++ r.bytes inp.free := by
  have h1 := hs.tok_le
  have h2 := hs.cur_le
  have h3 := hs.lim_le
  generalize hbs : r.bytes inp.free = bs
  have hlen : (fillBuffer inp r).1.lim - (fillBuffer inp r).1.tok =
      inp.lim - inp.tok + bs.length := by
    simp only [fillBuffer, hbs]
    omega
  have htok : (fillBuffer inp r).1.tok = 0 := Nat.sub_self _
  rw [Input.text, hlen, htok]
  simp only [fillBuffer, hbs]
  rw [slice_store_below _ (by omega)]
  have happ := slice_store_append (m := move inp.buf 0 inp.tok (inp.bufSize - inp.tok)) (i := 0)
    (n := inp.lim - inp.tok) bs
  rw [Nat.zero_add] at happ
  rw [happ, slice_move (by omega)]
  rfl

theorem fillBuffer_seen : (fillBuffer inp r).1.seen = inp.seen := by
  have h1 := hs.tok_le
  have h2 := hs.cur_le
  have htok : (fillBuffer inp r).1.tok = 0 := Nat.sub_self _
  have hlen : (fillBuffer inp r).1.cur - (fillBuffer inp r).1.tok = inp.cur - inp.tok := by
    simp only [fillBuffer]
    omega
  rw [Input.seen, hlen, htok, fillBuffer_slice hs r (by omega)]
  rfl

/-- The threads that were saved still fit, unless an argument was cut. -/
theorem fillBuffer_resumable (hr : inp.Resumable) (hcut : ¬ inp.cutsArgument) :
    (fillBuffer inp r).1.Resumable := by
  intro ths hths
  have hstate : inp.state = some ths := hths
  obtain ⟨ths₀, hrun, heq⟩ := hr ths hstate
  have htok : (fillBuffer inp r).1.tok = 0 := Nat.sub_self _
  refine ⟨ths₀, ?_, ?_⟩
  · rw [fillBuffer_seen hs r]
    exact hrun
  rw [htok, heq]
  refine List.map_congr_left fun th hth => ?_
  by_cases h0 : inp.tok = 0
  · rw [h0]
  · have hmarks : (th.shift inp.tok).marks = [] := by
      by_contra hne
      refine hcut ⟨h0, th.shift inp.tok, ?_, hne⟩
      rw [hstate, heq]
      exact List.mem_map_of_mem hth
    have hnil : th.marks = [] := List.map_eq_nil_iff.mp hmarks
    simp [Thread.shift, hnil, Marks.shift]

end

/-! ## Arguments in the buffer -/

/-- The string at `args`, once it is ended at `arge`. -/
theorem argText_terminate {args arge : ℕ} (h : args ≤ arge) (hle : arge ≤ s.c.input.bufSize)
    (h0 : 0 ∉ slice s.c.input.buf args (arge - args)) :
    (s.terminate arge).c.input.argText args = slice s.c.input.buf args (arge - args) := by
  have hlen : s.c.input.bufSize + 1 - args = (arge - args) + (1 + (s.c.input.bufSize - arge)) := by
    omega
  have hsum : args + (arge - args) = arge := by omega
  change cString (slice (store s.c.input.buf arge [0]) args (s.c.input.bufSize + 1 - args)) = _
  rw [hlen, slice_add, hsum, slice_add, slice_store_below _ (by omega)]
  have hzero : slice (store s.c.input.buf arge [0]) arge 1 = [0] := slice_store_self [0]
  rw [hzero]
  exact cString_zero h0

theorem execute_noArg {cmd : MgmtCommand} (h : cmd.takesArg = false) (arg : Option (ℕ × ℕ)) :
    (execute cmd arg s).arg = none ∧ (execute cmd arg s).s.c.input = s.c.input := by
  cases cmd with
  | token | setBuffsize | setDissectorStatus | addUser => cases h
  | _ => exact ⟨rfl, rfl⟩

/-- The colon is not part of what is left. -/
theorem addUser_left_lt (users : UserTable) {userpass : List UInt8} (h : colon ∈ userpass) :
    (addUser users userpass).2.2.length < userpass.length := by
  rw [addUser_left]
  refine Nat.lt_of_le_of_ne (List.takeWhile_sublist _).length_le fun heq => ?_
  have hself := (List.takeWhile_sublist _).eq_of_length heq
  rw [← hself] at h
  have hne := List.all_eq_true.mp (List.all_takeWhile (l := userpass)) colon h
  simp at hne

/-- What a command does with the text of its argument: it writes nowhere behind it. -/
structure ReadsArg (s : Session) (cmd : MgmtCommand) (arge : ℕ) (text : List UInt8)
    (r : Executed) : Prop where
  arg : r.arg = some text
  behind : ∀ k, arge < k → r.s.c.input.buf k = s.c.input.buf k
  input_eq : r.s.c.input = { s.c.input with
    buf := r.s.c.input.buf
    cond := nextCond s.tokens (cmd, some text) s.c.input.cond }

theorem nextCond_of_ne {cmd : MgmtCommand} (hne : cmd ≠ .token) (arg : Option (List UInt8)) :
    nextCond tokens (cmd, arg) cond = cond := if_neg fun h => hne h.1

theorem terminate_behind {arge k : ℕ} (h : arge < k) :
    (s.terminate arge).c.input.buf k = s.c.input.buf k := store_outside (.inr h)

section
variable {args arge : ℕ} {text : List UInt8}
  (htext : (s.terminate arge).c.input.argText args = text)
include htext

theorem executeToken_reads : ReadsArg s .token arge text (executeToken args arge s) := by
  have htok : (s.terminate arge).tokens = s.tokens := rfl
  unfold executeToken
  dsimp only
  rw [htext, htok]
  by_cases hc : checkToken s.tokens text = true
  · rw [if_pos hc]
    refine ⟨rfl, fun k hk => terminate_behind hk, ?_⟩
    rw [nextCond, if_pos ⟨rfl, hc⟩]
    rfl
  · rw [if_neg hc]
    refine ⟨rfl, fun k hk => terminate_behind hk, ?_⟩
    rw [nextCond, if_neg fun hx => hc hx.2]
    rfl

theorem executeSetBuffsize_reads :
    ReadsArg s .setBuffsize arge text (executeSetBuffsize args arge s) := by
  refine ⟨?_, ?_, ?_⟩
  · unfold executeSetBuffsize
    dsimp only
    rw [htext]
    split_ifs <;> rfl
  · intro k hk
    unfold executeSetBuffsize
    dsimp only
    split_ifs
    · exact terminate_behind hk
    · exact terminate_behind hk
  · rw [nextCond_of_ne (by simp)]
    exact (executeSetBuffsize_framed args arge s).input_eq

theorem executeSetDissector_reads (hlen : args + text.length ≤ arge) :
    ReadsArg s .setDissectorStatus arge text (executeSetDissector args arge s) := by
  have hlow : ∀ k, arge < k →
      store (s.terminate arge).c.input.buf args (text.map tolower) k = s.c.input.buf k := by
    intro k hk
    rw [store_outside, terminate_behind hk]
    rw [List.length_map]
    omega
  refine ⟨?_, ?_, ?_⟩
  · unfold executeSetDissector
    dsimp only
    rw [htext]
    split_ifs <;> rfl
  · unfold executeSetDissector
    dsimp only
    rw [htext]
    split_ifs
    · exact hlow
    · exact hlow
    · exact hlow
  · rw [nextCond_of_ne (by simp)]
    exact (executeSetDissector_framed args arge s).input_eq

theorem executeAddUser_reads (hlen : args + text.length ≤ arge) :
    ReadsArg s .addUser arge text (executeAddUser args arge s) := by
  refine ⟨?_, ?_, ?_⟩
  · unfold executeAddUser
    dsimp only
    rw [htext]
    rfl
  · unfold executeAddUser
    dsimp only
    rw [htext]
    intro k hk
    by_cases hcolon : colon ∈ text
    · -- the name that is ended here is shorter than the argument
      have hlt := addUser_left_lt (s.terminate arge).server.w.users hcolon
      rw [if_pos hcolon]
      change store (s.terminate arge).c.input.buf _ [0] k = _
      rw [store_outside, terminate_behind hk]
      rw [List.length_singleton]
      omega
    · rw [if_neg hcolon]
      exact terminate_behind hk
  · rw [nextCond_of_ne (by simp)]
    exact (executeAddUser_framed args arge s).input_eq

end

theorem execute_arg {cmd : MgmtCommand} {args arge : ℕ} (hcmd : cmd.takesArg = true)
    (h : args ≤ arge) (hle : arge ≤ s.c.input.bufSize)
    (h0 : 0 ∉ slice s.c.input.buf args (arge - args)) :
    ReadsArg s cmd arge (slice s.c.input.buf args (arge - args))
      (execute cmd (some (args, arge)) s) := by
  have htext := argText_terminate h hle h0
  have hlen : args + (slice s.c.input.buf args (arge - args)).length ≤ arge := by
    rw [slice_length]
    omega
  cases cmd with
  | token => exact executeToken_reads htext
  | setBuffsize => exact executeSetBuffsize_reads htext
  | setDissectorStatus => exact executeSetDissector_reads htext hlen
  | addUser => exact executeAddUser_reads htext hlen
  | invalidCmd | incomplete | stats | capa | users | getBuffsize | getDissectorStatus | quit
  | invalidArgs => cases hcmd

/-! ## Turns -/

/-- What a command does that was found in the text. -/
theorem execute_token {t : MgmtToken} (hs : s.c.input.Sound) (ht : IsToken s.c.input.text t) :
    let inp := s.c.input
    let r := execute t.cmd (t.arg.map (moveArg inp.tok)) (s.setInput (inp.skip t.len))
    (t.cmd, r.arg) = t.pair inp.text ∧
      (∀ k, inp.tok + t.len ≤ k → r.s.c.input.buf k = inp.buf k) ∧
      r.s.c.input = { inp.skip t.len with
        buf := r.s.c.input.buf
        cond := nextCond s.tokens (t.pair inp.text) inp.cond } := by
  dsimp only
  cases hc : t.cmd.takesArg with
  | false =>
    have hx := execute_noArg (s := s.setInput (s.c.input.skip t.len)) hc
      (t.arg.map (moveArg s.c.input.tok))
    have hpair : t.pair s.c.input.text = (t.cmd, none) := by
      rw [MgmtToken.pair, ht.noArg hc]
      rfl
    have hcond : nextCond s.tokens (t.cmd, none) s.c.input.cond = s.c.input.cond :=
      if_neg (by simp)
    rw [hpair, hcond, hx.1, hx.2]
    exact ⟨rfl, fun _ _ => rfl, rfl⟩
  | true =>
    obtain ⟨a, e, ha, harg⟩ := ht.hasArg hc
    have hlt := harg.lt
    have hae := harg.le
    have hle := ht.le
    have hlim := hs.lim_le
    rw [Input.text_length] at hle
    rw [List.length_take, Input.text_length] at hlt
    generalize htok : s.c.input.tok = tok at *
    have htext : slice (s.setInput (s.c.input.skip t.len)).c.input.buf (a + tok)
        (e + tok - (a + tok)) = (s.c.input.text.drop a).take (e - a) := by
      rw [Nat.add_sub_add_right, ← htok]
      refine Input.text_arg ?_
      rw [Input.text_length]
      omega
    have hpair : t.pair s.c.input.text = (t.cmd, some ((s.c.input.text.drop a).take (e - a))) := by
      rw [MgmtToken.pair, ha]
      rfl
    have h0 := harg.nonzero
    rw [List.drop_take, List.take_take, Nat.min_eq_left (by omega), ← htext] at h0
    have hx := execute_arg (s := s.setInput (s.c.input.skip t.len)) hc
      (Nat.add_le_add_right hae tok) (by change e + tok ≤ s.c.input.bufSize; omega) h0
    rw [htext] at hx
    rw [ha, hpair]
    exact ⟨congrArg (t.cmd, ·) hx.arg, fun k hk => hx.behind k (by omega), hx.input_eq⟩

def pairs (log : List MgmtObs) : List Pair := (acts log).map fun a => (a.cmd, a.arg)

/-- What was received is what was acted on, followed by the text in the buffer. -/
structure Segmented (tokens : List (List UInt8)) (s : Session) : Prop where
  tokens_eq : s.tokens = tokens
  size : s.c.input.bufSize = mgmtBuffsize
  sound : s.c.input.Sound
  resumable : s.c.input.Resumable
  lexes : Lexes tokens .pass (received s.log) (pairs s.log) s.c.input.cond s.c.input.text

theorem Segmented.same {t : Session} (h : Segmented tokens s) (htok : t.tokens = s.tokens)
    (hinput : t.c.input = s.c.input) (hreceived : received t.log = received s.log)
    (hacts : acts t.log = acts s.log) : Segmented tokens t := by
  refine ⟨htok.trans h.tokens_eq, ?_, ?_, ?_, ?_⟩
  · rw [hinput]
    exact h.size
  · rw [hinput]
    exact h.sound
  · rw [hinput]
    exact h.resumable
  · rw [hinput, hreceived, pairs, hacts]
    exact h.lexes

/-- A handler leaves the lexer between two tokens, or with nothing more to read. -/
def Session.Settled (s : Session) : Prop :=
  s.c.input.state = none ∨ (s.c.input.cur = s.c.input.lim ∧ bufferReadPtr s.c.pendingBuf = [])

theorem Segmented.acted {t : MgmtToken} {r : Executed} (h : Segmented tokens s)
    (ht : nextToken s.c.input.cond s.c.input.text = some t)
    (hr : execute t.cmd (t.arg.map (moveArg s.c.input.tok)) (s.setInput (s.c.input.skip t.len)) =
      r) :
    Segmented tokens (r.s.observe (.acted ⟨t.cmd, r.arg, r.response⟩)) ∧
      r.s.c.input.state = none := by
  have htok := nextToken_isToken ht
  obtain ⟨hpair, hbuf, hinp⟩ := execute_token h.sound htok
  have hx := execute_executes t.cmd (t.arg.map (moveArg s.c.input.tok))
    (s.setInput (s.c.input.skip t.len))
  rw [hr] at hpair hbuf hinp hx
  have hle := htok.le
  have hpos := htok.pos
  have hlim := h.sound.lim_le
  rw [Input.text_length] at hle
  have hstate : r.s.c.input.state = none := by
    rw [hinp]
    rfl
  -- the command writes at most up to the end of its own line
  refine ⟨⟨hx.tokens_eq.trans h.tokens_eq, ?_, ?_, ?_, ?_⟩, hstate⟩
  · rw [Session.observe_c, hinp]
    exact h.size
  · have hcur : r.s.c.input.cur = r.s.c.input.tok := by
      rw [hinp]
      rfl
    refine ⟨Nat.le_of_eq hcur.symm, ?_, ?_, fun _ => hcur, fun hne => absurd hcur hne⟩
    · rw [Session.observe_c, hinp]
      dsimp only [Input.skip]
      omega
    · rw [Session.observe_c, hinp]
      exact hlim
  · intro ths hths
    rw [Session.observe_c, hstate] at hths
    cases hths
  · have htext : r.s.c.input.text = s.c.input.text.drop t.len := by
      rw [← Input.text_after, Input.text, hinp]
      exact slice_congr fun k _ => hbuf _ (Nat.le_add_right _ k)
    have hcond : r.s.c.input.cond = nextCond tokens (t.pair s.c.input.text) s.c.input.cond := by
      rw [hinp, h.tokens_eq]
    have hlog : r.s.log = s.log := hx.log_eq
    have hl := h.lexes.snoc ht
    rw [Session.observe_c, Session.observe_log, hlog, htext, hcond, pairs, acts_append,
      received_append, List.map_append, received_acted, List.append_nil, ← hpair]
    rw [← hpair] at hl
    exact hl

/-- Without a whole token in the text, the loop ends. -/
theorem Segmented.turn_incomplete (h : Segmented tokens s)
    (hready : s.c.input.state = none ∨ s.c.input.cur < s.c.input.lim)
    (ht : nextToken s.c.input.cond s.c.input.text = none) :
    ∃ ths, Socks5d.turn s = (s.setInput { s.c.input with
        cur := s.c.input.lim
        mar := s.c.input.marker
        state := some ths }, false) ∧ Segmented tokens (Socks5d.turn s).1 := by
  obtain ⟨ths, hrun, hp⟩ := parseMgmtRequest_incomplete h.sound h.resumable hready ht
  have hturn : Socks5d.turn s = (s.setInput { s.c.input with
      cur := s.c.input.lim
      mar := s.c.input.marker
      state := some (ths.map (Thread.shift s.c.input.tok)) }, false) := by
    unfold Socks5d.turn
    rw [hp]
    rfl
  refine ⟨_, hturn, ?_⟩
  rw [hturn]
  refine ⟨h.tokens_eq, h.size, ?_, ?_, h.lexes⟩
  · have h1 := h.sound.tok_le
    have h2 := h.sound.cur_le
    refine ⟨Nat.le_trans h1 h2, Nat.le_refl _, h.sound.lim_le, fun hf => by (cases hf), ?_⟩
    intro hne
    change s.c.input.marker = s.c.input.tok + 1
    unfold Input.marker
    split_ifs with hc
    · rfl
    · refine h.sound.marked fun heq => hc ⟨heq, ?_⟩
      change s.c.input.lim ≠ s.c.input.tok at hne
      omega
  · intro ths' hths'
    cases hths'
    exact ⟨ths, hrun, rfl⟩

theorem Segmented.turn (h : Segmented tokens s)
    (hready : s.c.input.state = none ∨ s.c.input.cur < s.c.input.lim)
    (hpend : bufferReadPtr s.c.pendingBuf = []) :
    Segmented tokens (turn s).1 ∧ (turn s).1.Settled ∧ ((turn s).2 = true →
      (turn s).1.c.input.state = none ∧ bufferReadPtr (turn s).1.c.pendingBuf = []) := by
  cases ht : nextToken s.c.input.cond s.c.input.text with
  | none =>
    obtain ⟨ths, hturn, hseg⟩ := h.turn_incomplete hready ht
    rw [hturn] at hseg ⊢
    exact ⟨hseg, .inr ⟨rfl, hpend⟩, fun hf => by (cases hf)⟩
  | some t =>
    have htok := nextToken_isToken ht
    have hp := parseMgmtRequest_token h.sound h.resumable hready ht
    have hx := execute_executes t.cmd (t.arg.map (moveArg s.c.input.tok))
      (s.setInput (s.c.input.skip t.len))
    obtain ⟨hact, hstate⟩ := h.acted ht rfl
    have hcases := turn_cases hp rfl
    dsimp only at hcases
    generalize execute t.cmd _ _ = r at hx hact hstate hcases
    have hpb : bufferReadPtr r.s.c.pendingBuf = [] := by
      rw [hx.pendingBuf_eq]
      exact hpend
    rcases hcases with ⟨hinc, -⟩ | ⟨-, -, hturn⟩ | ⟨-, -, hturn⟩
    · exact absurd hinc htok.cmd
    · rw [hturn]
      exact ⟨⟨hact.tokens_eq, hact.size, hact.sound, hact.resumable, hact.lexes⟩, .inl hstate,
        fun hf => by (cases hf)⟩
    · rw [hturn]
      exact ⟨⟨hact.tokens_eq, hact.size, hact.sound, hact.resumable, hact.lexes⟩, .inl hstate,
        fun _ => ⟨hstate, hpb⟩⟩

theorem Segmented.process (h : Segmented tokens s)
    (hready : s.c.input.state = none ∨ s.c.input.cur < s.c.input.lim)
    (hpend : bufferReadPtr s.c.pendingBuf = []) :
    Segmented tokens (processMgmtClient s) ∧ (processMgmtClient s).Settled := by
  refine processMgmtClient_rule (P := fun s => Segmented tokens s ∧ s.c.input.state = none ∧
    bufferReadPtr s.c.pendingBuf = []) (Q := fun s => Segmented tokens s ∧ s.Settled)
    (fun s hP => ⟨hP.1, .inl hP.2.1⟩) ?_ turnsMeet_true ?_
  · rintro s - ⟨hs, hstate, hp⟩
    obtain ⟨h1, h2, h3⟩ := hs.turn (.inl hstate) hp
    exact ⟨fun hagain => ⟨h1, h3 hagain⟩, fun _ => ⟨h1, h2⟩⟩
  · intro _
    obtain ⟨h1, h2, h3⟩ := h.turn hready hpend
    exact ⟨fun hagain => ⟨h1, h3 hagain⟩, fun _ => ⟨h1, h2⟩⟩

/-! ## Handlers -/

theorem Segmented.fill (h : Segmented tokens s) (r : ReadResult) (hcut : ¬ s.c.input.cutsArgument) :
    Segmented tokens ((s.setInput (fillBuffer s.c.input r).1).observe
      (.received (r.bytes s.c.input.free))) := by
  refine ⟨h.tokens_eq, h.size, fillBuffer_sound h.sound r,
    fillBuffer_resumable h.sound r h.resumable hcut, ?_⟩
  have hl := h.lexes.append (r.bytes s.c.input.free)
  rw [← fillBuffer_text h.sound r] at hl
  rw [Session.observe_log, received_append, received_received, pairs, acts_append, acts_received,
    List.append_nil]
  exact hl

/-- Without a delay, the connection ends when nothing came. -/
theorem checkEOF_fillBuffer {r : ReadResult} (hr : r ≠ .again) :
    checkEOF (fillBuffer inp r).2 r.isAgain = true ↔ r.bytes inp.free = [] := by
  cases r with
  | data bs =>
    have hcount : (fillBuffer inp (.data bs)).2 = ((bs.take inp.free).length : ℤ) := rfl
    have hbytes : (ReadResult.data bs).bytes inp.free = bs.take inp.free := rfl
    rw [hcount, hbytes, checkEOF, ← List.length_eq_zero_iff]
    simp only [Bool.or_eq_true, Bool.and_eq_true, decide_eq_true_eq]
    omega
  | again => exact absurd rfl hr
  | error => exact ⟨fun _ => rfl, fun _ => rfl⟩

theorem Segmented.handleMgmtRead (h : Segmented tokens s) (hset : s.Settled) {r : ReadResult}
    (hr : r ≠ .again) (hcut : ¬ s.c.input.cutsArgument) :
    Segmented tokens (handleMgmtRead r s) ∧ (handleMgmtRead r s).Settled := by
  unfold Socks5d.handleMgmtRead
  dsimp only
  split_ifs with hcan heof
  · exact ⟨h, hset⟩
  · have hf := h.fill r hcut
    have hnil := (checkEOF_fillBuffer hr).mp heof
    refine ⟨⟨hf.tokens_eq, hf.size, hf.sound, hf.resumable, hf.lexes⟩, ?_⟩
    refine hset.imp (fun hstate => hstate) fun hdone => ⟨?_, hdone.2⟩
    change s.c.input.cur - s.c.input.tok =
      s.c.input.lim - s.c.input.tok + (r.bytes s.c.input.free).length
    rw [hnil, hdone.1]
    rfl
  · have hf := h.fill r hcut
    have hne := mt (checkEOF_fillBuffer hr).mpr heof
    have hlt : (fillBuffer s.c.input r).1.cur < (fillBuffer s.c.input r).1.lim := by
      have hpos := List.length_pos_iff.mpr hne
      have h1 := h.sound.tok_le
      have h2 := h.sound.cur_le
      simp only [fillBuffer]
      omega
    obtain ⟨hp, hs⟩ := hf.process (.inr hlt) (pending_nil hcan)
    exact ⟨⟨hp.tokens_eq, hp.size, hp.sound, hp.resumable, hp.lexes⟩, hs⟩

theorem Segmented.unblock (h : Segmented tokens s) (hset : s.Settled) :
    Segmented tokens (unblock s) ∧ (unblock s).Settled := by
  unfold Socks5d.unblock
  split_ifs with hcan hfit
  · have hstate : s.c.input.state = none := by
      rcases hset with hstate | ⟨-, hnil⟩
      · exact hstate
      · rw [bufferCanRead_iff] at hcan
        exact absurd hnil hcan
    have hcopy : Segmented tokens (copyFromBuf s hfit) :=
      ⟨h.tokens_eq, h.size, h.sound, h.resumable, h.lexes⟩
    exact hcopy.process (.inl hstate) (by simp [copyFromBuf])
  · exact ⟨h, hset⟩
  · exact ⟨h, hset⟩

theorem Segmented.handleMgmtWrite (h : Segmented tokens s) (hset : s.Settled) (r : SendResult) :
    Segmented tokens (handleMgmtWrite r s) ∧ (handleMgmtWrite r s).Settled := by
  unfold Socks5d.handleMgmtWrite
  dsimp only
  obtain ⟨hu, hsu⟩ := h.unblock hset
  generalize Socks5d.unblock s = t at hu hsu
  have hl := hu.lexes
  have hsent :
      ∀ bs, Lexes tokens .pass (received (t.log ++ [.sent bs])) (pairs (t.log ++ [.sent bs]))
      t.c.input.cond t.c.input.text := by
    intro bs
    simpa [pairs] using hl
  split_ifs
  · exact ⟨⟨h.tokens_eq, h.size, h.sound, h.resumable, h.lexes⟩, hset⟩
  all_goals exact ⟨⟨hu.tokens_eq, hu.size, hu.sound, hu.resumable, hsent _⟩, hsu⟩

/-- Every read brings something or ends the connection, and none moves an argument. -/
def UncutRead (s : Session) (ev : MgmtEvent) : Prop :=
  ∀ r, ev = .read r → r ≠ .again ∧ ¬ s.c.input.cutsArgument

theorem Segmented.step (h : Segmented tokens s ∧ s.Settled) {ev : MgmtEvent}
    (hev : UncutRead s ev) :
    Segmented tokens (sessionStep s ev) ∧ (sessionStep s ev).Settled := by
  cases ev with
  | read r =>
    rw [sessionStep]
    split_ifs
    · exact h
    · exact h.1.handleMgmtRead h.2 (hev r rfl).1 (hev r rfl).2
  | write r =>
    rw [sessionStep]
    split_ifs
    · exact h
    · exact h.1.handleMgmtWrite h.2 r
  | server e => exact ⟨⟨h.1.tokens_eq, h.1.size, h.1.sound, h.1.resumable, h.1.lexes⟩, h.2⟩

theorem openSession_segmented (server : Server) (tokens : List (List UInt8)) (sock : ℤ)
    (raw : RawMgmt) : Segmented tokens (openSession server tokens sock raw) ∧
      (openSession server tokens sock raw).Settled := by
  have htext : (openSession server tokens sock raw).c.input.text = [] := by
    have hlen : (openSession server tokens sock raw).c.input.lim -
        (openSession server tokens sock raw).c.input.tok = 0 := Nat.sub_self mgmtBuffsize
    rw [Input.text, hlen, slice_zero]
  refine ⟨⟨rfl, rfl,
    ⟨Nat.le_refl _, Nat.le_refl _, Nat.le_refl _, fun _ => rfl, fun h => absurd rfl h⟩,
    ?_, ?_⟩, .inl rfl⟩
  · intro ths hths
    cases hths
  · rw [htext]
    exact .nil

/-! ## Lines -/

def rejectsCr : Atom UInt8 Tag → Bool
  | .one p => !p 0xd
  | .star p => !p 0xd
  | .tag _ => true

/-- Every rule ends with the only CR LF it can read. -/
theorem requestRules_line :
    ∀ r ∈ requestRules, ∃ body, r.2.pattern = body ++ crlf ∧ body.all rejectsCr = true := by
  intro r hr
  simp only [requestRules, cmds, List.map_cons, List.map_nil, List.mem_append, List.mem_cons,
    List.not_mem_nil, or_false] at hr
  rcases hr with ((rfl | rfl | rfl | rfl | rfl | rfl | rfl | rfl | rfl | rfl | rfl) |
    rfl | rfl | rfl | rfl | rfl | rfl | rfl) | rfl | rfl
  all_goals exact ⟨_, rfl, by decide⟩

theorem derive_line {body q : MgmtPattern} {b : UInt8} {ts : List Tag}
    (hbody : body.all rejectsCr = true) (h : derive (body ++ crlf) b = some (q, ts)) :
    (b ≠ 0xd ∧ ∃ body', q = body' ++ crlf ∧ body'.all rejectsCr = true) ∨
    (b = 0xd ∧ q = [.one (· = 0xa)]) := by
  induction body generalizing ts with
  | nil =>
    rw [List.nil_append, crlf, derive] at h
    split_ifs at h with hb
    cases h
    exact .inr ⟨by simpa using hb, rfl⟩
  | cons a body ih =>
    rw [List.all_cons, Bool.and_eq_true] at hbody
    obtain ⟨ha, hbody⟩ := hbody
    cases a with
    | one p =>
      rw [List.cons_append, derive] at h
      split_ifs at h with hb
      cases h
      refine .inl ⟨?_, body, rfl, hbody⟩
      rintro rfl
      simp [rejectsCr, hb] at ha
    | star p =>
      rw [List.cons_append, derive] at h
      split_ifs at h with hb
      · cases h
        refine .inl ⟨?_, .star p :: body, rfl, ?_⟩
        · rintro rfl
          simp [rejectsCr, hb] at ha
        · rw [List.all_cons, ha, hbody]
          rfl
      · exact ih hbody h
    | tag t =>
      obtain ⟨⟨q', ts'⟩, hq, heq⟩ := Option.map_eq_some_iff.mp h
      cases heq
      exact ih hbody hq

/-- A thread in front of the end of its line, inside it, or behind it. -/
def AtLine (u : List UInt8) (th : MgmtThread) : Prop :=
  (∃ body, th.rest = body ++ crlf ∧ body.all rejectsCr = true ∧ 0xd ∉ u) ∨
  (th.rest = [.one (· = 0xa)] ∧ ∃ x, u = x ++ [0xd] ∧ 0xd ∉ x) ∨ th.rest = []

theorem AtLine.next {u : List UInt8} {b : UInt8} {pos : ℕ} {th th' : MgmtThread}
    (hn : th.next pos b = some th') (h : AtLine u th) : AtLine (u ++ [b]) th' := by
  obtain ⟨⟨q, ts⟩, hd, rfl⟩ := Option.map_eq_some_iff.mp hn
  rcases h with ⟨body, hrest, hbody, hu⟩ | ⟨hrest, -⟩ | hrest
  · rw [hrest] at hd
    rcases derive_line hbody hd with ⟨hb, body', hq, hbody'⟩ | ⟨rfl, hq⟩
    · refine .inl ⟨body', hq, hbody', ?_⟩
      rw [List.mem_append, List.mem_singleton, not_or]
      exact ⟨hu, hb.symm⟩
    · exact .inr (.inl ⟨hq, u, rfl, hu⟩)
  · rw [hrest, derive] at hd
    split_ifs at hd
    cases hd
    exact .inr (.inr rfl)
  · rw [hrest, derive] at hd
    cases hd

/-- A text without a token is a piece of one line. -/
theorem nextToken_none_line (h : nextToken cond bs = none) : ¬ [0xd, 0xa] <:+: bs := by
  unfold nextToken at h
  cases hr : run (start (rulesOf cond)) 0 bs with
  | accept th pos =>
    rw [hr] at h
    cases h
  | dead =>
    rw [hr] at h
    cases h
  | more ths =>
    have hstart : ∀ th ∈ start (rulesOf cond), ∃ body, th.rest = body ++ crlf ∧
        body.all rejectsCr = true := by
      intro th hth
      obtain ⟨rule, hrule, rfl⟩ := List.mem_map.mp hth
      obtain ⟨c, hmem, -⟩ := rulesOf_mem hrule
      exact requestRules_line _ hmem
    obtain ⟨hne, hrest⟩ :=
      run_more hr ⟨by cases cond <;> simp [start, rulesOf, requestRules, line], by
      intro th hth
      obtain ⟨body, heq, -⟩ := hstart th hth
      rw [heq]
      simp [crlf]⟩
    have hbegin : ∀ th ∈ start (rulesOf cond), AtLine [] th := by
      intro th hth
      obtain ⟨body, heq, hbody⟩ := hstart th hth
      exact .inl ⟨body, heq, hbody, by simp⟩
    -- no thread is behind the end of a line
    have hinv :=
      Scanner.run_invariant (d := 0) bs (fun u b th th' hn hP => AtLine.next hn hP) hbegin
    rw [List.length_nil, Nat.add_zero, hr] at hinv
    obtain ⟨th, hth⟩ := List.exists_mem_of_ne_nil _ hne
    rw [List.nil_append] at hinv
    intro hcr
    rcases hinv th hth with ⟨body, -, -, hu⟩ | ⟨-, x, hx, hnot⟩ | hnil
    · exact hu (hcr.mem (by simp))
    · subst hx
      obtain ⟨l, r, heq⟩ := hcr
      rcases List.eq_nil_or_concat r with rfl | ⟨r, c, rfl⟩
      · have hlast := congrArg List.getLast? heq
        simp at hlast
      · rw [List.concat_eq_append, ← List.append_assoc] at heq
        have hx := (List.append_inj' heq rfl).1
        exact hnot (hx ▸ by simp)
    · exact hrest th hth hnil

/-- Every line, with its end, is shorter than the buffer. -/
def ShortLines (bs : List UInt8) : Prop :=
  ∀ l, l <:+: bs → ¬ [0xd, 0xa] <:+: l → l.length < mgmtBuffsize

/-! ## Runs -/

/-- A lexer with nothing more to read has found all that is in the text. -/
theorem Segmented.done (h : Segmented tokens s) (hdone : s.c.input.cur = s.c.input.lim) :
    nextToken s.c.input.cond s.c.input.text = none := by
  cases hst : s.c.input.state with
  | none =>
    have hnil : s.c.input.text = [] := by
      rw [Input.text, ← hdone, h.sound.fresh hst, Nat.sub_self, slice_zero]
    rw [hnil]
    rfl
  | some ths =>
    obtain ⟨ths₀, hrun, -⟩ := h.resumable ths hst
    rw [Input.seen, hdone] at hrun
    rw [nextToken, Input.text, hrun]

/-- However the stream arrives, the commands and arguments that are acted on are those
of the whole stream, as far as it was parsed; and short lines always find room. -/
theorem commands_independent_of_segmentation (server : Server) (tokens : List (List UInt8))
    (sock : ℤ) (raw : RawMgmt) (evs : List MgmtEvent)
    (h : Along sessionStep UncutRead (openSession server tokens sock raw) evs) :
    let s := exec sessionStep (openSession server tokens sock raw) evs
    pairs s.log <+: reference tokens (received s.log) ∧
      (s.c.input.cur = s.c.input.lim → pairs s.log = reference tokens (received s.log) ∧
        (ShortLines (received s.log) → 0 < s.c.input.free)) := by
  intro s
  have hs : Segmented tokens s ∧ s.Settled :=
    exec_invariant_along (P := fun s => Segmented tokens s ∧ s.Settled)
      (openSession_segmented server tokens sock raw) (fun _ _ hok hP => Segmented.step hP hok) h
  obtain ⟨cond', rest, hl, hd⟩ := reference_lexes tokens (received s.log)
  refine ⟨hs.1.lexes.prefix_of_done hl hd, fun hdone => ?_⟩
  have hnone := hs.1.done hdone
  refine ⟨hs.1.lexes.eq_of_done hl hnone hd, fun hshort => ?_⟩
  have hlt := hshort _ hs.1.lexes.suffix.isInfix (nextToken_none_line hnone)
  rw [Input.text_length] at hlt
  have hsize := hs.1.size
  unfold Input.free
  omega

def blankRaw : RawMgmt := ⟨fun _ => 0, fun _ => 0, fun _ => 0⟩

/-- A command that is cut in its first word, behind another one. -/
theorem cut_word_is_found :
    let evs := [.read (.data (asc "CAPA\r\nTOK")), .read (.data (asc "EN secret\r\n"))]
    let s₀ := openSession (boot [] [] []) [asc "secret"] 3 blankRaw
    let s := exec sessionStep s₀ evs
    Along sessionStep UncutRead s₀ evs ∧ s.c.input.cur = s.c.input.lim ∧
      pairs s.log = reference [asc "secret"] (received s.log) := by
  intro evs s₀
  have halong : Along sessionStep UncutRead s₀ evs := by
    refine ⟨?_, ?_, trivial⟩
    · rintro r hr
      cases hr
      refine ⟨by simp, ?_⟩
      unfold Input.cutsArgument
      decide +kernel
    · rintro r hr
      cases hr
      refine ⟨by simp, ?_⟩
      unfold Input.cutsArgument
      decide +kernel
  have h := (commands_independent_of_segmentation _ _ _ _ evs halong).2
  have hdone : (exec sessionStep s₀ evs).c.input.cur = (exec sessionStep s₀ evs).c.input.lim := by
    decide +kernel
  change _ → _ ∧ _ at h
  dsimp only
  generalize exec sessionStep s₀ evs = s at h hdone ⊢
  exact ⟨halong, hdone, (h hdone).1⟩

/-- Cut in its argument, behind another command, it gets another argument. -/
theorem cut_argument_is_lost :
    let s := exec sessionStep (openSession (boot [] [] []) [asc "secret"] 3 blankRaw)
      [.read (.data (asc "CAPA\r\nTOKEN sec")), .read (.data (asc "ret\r\n"))]
    s.closed = false ∧ s.c.input.cur = s.c.input.lim ∧
      received s.log = asc "CAPA\r\nTOKEN secret\r\n" ∧
      pairs s.log = [(.capa, none), (.token, some [])] ∧
      reference s.tokens (received s.log) = [(.capa, none), (.token, some (asc "secret"))] := by
  decide +kernel

end Socks5d
