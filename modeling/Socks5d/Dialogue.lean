import Socks5d.Authority
import Socks5d.Login
import Socks5d.Tool

/-! # One request at a time

What a session does with the requests of the management client, when each is sent behind the
answer to the last. Then no read moves an argument, and a response always finds an empty buffer. -/

namespace Socks5d
open Memory Scanner EventRun

section
variable {cond : Cond} {l p arg : List UInt8} {tok : MgmtToken} {c : MgmtCommands}

/-! ## Requests -/

/-- An argument of a command line that a request has room for. -/
structure Sendable (arg : List UInt8) : Prop where
  print : ∀ b ∈ arg, isPrint b = true
  length : arg.length ≤ 200

instance (arg : List UInt8) : Decidable (Sendable arg) :=
  decidable_of_iff (arg.all isPrint = true ∧ arg.length ≤ 200)
    ⟨fun h => ⟨List.all_eq_true.mp h.1, h.2⟩, fun h => ⟨List.all_eq_true.mpr h.print, h.length⟩⟩

/-- What a request begins with. -/
def heading (c : MgmtCommands) : List UInt8 :=
  (commandsFormat c).takeWhile fun b => b ≠ 0x25 && b ≠ 0xd

/-- The request without the end of its line. -/
def requestLine (c : MgmtCommands) (arg : List UInt8) : List UInt8 :=
  heading c ++ if c.hasArg then arg else []

theorem heading_length (c : MgmtCommands) : (heading c).length ≤ 30 := by cases c <;> decide

theorem expand_arg (hc : c.hasArg = true) :
    expand (commandsFormat c) arg = heading c ++ (arg ++ [0xd, 0xa]) := by
  have hexp : ∀ head : List UInt8, 0x25 ∉ head → commandsFormat c = head ++ asc "%s\r\n" →
      expand (commandsFormat c) arg = head ++ (arg ++ [0xd, 0xa]) := by
    intro head hhead hformat
    rw [hformat, expand_append hhead]
    rfl
  exact hexp (heading c) (by cases c <;> decide) (by cases c <;> first | rfl | cases hc)

theorem expand_plain (hc : c.hasArg = false) :
    expand (commandsFormat c) arg = commandsFormat c := by
  cases c <;> first | rfl | cases hc

theorem expand_fits (harg : c.hasArg = true → Sendable arg) :
    (expand (commandsFormat c) arg).length < maxResponseLen := by
  cases hc : c.hasArg with
  | true =>
    have hkey := heading_length c
    have hlen := (harg hc).length
    rw [expand_arg hc]
    simp only [List.length_append, List.length_cons, List.length_nil]
    change _ < 512
    omega
  | false =>
    rw [expand_plain hc]
    cases c <;> decide

theorem requestText_eq (harg : c.hasArg = true → Sendable arg) :
    requestText c arg = requestLine c arg ++ [0xd, 0xa] := by
  cases hc : c.hasArg with
  | true =>
    have hfit := expand_fits harg
    rw [requestText, if_pos hc, List.take_of_length_le (Nat.le_sub_one_of_lt hfit), expand_arg hc,
      requestLine, if_pos hc, List.append_assoc]
  | false =>
    rw [requestText, requestLine, hc]
    cases c <;> first | rfl | cases hc

theorem requestLine_print (harg : c.hasArg = true → Sendable arg) :
    ∀ b ∈ requestLine c arg, isPrint b = true := by
  have hkey : (heading c).all isPrint = true := by cases c <;> decide
  intro b hb
  rcases List.mem_append.mp hb with hb | hb
  · exact List.all_eq_true.mp hkey b hb
  · split_ifs at hb with hc
    · exact (harg hc).print b hb
    · cases hb

theorem requestLine_length (harg : c.hasArg = true → Sendable arg) :
    (requestLine c arg).length ≤ 230 := by
  have hkey := heading_length c
  rw [requestLine, List.length_append]
  split_ifs with hc
  · have hlen := (harg hc).length
    omega
  · exact Nat.le_trans hkey (by decide)

def MgmtCommands.admits (c : MgmtCommands) (cmd : MgmtCommand) : Bool :=
  cmd = c.served || cmd = .invalidCmd || cmd = .invalidArgs

/-- All rules that begin like the request are of its command, or of an error. -/
def headed (c : MgmtCommands) : Result UInt8 Tag Action → Bool
  | .more ths => ths.all fun th => c.admits th.rule.result.cmd
  | _ => false

theorem heading_headed (c : MgmtCommands) (cond : Cond) :
    headed c (run (start (rulesOf cond)) 0 (heading c)) = true := by
  cases cond with
  | pass => cases c <;> decide +kernel
  | trns => cases c <;> decide +kernel

/-- The text is one token, whatever it is. -/
structure OneToken (cond : Cond) (l : List UInt8) (tok : MgmtToken) : Prop where
  next : nextToken cond l = some tok
  len : tok.len = l.length

/-- A piece of the text is no token, and all of it is this one. -/
theorem OneToken.piece (h : OneToken cond l tok) (hp : p <+: l) :
    nextToken cond p = none ∨ (p = l ∧ nextToken cond p = some tok) := by
  obtain ⟨q, rfl⟩ := hp
  cases hnext : nextToken cond p with
  | none => exact .inl rfl
  | some tok' =>
    have happ : nextToken cond (p ++ q) = some tok' := nextToken_append hnext
    rw [h.next] at happ
    cases happ
    have hle := (nextToken_isToken hnext).le
    have hlen := h.len
    rw [List.length_append] at hlen
    have hq : q = [] := List.eq_nil_of_length_eq_zero (by omega)
    exact .inr ⟨by rw [hq, List.append_nil], rfl⟩

/-- A request is one token, of its command or of an error. -/
theorem request_token (cond : Cond) (harg : c.hasArg = true → Sendable arg) :
    ∃ tok, OneToken cond (requestText c arg) tok ∧ c.admits tok.cmd = true ∧
      ∀ a ∈ (tok.pair (requestText c arg)).2, a.length ≤ 230 ∧ 0xd ∉ a := by
  have hprint := requestLine_print harg
  have hlen := requestLine_length harg
  obtain ⟨th, hrun⟩ : ∃ th, run (start (rulesOf cond)) 0 (requestLine c arg ++ [0xd, 0xa]) =
      .accept th ((requestLine c arg).length + 2) := printLine_token hprint
  have hnext : nextToken cond (requestText c arg) =
      some ⟨th.rule.result.cmd, argsOf th ((requestLine c arg).length + 2),
        (requestLine c arg).length + 2⟩ := by
    rw [requestText_eq harg, nextToken, hrun]
  refine ⟨_, ⟨hnext, ?_⟩, ?_, ?_⟩
  · rw [requestText_eq harg, List.length_append]
    rfl
  · have hheaded := heading_headed c cond
    have hsplit : requestLine c arg ++ [0xd, 0xa] =
        heading c ++ ((if c.hasArg then arg else []) ++ [0xd, 0xa]) := by
      rw [requestLine, List.append_assoc]
    rw [hsplit, run_append] at hrun
    cases hhead : run (start (rulesOf cond)) 0 (heading c) with
    | accept th' pos =>
      rw [hhead] at hheaded
      cases hheaded
    | dead =>
      rw [hhead] at hheaded
      cases hheaded
    | more ths =>
      rw [hhead] at hheaded hrun
      -- a thread stays with its rule
      have hinv := Scanner.run_invariant (P := fun _ th => c.admits th.rule.result.cmd = true)
        (d := (heading c).length) (u := []) ((if c.hasArg then arg else []) ++ [0xd, 0xa])
        (by
          intro u b th th' hn hth
          obtain ⟨r, -, rfl⟩ := Option.map_eq_some_iff.mp hn
          exact hth)
        (fun th hth => List.all_eq_true.mp hheaded th hth)
      rw [List.length_nil, Nat.add_zero, ← Nat.zero_add (heading c).length] at hinv
      dsimp only at hrun
      rw [hrun] at hinv
      obtain ⟨-, v, -, -, hP⟩ := hinv
      exact hP
  · intro a ha
    have hin : a <:+: requestLine c arg := by
      obtain ⟨d, hd, rfl⟩ := Option.map_eq_some_iff.mp ha
      have htok := nextToken_isToken hnext
      have htakes : th.rule.result.cmd.takesArg = true := by
        by_contra hno
        rw [htok.noArg (by simpa using hno)] at hd
        cases hd
      obtain ⟨i, e, hie, hhas⟩ := htok.hasArg htakes
      rw [hie] at hd
      cases hd
      have hle := hhas.le
      have hend : e + 2 ≤ ((requestText c arg).take ((requestLine c arg).length + 2)).length :=
        hhas.lt
      have htake := List.length_take_le ((requestLine c arg).length + 2) (requestText c arg)
      rw [requestText_eq harg, List.drop_append_of_le_length (by omega),
        List.take_append_of_le_length (by rw [List.length_drop]; omega)]
      exact (List.take_prefix _ _).isInfix.trans (List.drop_suffix _ _).isInfix
    refine ⟨Nat.le_trans hin.length_le hlen, fun hcr => ?_⟩
    have hno := hprint 0xd (hin.mem hcr)
    revert hno
    decide

end

/-! ## Between two requests, and in the middle of one -/

/-- What has come of a request is no token yet, no read will move an argument, and nothing is
pending. -/
structure Dialogue (tokens : List (List UInt8)) (s : Session) : Prop where
  segmented : Segmented tokens s
  kempt : Kempt s.server
  write : Spacious s.c.writeBuf
  pending : Spacious s.c.pendingBuf
  empty : bufferReadPtr s.c.pendingBuf = []
  quiet : nextToken s.c.input.cond s.c.input.text = none
  atStart : s.c.input.tok = 0 ∨ s.c.input.text = []

/-- `x` was read, and nothing else has happened. -/
structure Listens (s t : Session) (x : List UInt8) : Prop where
  received_eq : received t.log = received s.log ++ x
  sent_eq : sent t.log = sent s.log
  acts_eq : acts t.log = acts s.log
  unsent_eq : bufferReadPtr t.c.writeBuf = bufferReadPtr s.c.writeBuf
  cond_eq : t.c.input.cond = s.c.input.cond
  text_eq : t.c.input.text = s.c.input.text ++ x

/-- The rest of the request was read, and it was answered. -/
structure Responds (tokens : List (List UInt8)) (l : List UInt8) (tok : MgmtToken) (s t : Session)
    (x : List UInt8) : Prop where
  received_eq : received t.log = received s.log ++ x
  sent_eq : sent t.log = sent s.log
  cond_eq : t.c.input.cond = nextCond tokens (tok.pair l) s.c.input.cond
  text_eq : t.c.input.text = []
  whole : s.c.input.text ++ x = l
  answer : ∃ r : Executed, Formed tok.cmd r ∧
    acts t.log = acts s.log ++ [⟨tok.cmd, (tok.pair l).2, r.response⟩] ∧
    bufferReadPtr t.c.writeBuf = r.response ∧
    (tok.cmd = .invalidCmd ∨ tok.cmd = .invalidArgs → r.response.head? = some 0x2d) ∧
    (tok.cmd = .token → r.response.head? ≠ some 0x2d → t.c.input.cond = .trns)

section
variable {tokens : List (List UInt8)} {s t u : Session} {cond : Cond} {l x : List UInt8}
  {tok : MgmtToken}

/-- What came before the first byte of a request has no marks. -/
theorem Dialogue.uncut (h : Dialogue tokens s) : ¬ s.c.input.cutsArgument := by
  rintro ⟨hne, th, hth, hmarks⟩
  have htext := h.atStart.resolve_left hne
  have hle := h.segmented.sound.tok_le
  have hcur := h.segmented.sound.cur_le
  have hlim := congrArg List.length htext
  rw [Input.text_length, List.length_nil] at hlim
  cases hst : s.c.input.state with
  | none =>
    rw [hst] at hth
    cases hth
  | some ths =>
    obtain ⟨ths₀, hrun, rfl⟩ := h.segmented.resumable ths hst
    have hseen : s.c.input.seen = [] := by
      have hzero : s.c.input.cur - s.c.input.tok = 0 := by omega
      rw [Input.seen, hzero, slice_zero]
    rw [hseen] at hrun
    cases hrun
    rw [hst, Option.getD_some, start_shift] at hth
    obtain ⟨rule, -, rfl⟩ := List.mem_map.mp hth
    exact hmarks rfl

theorem execute_error {cmd : MgmtCommand} (hcmd : cmd = .invalidCmd ∨ cmd = .invalidArgs)
    (arg : Option (ℕ × ℕ)) (s : Session) :
    (execute cmd arg s).response.head? = some 0x2d := by
  rcases hcmd with rfl | rfl
  · rfl
  · rfl

/-- A login that is not answered with an error. -/
theorem execute_login (arg : Option (ℕ × ℕ)) (s : Session)
    (h : (execute .token arg s).response.head? ≠ some 0x2d) :
    (execute .token arg s).s.c.input.cond = .trns := by
  change (executeToken _ _ s).response.head? ≠ _ at h
  change (executeToken _ _ s).s.c.input.cond = _
  unfold executeToken at h ⊢
  dsimp only at h ⊢
  split_ifs at h ⊢ with hc
  · rfl
  · exact absurd rfl h

theorem execute_sign (cmd : MgmtCommand) (arg : Option (ℕ × ℕ)) (s : Session) :
    (cmd = .invalidCmd ∨ cmd = .invalidArgs → (execute cmd arg s).response.head? = some 0x2d) ∧
    (cmd = .token → (execute cmd arg s).response.head? ≠ some 0x2d →
      (execute cmd arg s).s.c.input.cond = .trns) := by
  refine ⟨fun hcmd => execute_error hcmd arg s, fun hcmd => ?_⟩
  rw [hcmd]
  exact execute_login arg s

/-- A turn on a piece of a request. -/
theorem Dialogue.turn_piece (h : Dialogue tokens s) (hnew : s.c.input.state = none ∨
    s.c.input.cur < s.c.input.lim) :
    (turn s).2 = false ∧ Dialogue tokens (turn s).1 ∧ Listens s (turn s).1 [] := by
  obtain ⟨ths, hturn, hseg⟩ := h.segmented.turn_incomplete hnew h.quiet
  rw [hturn] at hseg ⊢
  refine ⟨rfl, ⟨hseg, h.kempt, h.write, h.pending, h.empty, h.quiet, h.atStart⟩, ?_⟩
  exact ⟨(List.append_nil _).symm, rfl, rfl, rfl, rfl, (List.append_nil _).symm⟩

/-- A turn on all of it. -/
theorem turn_whole (hseg : Segmented tokens s) (hk : Kempt s.server) (hw : Spacious s.c.writeBuf)
    (hpending : Spacious s.c.pendingBuf) (hempty : bufferReadPtr s.c.pendingBuf = [])
    (hsent : bufferReadPtr s.c.writeBuf = []) (hnew : s.c.input.cur < s.c.input.lim)
    (hdot : ∀ u ∈ s.server.w.users, u.username ≠ [0x2e])
    (hl : OneToken s.c.input.cond l tok) (htext : s.c.input.text = l)
    (harg : ∀ a ∈ (tok.pair l).2, a.length ≤ 230 ∧ 0xd ∉ a) :
    (turn s).2 = true ∧ Dialogue tokens (turn s).1 ∧ Responds tokens l tok s (turn s).1 [] ∧
      (turn s).1.c.input.state = none := by
  have hnext : nextToken s.c.input.cond s.c.input.text = some tok := by rw [htext]; exact hl.next
  have htok := nextToken_isToken hnext
  have hparse := parseMgmtRequest_token hseg.sound hseg.resumable (.inr hnew) hnext
  obtain ⟨hpair, -, hinput⟩ := execute_token hseg.sound htok
  have hx := execute_executes tok.cmd (tok.arg.map (moveArg s.c.input.tok))
    (s.setInput (s.c.input.skip tok.len))
  have hkempt : Kempt (execute tok.cmd (tok.arg.map (moveArg s.c.input.tok))
      (s.setInput (s.c.input.skip tok.len))).s.server :=
    hk.move (execute_move _ _ (s.setInput (s.c.input.skip tok.len))) (execute_buffsize _ _ hk.size)
  have hsign := execute_sign tok.cmd (tok.arg.map (moveArg s.c.input.tok))
    (s.setInput (s.c.input.skip tok.len))
  have hformed := execute_formed (s := s.setInput (s.c.input.skip tok.len)) htok.cmd
    (tok.arg.map (moveArg s.c.input.tok)) hk hdot
  obtain ⟨hact, hstate⟩ := hseg.acted hnext rfl
  have hcases := turn_cases hparse rfl
  dsimp only at hcases hpair hinput
  generalize execute tok.cmd _ _ = r at hx hkempt hsign hformed hact hstate hcases hpair hinput
  rw [htext] at hpair hinput
  have hargr : r.arg = (tok.pair l).2 := congrArg Prod.snd hpair
  have hform := hformed (by rw [hargr]; exact harg)
  have hwb : r.s.c.writeBuf = s.c.writeBuf := hx.writeBuf_eq
  have hpb : r.s.c.pendingBuf = s.c.pendingBuf := hx.pendingBuf_eq
  have hlog : r.s.log = s.log := hx.log_eq
  -- all of the buffer is free
  have hfree : bufferWritePtr s.c.writeBuf = mgmtBuffsize := hw.free hsent
  have hfit : r.response.length ≤ bufferWritePtr r.s.c.writeBuf := by
    rw [hwb, hfree]
    exact Nat.le_of_lt (Nat.lt_trans hform.short (by decide))
  obtain ⟨hroomy, hput⟩ := (hwb ▸ hw : Spacious r.s.c.writeBuf).writeResponse hfit
  have hrest : r.s.c.input.text = [] := by
    apply List.eq_nil_of_length_eq_zero
    rw [Input.text_length, hinput]
    have hlen := hl.len
    have hle := congrArg List.length htext
    rw [Input.text_length] at hle
    dsimp only [Input.skip]
    omega
  rcases hcases with ⟨hinc, -⟩ | ⟨-, hlt, -⟩ | ⟨-, -, hturn⟩
  · exact absurd hinc htok.cmd
  · have hroom := hform.room
    rw [hfree] at hlt
    exact absurd (Nat.lt_trans hlt hroom) (by decide)
  rw [hturn]
  refine ⟨rfl, ⟨⟨hact.tokens_eq, hact.size, hact.sound, hact.resumable, hact.lexes⟩,
    hkempt, hroomy, ?_, ?_, ?_, .inr hrest⟩, ⟨?_, ?_, ?_, hrest, ?_, r, hform, ?_, ?_,
    hsign⟩, hstate⟩
  · change Spacious r.s.c.pendingBuf
    rw [hpb]
    exact hpending
  · change bufferReadPtr r.s.c.pendingBuf = []
    rw [hpb]
    exact hempty
  · change nextToken _ r.s.c.input.text = none
    rw [hrest]
    rfl
  · simp [hlog]
  · simp [hlog]
  · change r.s.c.input.cond = _
    rw [hinput, ← hseg.tokens_eq]
  · rw [List.append_nil]
    exact htext
  · rw [← hargr]
    simp [hlog]
  · change bufferReadPtr (writeResponse r.s.c.writeBuf r.response) = _
    rw [hput, hwb, hsent, List.nil_append]

theorem Listens.refl (s : Session) : Listens s s [] :=
  ⟨(List.append_nil _).symm, rfl, rfl, rfl, rfl, (List.append_nil _).symm⟩

theorem Listens.trans {y : List UInt8} (h : Listens s t x) (h' : Listens t u y) :
    Listens s u (x ++ y) where
  received_eq := by rw [h'.received_eq, h.received_eq, List.append_assoc]
  sent_eq := h'.sent_eq.trans h.sent_eq
  acts_eq := h'.acts_eq.trans h.acts_eq
  unsent_eq := h'.unsent_eq.trans h.unsent_eq
  cond_eq := h'.cond_eq.trans h.cond_eq
  text_eq := by rw [h'.text_eq, h.text_eq, List.append_assoc]

theorem Listens.responds {y : List UInt8} (h : Listens s t x) (h' : Responds tokens l tok t u y) :
    Responds tokens l tok s u (x ++ y) where
  received_eq := by rw [h'.received_eq, h.received_eq, List.append_assoc]
  sent_eq := h'.sent_eq.trans h.sent_eq
  cond_eq := by rw [h'.cond_eq, h.cond_eq]
  text_eq := h'.text_eq
  whole := by rw [← h'.whole, h.text_eq, List.append_assoc]
  answer := by
    rw [← h.acts_eq]
    exact h'.answer

theorem Responds.listens (h : Responds tokens l tok s t x) (h' : Listens t u []) :
    Responds tokens l tok s u x where
  received_eq := by rw [h'.received_eq, List.append_nil, h.received_eq]
  sent_eq := h'.sent_eq.trans h.sent_eq
  cond_eq := h'.cond_eq.trans h.cond_eq
  text_eq := by rw [h'.text_eq, List.append_nil, h.text_eq]
  whole := h.whole
  answer := by
    rw [h'.acts_eq, h'.unsent_eq, h'.cond_eq]
    exact h.answer

/-- The loop, on a piece of a request or all of it. -/
theorem process_hears (hseg : Segmented tokens s) (hk : Kempt s.server)
    (hw : Spacious s.c.writeBuf) (hpending : Spacious s.c.pendingBuf)
    (hempty : bufferReadPtr s.c.pendingBuf = []) (hsent : bufferReadPtr s.c.writeBuf = [])
    (hstart : s.c.input.tok = 0) (hnew : s.c.input.cur < s.c.input.lim)
    (hdot : ∀ u ∈ s.server.w.users, u.username ≠ [0x2e])
    (hl : OneToken s.c.input.cond l tok) (hp : s.c.input.text <+: l)
    (harg : ∀ a ∈ (tok.pair l).2, a.length ≤ 230 ∧ 0xd ∉ a) :
    Dialogue tokens (processMgmtClient s) ∧ (Listens s (processMgmtClient s) [] ∨
      Responds tokens l tok s (processMgmtClient s) []) := by
  refine processMgmtClient_rule
    (P := fun t => (Dialogue tokens t ∧ Responds tokens l tok s t []) ∧ t.c.input.state = none)
    (Q := fun t => Dialogue tokens t ∧ (Listens s t [] ∨ Responds tokens l tok s t []))
    (fun _ hP => ⟨hP.1.1, .inr hP.1.2⟩) ?_ turnsMeet_true ?_
  · -- behind the request there is nothing
    rintro t - ⟨⟨hd, hr⟩, hstate⟩
    obtain ⟨hstop, hd', hl'⟩ := hd.turn_piece (.inl hstate)
    refine ⟨fun hagain => ?_, fun _ => ⟨hd', .inr (hr.listens hl')⟩⟩
    rw [hstop] at hagain
    cases hagain
  · intro _
    rcases hl.piece hp with hnone | ⟨hall, -⟩
    · have hd : Dialogue tokens s := ⟨hseg, hk, hw, hpending, hempty, hnone, .inl hstart⟩
      obtain ⟨hstop, hd', hl'⟩ := hd.turn_piece (.inr hnew)
      refine ⟨fun hagain => ?_, fun _ => ⟨hd', .inl hl'⟩⟩
      rw [hstop] at hagain
      cases hagain
    · obtain ⟨hgo, hd, hr, hstate⟩ :=
        turn_whole hseg hk hw hpending hempty hsent hnew hdot hl hall harg
      refine ⟨fun _ => ⟨⟨hd, hr⟩, hstate⟩, fun hstop => ?_⟩
      rw [hgo] at hstop
      cases hstop

/-! ## Events -/

theorem Dialogue.same (h : Dialogue tokens s) (htokens : t.tokens = s.tokens)
    (hinput : t.c.input = s.c.input) (hreceived : received t.log = received s.log)
    (hacts : acts t.log = acts s.log) (hk : Kempt t.server) (hw : Spacious t.c.writeBuf)
    (hpending : t.c.pendingBuf = s.c.pendingBuf) : Dialogue tokens t := by
  refine ⟨h.segmented.same htokens hinput hreceived hacts, hk, hw, ?_, ?_, ?_, ?_⟩
  · rw [hpending]
    exact h.pending
  · rw [hpending]
    exact h.empty
  · rw [hinput]
    exact h.quiet
  · rw [hinput]
    exact h.atStart

theorem Kempt.mgmtClose {sv : Server} (h : Kempt sv) (fd : ℤ) : Kempt (mgmtClose fd sv) := by
  have hsame := mgmtClose_settings fd sv
  have hmove : Move anyWrite sv (Socks5d.mgmtClose fd sv) := mgmtClose_move fd sv
  refine h.move hmove ?_
  rw [hsame.buffsize_eq]
  exact h.size

theorem Dialogue.unregister (h : Dialogue tokens s) :
    Dialogue tokens s.unregister ∧ Listens s s.unregister [] := by
  refine ⟨h.same rfl rfl rfl rfl (h.kempt.mgmtClose _) h.write rfl, ?_⟩
  exact ⟨(List.append_nil _).symm, rfl, rfl, rfl, rfl, (List.append_nil _).symm⟩

theorem Dialogue.filled (h : Dialogue tokens s) (r : ReadResult) :
    Segmented tokens (filled r s) ∧ Listens s (filled r s) (r.bytes s.c.input.free) := by
  have htext : (Socks5d.filled r s).c.input.text = s.c.input.text ++ r.bytes s.c.input.free :=
    fillBuffer_text h.segmented.sound r
  exact ⟨h.segmented.fill r h.uncut, by simp [Socks5d.filled], by simp [Socks5d.filled],
    by simp [Socks5d.filled], rfl, rfl, htext⟩

/-- The end of the stream, or an error. -/
theorem Dialogue.read_nothing (h : Dialogue tokens s) {r : ReadResult} (hr : r ≠ .again)
    (hnil : r.bytes s.c.input.free = []) :
    Dialogue tokens (sessionStep s (.read r)) ∧ Listens s (sessionStep s (.read r)) [] := by
  rcases read_cases r s with heq | ⟨-, -, hcases⟩
  · rw [heq]
    exact ⟨h, .refl s⟩
  have heof := (checkEOF_fillBuffer hr).mpr hnil
  obtain ⟨hseg, hfilled⟩ := h.filled r
  rw [hnil] at hfilled
  rcases hcases with ⟨-, heq⟩ | ⟨hno, -, -⟩
  · have hd : Dialogue tokens (Socks5d.filled r s) := by
      refine ⟨hseg, h.kempt, h.write, h.pending, h.empty, ?_, .inl (Nat.sub_self _)⟩
      rw [hfilled.text_eq, List.append_nil]
      exact h.quiet
    obtain ⟨hd', hl'⟩ := hd.unregister
    rw [heq]
    exact ⟨hd', hfilled.trans hl'⟩
  · rw [heof] at hno
    cases hno

/-- A read takes all that has come of a request, or nothing. -/
theorem Dialogue.read (h : Dialogue tokens s) {r : ReadResult} (hr : r ≠ .again)
    (hsent : bufferReadPtr s.c.writeBuf = [])
    (hdot : ∀ u ∈ s.server.w.users, u.username ≠ [0x2e])
    (hl : OneToken s.c.input.cond l tok)
    (hp : s.c.input.text ++ r.bytes s.c.input.free <+: l)
    (harg : ∀ a ∈ (tok.pair l).2, a.length ≤ 230 ∧ 0xd ∉ a) :
    Dialogue tokens (sessionStep s (.read r)) ∧ (Listens s (sessionStep s (.read r)) [] ∨
      Listens s (sessionStep s (.read r)) (r.bytes s.c.input.free) ∨
      Responds tokens l tok s (sessionStep s (.read r)) (r.bytes s.c.input.free)) := by
  by_cases hnil : r.bytes s.c.input.free = []
  · obtain ⟨hd, hquiet⟩ := h.read_nothing hr hnil
    exact ⟨hd, .inl hquiet⟩
  rcases read_cases r s with heq | ⟨-, -, hcases⟩
  · rw [heq]
    exact ⟨h, .inl (.refl s)⟩
  obtain ⟨hseg, hfilled⟩ := h.filled r
  rcases hcases with ⟨heof, -⟩ | ⟨-, -, heq⟩
  · exact absurd ((checkEOF_fillBuffer hr).mp heof) hnil
  have hnew : (Socks5d.filled r s).c.input.cur < (Socks5d.filled r s).c.input.lim := by
    have hpos := List.length_pos_iff.mpr hnil
    have h1 := h.segmented.sound.tok_le
    have h2 := h.segmented.sound.cur_le
    simp only [Socks5d.filled, Session.observe_c, Session.setInput, fillBuffer]
    omega
  obtain ⟨hd, hhears⟩ := process_hears hseg h.kempt h.write h.pending h.empty hsent
    (Nat.sub_self _) hnew hdot hl (by rw [hfilled.text_eq]; exact hp) harg
  have hinterest : Listens (processMgmtClient (Socks5d.filled r s))
      { processMgmtClient (Socks5d.filled r s) with interest := opWrite ||| opRead } [] :=
    ⟨(List.append_nil _).symm, rfl, rfl, rfl, rfl, (List.append_nil _).symm⟩
  rw [heq]
  refine ⟨hd.same rfl rfl rfl rfl hd.kempt hd.write rfl, .inr ?_⟩
  rcases hhears with hquiet | hanswer
  · have hall := (hfilled.trans hquiet).trans hinterest
    rw [List.append_nil, List.append_nil] at hall
    exact .inl hall
  · have hall := (hfilled.responds hanswer).listens hinterest
    rw [List.append_nil] at hall
    exact .inr hall

/-- `bs` was sent, and nothing else has happened. -/
structure Sends (s t : Session) (bs : List UInt8) : Prop where
  received_eq : received t.log = received s.log
  sent_eq : sent t.log = sent s.log ++ bs
  acts_eq : acts t.log = acts s.log
  unsent_eq : bufferReadPtr s.c.writeBuf = bs ++ bufferReadPtr t.c.writeBuf
  cond_eq : t.c.input.cond = s.c.input.cond
  text_eq : t.c.input.text = s.c.input.text

theorem Dialogue.sends (h : Dialogue tokens s) (r : SendResult) :
    Dialogue tokens (sessionStep s (.write r)) ∧
      ∃ bs, Sends s (sessionStep s (.write r)) bs := by
  have hnoPending : bufferCanRead s.c.pendingBuf = false := by
    have hcan := mt bufferCanRead_iff.mp (not_not.mpr h.empty)
    simpa using hcan
  rcases write_cases r s with heq | heq | ⟨-, -, heq, ⟨hsame, -⟩ | ⟨hfit, hstart, -⟩⟩
  · rw [heq]
    exact ⟨h, [], rfl, (List.append_nil _).symm, rfl, rfl, rfl, rfl⟩
  · rw [heq]
    exact ⟨h.same rfl rfl rfl rfl h.kempt h.write rfl, [], rfl, (List.append_nil _).symm, rfl, rfl,
      rfl, rfl⟩
  · rw [heq, hsame]
    have hbytes : bufferReadPtr s.c.writeBuf = (bufferReadPtr s.c.writeBuf).take
        (r.accepted (s.c.writeBuf.write - s.c.writeBuf.read)) ++
          bufferReadPtr (writeToSock r s.c.writeBuf).1 := by
      rw [writeToSock_readPtr, List.take_append_drop]
    have hafter : Dialogue tokens (afterSend r s) :=
      h.same rfl rfl (by simp [afterSend]) (by simp [afterSend]) h.kempt (h.write.writeToSock r) rfl
    have hsends : Sends s (afterSend r s) _ :=
      ⟨by simp [afterSend], by simp [afterSend], by simp [afterSend], hbytes, rfl, rfl⟩
    rcases sendOut_cases r s with hend | ⟨hend, -⟩
    · rw [hend]
      exact ⟨hafter, _, hsends⟩
    · rw [hend]
      exact ⟨hafter.unregister.1, _, hsends.received_eq, hsends.sent_eq, hsends.acts_eq,
        hsends.unsent_eq, rfl, rfl⟩
  · rw [loopStart, if_pos (by simp [hnoPending])] at hstart
    cases hstart

theorem Dialogue.server (h : Dialogue tokens s) (ev : Event) :
    Dialogue tokens (sessionStep s (.server ev)) :=
  h.same rfl rfl rfl rfl (h.kempt.step ev) h.write rfl

end

end Socks5d
