import Socks5d.Quitting

/-! # The window of the lexer

The text of a connection lies between `tok` and `lim`. Whatever `fillBuffer` and
`parseMgmtRequest` are called with, and in whatever order, the lexer takes the text token by
token; the zero that ends the text is not always inside of the array. -/

namespace Socks5d
open Memory Scanner EventRun

variable {inp : Input} {ths : List MgmtThread} {s t : Session} {n : ℕ}

/-! ## What a call of the lexer takes -/

/-- A token, or nothing while there is no whole one. -/
structure Takes (inp : Input) (p : Parsed) : Prop where
  incomplete : p.cmd = .incomplete → p.len = 0
  token : p.cmd ≠ .incomplete → 1 ≤ p.len ∧ p.len ≤ inp.text.length
  /-- The next token starts where this one ends. -/
  tok : p.input.tok = inp.tok + p.len
  rest : p.input.text = inp.text.drop p.len

/-- A lexer that was stopped follows rules that end in a token. -/
def Input.Ruled (inp : Input) : Prop :=
  ∀ ths, inp.state = some ths → ∀ th ∈ ths, th.rule.result.cmd ≠ .incomplete

theorem start_ruled {cond : Cond} {th : MgmtThread} (h : th ∈ start (rulesOf cond)) :
    th.rule.result.cmd ≠ .incomplete := by
  obtain ⟨rule, hrule, rfl⟩ := List.mem_map.mp h
  exact (rulesOf_result cond rule hrule).1

theorem finish_takes {cmd : MgmtCommand} {arg : Option (ℕ × ℕ)} {cur : ℕ} (hcur : inp.tok ≤ cur)
    (hlim : cur ≤ inp.lim) (hcmd : cmd = .incomplete ↔ cur = inp.tok) :
    Takes inp (finish cmd arg { inp with cur := cur }) := by
  refine ⟨?_, ?_, ?_, ?_⟩
  · intro hinc
    change cur - inp.tok = 0
    rw [hcmd.mp hinc, Nat.sub_self]
  · intro hne
    have hmoved : cur ≠ inp.tok := fun heq => hne (hcmd.mpr heq)
    have hlen : inp.text.length = inp.lim - inp.tok := slice_length
    change 1 ≤ cur - inp.tok ∧ cur - inp.tok ≤ _
    omega
  · change cur = inp.tok + (cur - inp.tok)
    omega
  · have hstart : inp.tok + (cur - inp.tok) = cur := by omega
    have hlen : inp.lim - inp.tok - (cur - inp.tok) = inp.lim - cur := by omega
    change slice inp.buf cur (inp.lim - cur) = (slice inp.buf inp.tok _).drop (cur - inp.tok)
    rw [slice_drop, hstart, hlen]

theorem scan_takes (hs : inp.Sound) (hths : ∀ th ∈ ths, th.rule.result.cmd ≠ .incomplete) :
    Takes inp (scan ths inp) ∧ (scan ths inp).input.Ruled := by
  have h1 := hs.tok_le
  have h2 := hs.cur_le
  have hrun := run_rules (Q := fun rule => rule.result.cmd ≠ .incomplete) hths inp.cur
    (slice inp.buf inp.cur (inp.lim - inp.cur))
  unfold scan
  cases hr : run ths inp.cur (slice inp.buf inp.cur (inp.lim - inp.cur)) with
  | accept th cur =>
    rw [hr] at hrun
    have hpos := run_accept_pos hr
    rw [slice_length] at hpos
    refine ⟨finish_takes (by omega) (by omega) (iff_of_false hrun (by omega)), ?_⟩
    intro ths' hths'
    cases hths'
  | dead =>
    have hne := List.length_pos_iff.mpr (run_ne_nil hr)
    rw [slice_length] at hne
    have hmark := hs.marker (by omega)
    refine ⟨finish_takes (by omega) (by omega) (iff_of_false (by simp) (by omega)), ?_⟩
    intro ths' hths'
    cases hths'
  | more ths' =>
    rw [hr] at hrun
    refine ⟨⟨fun _ => rfl, fun hne => absurd rfl hne, rfl, rfl⟩, ?_⟩
    intro ths'' hths''
    cases hths''
    exact hrun

theorem parseMgmtRequest_takes (hs : inp.Sound) (hrule : inp.Ruled) :
    Takes inp (parseMgmtRequest inp) ∧ (parseMgmtRequest inp).input.Ruled := by
  unfold parseMgmtRequest
  cases hst : inp.state with
  | none => exact scan_takes hs fun th hth => start_ruled hth
  | some ths =>
    dsimp only
    split_ifs with hend htok
    · -- nothing at all has come
      refine ⟨finish_takes hs.tok_le hs.cur_le (iff_of_true rfl htok), ?_⟩
      intro ths' hths'
      cases hths'
    · have hmar := hs.marked htok
      have h1 := hs.tok_le
      have h2 := hs.cur_le
      refine ⟨finish_takes (by omega) (by omega) (iff_of_false (by simp) (by omega)), ?_⟩
      intro ths' hths'
      cases hths'
    · exact scan_takes hs (hrule ths hst)

/-! ## Sequences of calls -/

inductive LexerOp
  | fill (r : ReadResult)
  /-- `parseMgmtRequest` in the condition given. -/
  | parse (cond : Cond)

/-- The input, and what became of the bytes of the connection. -/
structure LexerRun where
  input : Input
  received : List UInt8
  /-- The tokens, each from `tok` on and as long as `parseMgmtRequest` said. -/
  consumed : List (List UInt8)
  /-- Every byte that was stored through the window, with its index. -/
  stored : List (ℕ × UInt8)

/-- `initState` stores its zero at `lim`. -/
def initStores (inp : Input) : List (ℕ × UInt8) := [(inp.bufSize, 0)]

/-- `fillBuffer` stores the bytes that are read at `lim`, and the zero behind them. -/
def fillStores (inp : Input) (r : ReadResult) : List (ℕ × UInt8) :=
  cells (inp.lim - inp.tok) (r.bytes inp.free ++ [0])

def lexerStart (inp : Input) : LexerRun := ⟨initState inp, [], [], initStores inp⟩

def Input.setCond (inp : Input) (cond : Cond) : Input := { inp with cond := cond }

def lexerStep (x : LexerRun) : LexerOp → LexerRun
  | .fill r =>
    { x with
      input := (fillBuffer x.input r).1
      received := x.received ++ r.bytes x.input.free
      stored := x.stored ++ fillStores x.input r }
  | .parse cond =>
    let p := parseMgmtRequest (x.input.setCond cond)
    if p.cmd = .incomplete then { x with input := p.input }
    else
      { x with
        input := p.input
        consumed := x.consumed ++ [slice x.input.buf x.input.tok p.len] }

/-- What was received is the tokens and the text that is left. -/
structure Covers (x : LexerRun) : Prop where
  sound : x.input.Sound
  ruled : x.input.Ruled
  stream : x.received = x.consumed.flatten ++ x.input.text

variable {x : LexerRun}

theorem lexerStart_covers (inp : Input) : Covers (lexerStart inp) := by
  refine ⟨⟨Nat.le_refl _, Nat.le_refl _, Nat.le_refl _, fun _ => rfl, fun h => absurd rfl h⟩,
    fun ths hths => by (cases hths), ?_⟩
  change [] = slice _ inp.bufSize (inp.bufSize - inp.bufSize)
  rw [Nat.sub_self, slice_zero]

theorem Input.Sound.setCond (hs : inp.Sound) (cond : Cond) : (inp.setCond cond).Sound :=
  ⟨hs.tok_le, hs.cur_le, hs.lim_le, hs.fresh, hs.marked⟩

theorem Covers.step (h : Covers x) (op : LexerOp) : Covers (lexerStep x op) := by
  cases op with
  | fill r =>
    refine ⟨fillBuffer_sound h.sound r, h.ruled, ?_⟩
    change x.received ++ _ = x.consumed.flatten ++ (fillBuffer x.input r).1.text
    rw [fillBuffer_text h.sound r, h.stream, List.append_assoc]
  | parse cond =>
    have hs := h.sound.setCond cond
    have htext : (x.input.setCond cond).text = x.input.text := rfl
    obtain ⟨htakes, hruled⟩ := parseMgmtRequest_takes hs h.ruled
    have hsound := (parseMgmtRequest_sound hs).1
    have hrest := htakes.rest
    unfold lexerStep
    dsimp only
    split_ifs with hinc
    · rw [htakes.incomplete hinc, List.drop_zero] at hrest
      exact ⟨hsound, hruled, h.stream.trans (by rw [hrest, htext])⟩
    · refine ⟨hsound, hruled, ?_⟩
      have htoken : slice x.input.buf x.input.tok (parseMgmtRequest (x.input.setCond cond)).len =
          x.input.text.take (parseMgmtRequest (x.input.setCond cond)).len := by
        have hle := (htakes.token hinc).2
        rw [htext, Input.text, slice_length] at hle
        exact (slice_take hle).symm
      dsimp only
      rw [hrest, htext, List.flatten_concat, htoken, List.append_assoc, List.take_append_drop]
      exact h.stream

/-! ## The loop of `processMgmtClient` -/

/-- The loop comes to its end, and leaves `t`. -/
inductive LoopEnds : Session → Session → Prop
  | last {s : Session} : (turn s).2 = false → LoopEnds s (turn s).1
  | again {s t : Session} : (turn s).2 = true → LoopEnds (turn s).1 t → LoopEnds s t

/-- Nothing but the pointers and the saved automaton counts here. -/
structure Lexable (s : Session) : Prop where
  sound : s.c.input.Sound
  ruled : s.c.input.Ruled

theorem Lexable.of_input {inp' : Input} (hs : inp'.Sound) (hrule : inp'.Ruled)
    (h : s.c.input = { inp' with buf := s.c.input.buf, cond := s.c.input.cond }) : Lexable s := by
  refine ⟨?_, ?_⟩
  · rw [h]
    exact ⟨hs.tok_le, hs.cur_le, hs.lim_le, hs.fresh, hs.marked⟩
  · rw [h]
    exact hrule

/-- A turn that is not the last takes a byte. -/
theorem Lexable.turn (h : Lexable s) : Lexable (turn s).1 ∧ ((turn s).2 = true →
    (turn s).1.c.input.lim - (turn s).1.c.input.tok < s.c.input.lim - s.c.input.tok) := by
  obtain ⟨htakes, hruled⟩ := parseMgmtRequest_takes h.sound h.ruled
  have hsound := (parseMgmtRequest_sound h.sound).1
  have hcases := turn_cases (s := s) rfl rfl
  generalize parseMgmtRequest s.c.input = p at htakes hruled hsound hcases
  have hinput := (execute_executes p.cmd p.arg (s.setInput p.input)).input_eq
  generalize execute p.cmd p.arg (s.setInput p.input) = r at hinput hcases
  rcases hcases with ⟨-, ht⟩ | ⟨-, -, ht⟩ | ⟨hcmd, -, ht⟩
  · rw [ht]
    exact ⟨⟨hsound, hruled⟩, fun hf => by (cases hf)⟩
  · rw [ht]
    exact ⟨.of_input hsound hruled hinput, fun hf => by (cases hf)⟩
  · rw [ht]
    refine ⟨.of_input hsound hruled hinput, fun _ => ?_⟩
    change r.s.c.input.lim - r.s.c.input.tok < _
    have hlen := congrArg List.length htakes.rest
    rw [List.length_drop, Input.text, Input.text, slice_length, slice_length] at hlen
    have htoken := htakes.token hcmd
    rw [Input.text, slice_length] at htoken
    have hleft : r.s.c.input.lim - r.s.c.input.tok = p.input.lim - p.input.tok := by
      rw [hinput]
      rfl
    omega

theorem Lexable.loop_ends (h : Lexable s) (hn : s.c.input.lim - s.c.input.tok < n) :
    LoopEnds s (processLoop n s) := by
  induction n generalizing s with
  | zero => omega
  | succ n ih =>
    obtain ⟨hnext, hless⟩ := h.turn
    rw [processLoop]
    split_ifs with hagain
    · have hlt := hless hagain
      exact .again hagain (ih hnext (by omega))
    · exact .last (by simpa using hagain)

theorem Lexable.process_ends (h : Lexable s) : LoopEnds s (processMgmtClient s) :=
  h.loop_ends (Nat.lt_succ_self _)

theorem Lexable.process (h : Lexable s) : Lexable (processMgmtClient s) :=
  processLoop_rule (fun _ h => h) (fun _ h => ⟨fun _ => h.turn.1, fun _ => h.turn.1⟩) h

/-- The handler that an event is for comes out of the loop, if it enters it. -/
def EventEnds (s : Session) (ev : MgmtEvent) : Prop :=
  ∀ t, loopStart s ev = some t → LoopEnds t (processMgmtClient t)

theorem Lexable.filled (h : Lexable s) (r : ReadResult) : Lexable (filled r s) :=
  ⟨fillBuffer_sound h.sound r, h.ruled⟩

theorem Lexable.loopStart (h : Lexable s) {ev : MgmtEvent} (ht : loopStart s ev = some t) :
    Lexable t := by
  cases ev with
  | read r =>
    rw [Socks5d.loopStart] at ht
    split_ifs at ht
    cases ht
    exact h.filled r
  | write r =>
    rw [Socks5d.loopStart] at ht
    split_ifs at ht
    cases ht
    exact ⟨h.sound, h.ruled⟩
  | server e => cases ht

theorem Lexable.sendOut (h : Lexable s) (r : SendResult) : Lexable (sendOut r s) := by
  rcases sendOut_cases r s with heq | ⟨heq, -⟩
  · rw [heq]
    exact ⟨h.sound, h.ruled⟩
  · rw [heq]
    exact ⟨h.sound, h.ruled⟩

theorem Lexable.step (h : Lexable s) (ev : MgmtEvent) : Lexable (sessionStep s ev) := by
  cases ev with
  | read r =>
    rcases read_cases r s with heq | ⟨-, -, ⟨-, heq⟩ | ⟨-, -, heq⟩⟩
    · rw [heq]
      exact h
    · rw [heq]
      exact ⟨(h.filled r).sound, (h.filled r).ruled⟩
    · rw [heq]
      exact ⟨(h.filled r).process.sound, (h.filled r).process.ruled⟩
  | write r =>
    rcases write_cases r s with heq | heq | ⟨-, -, heq, ⟨hsame, -⟩ | ⟨hfit, hloop, hproc⟩⟩
    · rw [heq]
      exact h
    · rw [heq]
      exact ⟨h.sound, h.ruled⟩
    · rw [heq, hsame]
      exact h.sendOut r
    · rw [heq, hproc]
      exact (h.loopStart hloop).process.sendOut r
  | server e => exact ⟨h.sound, h.ruled⟩

theorem openSession_lexable (server : Server) (tokens : List (List UInt8)) (sock : ℤ)
    (raw : RawMgmt) : Lexable (openSession server tokens sock raw) :=
  ⟨(lexerStart_covers _).sound, (lexerStart_covers _).ruled⟩

/-- For every sequence of calls: the tokens and the text are what was received, the next call takes
a token of at least one byte or nothing, and the loop ends from there. So it does in every state of
a connection, although the commands write to the array. -/
theorem lexer_covers_the_stream (inp : Input) (ops : List LexerOp) :
    let x := exec lexerStep (lexerStart inp) ops
    x.received = x.consumed.flatten ++ x.input.text ∧
      (∀ cond, Takes (x.input.setCond cond) (parseMgmtRequest (x.input.setCond cond))) ∧
      (∀ s : Session, LoopEnds (s.setInput x.input) (processMgmtClient (s.setInput x.input))) ∧
      ∀ server tokens sock raw evs ev,
        EventEnds (exec sessionStep (openSession server tokens sock raw) evs) ev := by
  intro x
  have hx : Covers x := exec_invariant (lexerStart_covers inp) fun _ op h => h.step op
  refine ⟨hx.stream, ?_, ?_, ?_⟩
  · intro cond
    exact (parseMgmtRequest_takes (hx.sound.setCond cond) hx.ruled).1
  · intro s
    have hs : Lexable (s.setInput x.input) := ⟨hx.sound, hx.ruled⟩
    exact hs.process_ends
  · intro server tokens sock raw evs ev t ht
    have hs : Lexable (exec sessionStep (openSession server tokens sock raw) evs) :=
      exec_invariant (openSession_lexable server tokens sock raw) fun _ ev h => h.step ev
    exact (hs.loopStart ht).process_ends

/-- A zero in the text is not its end, and the carriage return may begin a line. -/
example :
    (exec lexerStep (lexerStart ⟨fun _ => 0, 8, 0, 0, 0, 0, none, .pass⟩)
      [.fill (.data [0, 0xff, 0xd]), .parse .pass, .parse .trns, .parse .pass]).consumed =
      [[0], [0xff]] := by
  decide +kernel

/-! ## The array

`read_buf_raw` has as many bytes as `bufSize` says, and the window may end where the array does:
the zero behind the text is then outside. -/

def InArray (stored : List (ℕ × UInt8)) : Prop := ∀ st ∈ stored, st.1 < mgmtBuffsize

instance (stored : List (ℕ × UInt8)) : Decidable (InArray stored) :=
  inferInstanceAs (Decidable (∀ st ∈ stored, st.1 < mgmtBuffsize))

/-- The pointers, as offsets from `buf`. -/
def Input.Ordered (inp : Input) : Prop :=
  inp.tok ≤ inp.cur ∧ inp.cur ≤ inp.lim ∧ inp.lim ≤ mgmtBuffsize

instance (inp : Input) : Decidable inp.Ordered :=
  inferInstanceAs (Decidable (inp.tok ≤ inp.cur ∧ inp.cur ≤ inp.lim ∧ inp.lim ≤ mgmtBuffsize))

theorem initState_stores (inp : Input) :
    (initState inp).buf = storeCells inp.buf (initStores inp) :=
  (storeCells_cells [0]).symm

/-- What a call of `fillBuffer` stores. -/
structure Fills (inp : Input) (r : ReadResult) : Prop where
  /-- Nothing is stored but the cells of `fillStores` and those that `memmove` moves. -/
  buf : (fillBuffer inp r).1.buf =
    storeCells (move inp.buf 0 inp.tok (mgmtBuffsize - inp.tok)) (fillStores inp r)
  moved : inp.tok ≤ mgmtBuffsize
  received : InArray (cells (inp.lim - inp.tok) (r.bytes inp.free))
  /-- The zero is stored in the array as long as the text does not fill it. -/
  inside : InArray (fillStores inp r) ↔ (fillBuffer inp r).1.text.length < mgmtBuffsize

theorem fillBuffer_text_length (hs : inp.Sound) (r : ReadResult) :
    (fillBuffer inp r).1.text.length = inp.lim - inp.tok + (r.bytes inp.free).length := by
  rw [fillBuffer_text hs r, List.length_append, Input.text, slice_length]

theorem fillStores_eq (inp : Input) (r : ReadResult) : fillStores inp r =
    cells (inp.lim - inp.tok) (r.bytes inp.free) ++
      [(inp.lim - inp.tok + (r.bytes inp.free).length, 0)] :=
  cells_append _ _

theorem Input.Sound.fills (hs : inp.Sound) (hsize : inp.bufSize = mgmtBuffsize) (r : ReadResult) :
    Fills inp r := by
  have h1 := hs.tok_le
  have h2 := hs.cur_le
  have h3 := hs.lim_le
  have hfree := r.bytes_le inp.free
  unfold Input.free at hfree
  have hreceived : InArray (cells (inp.lim - inp.tok) (r.bytes inp.free)) := by
    intro st hst
    have hlt := cells_lt hst
    unfold Input.free at hlt
    omega
  refine ⟨?_, by omega, hreceived, ?_⟩
  · unfold fillStores
    rw [storeCells_cells, store_append, ← hsize]
    rfl
  · rw [fillStores_eq, fillBuffer_text_length hs r]
    refine ⟨fun h => h _ (List.mem_append_right _ (List.mem_singleton_self _)), fun h => ?_⟩
    intro st hst
    rcases List.mem_append.mp hst with hst | hst
    · exact hreceived st hst
    · rw [List.mem_singleton.mp hst]
      exact h

/-- The lexer of a connection that was just accepted. -/
def openLexer (sock : ℤ) (raw : RawMgmt) : LexerRun :=
  { input := (createMgmtClient sock raw).input
    received := []
    consumed := []
    stored := initStores (createMgmtClient sock raw).input }

/-- The window lies in the array, but for the last zero. -/
structure Walled (x : LexerRun) : Prop where
  sound : x.input.Sound
  bufSize : x.input.bufSize = mgmtBuffsize
  first : (mgmtBuffsize, 0) ∈ x.stored
  stored : ∀ st ∈ x.stored, st.1 < mgmtBuffsize ∨ st = (mgmtBuffsize, 0)

theorem openLexer_walled (sock : ℤ) (raw : RawMgmt) : Walled (openLexer sock raw) :=
  ⟨(lexerStart_covers _).sound, rfl, List.mem_singleton_self _,
    fun _ hst => .inr (List.mem_singleton.mp hst)⟩

theorem parseMgmtRequest_bufSize (inp : Input) :
    (parseMgmtRequest inp).input.bufSize = inp.bufSize := by
  have hscan : ∀ ths, (scan ths inp).input.bufSize = inp.bufSize := by
    intro ths
    unfold scan
    cases run ths inp.cur (slice inp.buf inp.cur (inp.lim - inp.cur)) with
    | accept th cur => rfl
    | dead => rfl
    | more ths' => rfl
  unfold parseMgmtRequest
  cases inp.state with
  | none => exact hscan _
  | some ths =>
    dsimp only
    split_ifs
    · rfl
    · rfl
    · exact hscan ths

theorem Walled.step (h : Walled x) (op : LexerOp) : Walled (lexerStep x op) := by
  cases op with
  | fill r =>
    refine ⟨fillBuffer_sound h.sound r, h.bufSize, List.mem_append_left _ h.first, ?_⟩
    intro st hst
    rcases List.mem_append.mp hst with hst | hst
    · exact h.stored st hst
    have hfills := h.sound.fills h.bufSize r
    rw [fillStores_eq] at hst
    rcases List.mem_append.mp hst with hst | hst
    · exact .inl (hfills.received st hst)
    · -- the zero comes right behind the text
      have hlim := (fillBuffer_sound h.sound r).lim_le
      change x.input.lim - x.input.tok + (r.bytes x.input.free).length ≤ x.input.bufSize at hlim
      rw [h.bufSize] at hlim
      rw [List.mem_singleton.mp hst]
      rcases Nat.lt_or_eq_of_le hlim with hlt | heq
      · exact .inl hlt
      · exact .inr (by rw [heq])
  | parse cond =>
    have hsound := (parseMgmtRequest_sound (h.sound.setCond cond)).1
    have hsize := (parseMgmtRequest_bufSize (x.input.setCond cond)).trans h.bufSize
    unfold lexerStep
    dsimp only
    split_ifs
    · exact ⟨hsound, hsize, h.first, h.stored⟩
    · exact ⟨hsound, hsize, h.first, h.stored⟩

/-- For every connection and every sequence of calls: the pointers keep their order and the array
holds every byte that is read, but never all of the zeros. The one of `initState` is behind the
last byte of the array, and so is that of `fillBuffer` whenever the text fills the array. -/
theorem sentinel_is_stored_behind_the_array (sock : ℤ) (raw : RawMgmt) (ops : List LexerOp) :
    let x := exec lexerStep (openLexer sock raw) ops
    x.input.Ordered ∧ ¬ InArray x.stored ∧
      (∀ st ∈ x.stored, st.1 < mgmtBuffsize ∨ st = (mgmtBuffsize, 0)) ∧
      ∀ r, Fills x.input r := by
  intro x
  have hx : Walled x := exec_invariant (openLexer_walled sock raw) fun _ op h => h.step op
  refine ⟨⟨hx.sound.tok_le, hx.sound.cur_le, hx.bufSize ▸ hx.sound.lim_le⟩, ?_, hx.stored, ?_⟩
  · intro hin
    exact Nat.lt_irrefl _ (hin _ hx.first)
  · exact hx.sound.fills hx.bufSize

/-- The first of the zeros. -/
theorem new_connection_stores_behind_the_array :
    ¬ ((exec lexerStep (openLexer 5 ⟨fun _ => 1, fun _ => 1, fun _ => 1⟩) []).input.Ordered ∧
      InArray (exec lexerStep (openLexer 5 ⟨fun _ => 1, fun _ => 1, fun _ => 1⟩) []).stored) := by
  decide

end Socks5d
