import Socks5d.Buffer

/-! # The POP3 sniffer of `pop3_sniffer.c`

The parser works on a copy of the buffer header, but the copy points to the same
bytes: `pop3Parse` hands back the memory it leaves behind. -/

namespace Socks5d

def maxCredentialsLen : ℕ := 40

inductive PopState
  | userCmd | fillUser | passCmd | fillPass | unknownCmd
deriving DecidableEq, Repr

structure Pop3Parser where
  state : PopState
  passwordComplete : Bool
  userComplete : Bool
  user : ℕ → UInt8
  pass : ℕ → UInt8
  buf : Buffer
  readPtr : ℕ
  writePtr : ℕ

def pop3UserStr : List UInt8 := [0x55, 0x53, 0x45, 0x52, 0x20]
def pop3PassStr : List UInt8 := [0x50, 0x41, 0x53, 0x53, 0x20]

def tolower (c : UInt8) : UInt8 := if 0x41 ≤ c && c ≤ 0x5a then c + 0x20 else c

def unknownCmd (p : Pop3Parser) (c : UInt8) : PopState :=
  if c = 0x0a then (if p.userComplete then .passCmd else .userCmd) else .unknownCmd

/-- The common body of `user_cmd` and `pass_cmd`: match one more character of
the keyword `str`; `here` is the state itself and `fill` the one that follows. -/
def matchKeyword (str : List UInt8) (here fill : PopState) (p : Pop3Parser) (c : UInt8) :
    Pop3Parser :=
  if tolower c = tolower (str.getD p.readPtr 0) then
    let p := { p with readPtr := p.readPtr + 1 }
    if str.getD p.readPtr 0 = 0 then { p with readPtr := 0, state := fill }
    else { p with state := here }
  else { p with state := unknownCmd p c }

def userCmd (p : Pop3Parser) (c : UInt8) : Pop3Parser :=
  matchKeyword pop3UserStr .userCmd .fillUser p c

def passCmd (p : Pop3Parser) (c : UInt8) : Pop3Parser :=
  matchKeyword pop3PassStr .passCmd .fillPass p c

def fillUser (p : Pop3Parser) (c : UInt8) : Pop3Parser :=
  if c = 0x0a then
    { p with
      user := Function.update p.user p.writePtr 0
      writePtr := 0
      userComplete := true
      state := .passCmd }
  else if p.writePtr + 1 = maxCredentialsLen then { p with state := .unknownCmd }
  else { p with
    user := Function.update p.user p.writePtr c
    writePtr := p.writePtr + 1
    state := .fillUser }

def fillPass (p : Pop3Parser) (c : UInt8) : Pop3Parser :=
  if c = 0x0a then
    { p with
      pass := Function.update p.pass p.writePtr 0
      writePtr := 0
      passwordComplete := true
      state := .passCmd }
  else if p.writePtr + 1 = maxCredentialsLen then { p with state := .unknownCmd }
  else { p with
    pass := Function.update p.pass p.writePtr c
    writePtr := p.writePtr + 1
    state := .fillPass }

def initParser (p : Pop3Parser) : Pop3Parser :=
  { p with
    state := .userCmd
    readPtr := 0
    writePtr := 0
    passwordComplete := false
    userComplete := false }

/-- A parser fresh from `malloc` and `init_parser`. Its fields are written before
they are read, so what the memory held does not matter. -/
def newParser : Pop3Parser :=
  initParser ⟨.userCmd, false, false, fun _ => 0, fun _ => 0, bufferInit 0 fun _ => 0, 0, 0⟩

def popStep (p : Pop3Parser) (c : UInt8) : Pop3Parser :=
  match p.state with
  | .userCmd => userCmd p c
  | .fillUser => fillUser p c
  | .passCmd => passCmd p c
  | .fillPass => fillPass p c
  | .unknownCmd => { p with state := unknownCmd p c }

/-- The loop of `pop3_consume`; each turn reads one byte, so the first argument,
the number of readable bytes, bounds it. -/
def pop3Consume : ℕ → Pop3Parser → Pop3Parser
  | 0, p => p
  | n + 1, p =>
    if bufferCanRead p.buf && !p.passwordComplete then
      let r := bufferRead p.buf
      pop3Consume n (popStep { p with buf := r.2 } r.1)
    else p

def pop3Parse (p : Pop3Parser) (request : Buffer) : Bool × Pop3Parser :=
  let p := pop3Consume (request.write - request.read) { p with buf := request }
  if p.userComplete && p.passwordComplete then (true, initParser p) else (false, p)

/-! ## The request buffer is left alone -/

theorem popStep_buf (p : Pop3Parser) (c : UInt8) : (popStep p c).buf = p.buf := by
  unfold popStep
  cases p.state with
  | userCmd => dsimp only [userCmd, matchKeyword]; split_ifs <;> rfl
  | fillUser => dsimp only [fillUser]; split_ifs <;> rfl
  | passCmd => dsimp only [passCmd, matchKeyword]; split_ifs <;> rfl
  | fillPass => dsimp only [fillPass]; split_ifs <;> rfl
  | unknownCmd => rfl

theorem bufferRead_data (b : Buffer) : (bufferRead b).2.data = b.data := by
  unfold bufferRead
  split_ifs <;> simp

theorem pop3Consume_data (n : ℕ) (p : Pop3Parser) : (pop3Consume n p).buf.data = p.buf.data := by
  induction n generalizing p with
  | zero => rfl
  | succ n ih =>
    unfold pop3Consume
    split_ifs
    · rw [ih, popStep_buf, bufferRead_data]
    · rfl

theorem pop3Parse_data (p : Pop3Parser) (request : Buffer) :
    (pop3Parse p request).2.buf.data = request.data := by
  unfold pop3Parse
  dsimp only
  split_ifs
  · exact pop3Consume_data _ _
  · exact pop3Consume_data _ _

/-! ## The parser on a list of bytes -/

variable {p : Pop3Parser} {bs : List UInt8}

/-- The bytes that the loop of `pop3_consume` takes. -/
def pop3Taken : ℕ → Pop3Parser → List UInt8
  | 0, _ => []
  | n + 1, p =>
    if bufferCanRead p.buf && !p.passwordComplete then
      let r := bufferRead p.buf
      r.1 :: pop3Taken n (popStep { p with buf := r.2 } r.1)
    else []

/-- The part of a list that the parser takes before it stops. -/
def popPrefix : Pop3Parser → List UInt8 → List UInt8
  | _, [] => []
  | p, b :: bs => if p.passwordComplete then [] else b :: popPrefix (popStep p b) bs

/-- The parser that follows a stream: it starts again after each password. -/
def popFeed (p : Pop3Parser) (b : UInt8) : Pop3Parser :=
  let p := popStep p b
  if p.userComplete && p.passwordComplete then initParser p else p

def Pop3Parser.setBuf (p : Pop3Parser) (buf : Buffer) : Pop3Parser := { p with buf := buf }

/-- Two parsers that differ at most in the buffer they point to. -/
def Pop3Parser.Alike (p q : Pop3Parser) : Prop := ∃ buf, p = q.setBuf buf

theorem matchKeyword_setBuf (str : List UInt8) (here fill : PopState) (p : Pop3Parser)
    (buf : Buffer) (b : UInt8) :
    matchKeyword str here fill (p.setBuf buf) b = (matchKeyword str here fill p b).setBuf buf := by
  unfold matchKeyword Pop3Parser.setBuf
  dsimp only
  split_ifs <;> rfl

theorem popStep_setBuf (p : Pop3Parser) (buf : Buffer) (b : UInt8) :
    popStep (p.setBuf buf) b = (popStep p b).setBuf buf := by
  have hstate : (p.setBuf buf).state = p.state := rfl
  unfold popStep
  rw [hstate]
  cases p.state with
  | userCmd => exact matchKeyword_setBuf _ _ _ _ _ _
  | fillUser => dsimp only [fillUser, Pop3Parser.setBuf]; split_ifs <;> rfl
  | passCmd => exact matchKeyword_setBuf _ _ _ _ _ _
  | fillPass => dsimp only [fillPass, Pop3Parser.setBuf]; split_ifs <;> rfl
  | unknownCmd => rfl

theorem popPrefix_setBuf (p : Pop3Parser) (buf : Buffer) (bs : List UInt8) :
    popPrefix (p.setBuf buf) bs = popPrefix p bs := by
  induction bs generalizing p with
  | nil => rfl
  | cons b bs ih =>
    unfold popPrefix
    rw [popStep_setBuf, ih]
    rfl

theorem foldl_popStep_setBuf (p : Pop3Parser) (buf : Buffer) (bs : List UInt8) :
    bs.foldl popStep (p.setBuf buf) = (bs.foldl popStep p).setBuf buf := by
  induction bs generalizing p with
  | nil => rfl
  | cons b bs ih => rw [List.foldl_cons, popStep_setBuf, ih, List.foldl_cons]

theorem pop3Consume_succ (n : ℕ) (p : Pop3Parser) :
    pop3Consume (n + 1) p = if bufferCanRead p.buf && !p.passwordComplete then
      pop3Consume n (popStep (p.setBuf (bufferRead p.buf).2) (bufferRead p.buf).1) else p := rfl

theorem pop3Taken_succ (n : ℕ) (p : Pop3Parser) :
    pop3Taken (n + 1) p = if bufferCanRead p.buf && !p.passwordComplete then (bufferRead p.buf).1 ::
      pop3Taken n (popStep (p.setBuf (bufferRead p.buf).2) (bufferRead p.buf).1) else [] := rfl

theorem bufferRead_cons {b : Buffer} {a : UInt8} (h : bufferReadPtr b = a :: bs) :
    bufferCanRead b = true ∧ (bufferRead b).1 = a ∧ bufferReadPtr (bufferRead b).2 = bs := by
  have hcan : bufferCanRead b = true := bufferCanRead_iff.mpr (by rw [h]; simp)
  have hpeek : bufferPeek b 0 = a := by
    rw [bufferPeek_eq (by rw [h]; simp), h]
    rfl
  unfold bufferRead
  rw [dif_pos hcan]
  refine ⟨hcan, hpeek, ?_⟩
  rw [bufferReadAdv_readPtr, h]
  rfl

/-- The loop works on the unread bytes of the buffer. -/
theorem pop3Consume_spec (n : ℕ) (p : Pop3Parser) (hn : (bufferReadPtr p.buf).length = n) :
    pop3Taken n p = popPrefix p (bufferReadPtr p.buf) ∧
      (pop3Consume n p).Alike ((popPrefix p (bufferReadPtr p.buf)).foldl popStep p) := by
  induction n generalizing p with
  | zero =>
    rw [List.eq_nil_of_length_eq_zero hn]
    exact ⟨rfl, p.buf, rfl⟩
  | succ n ih =>
    obtain ⟨a, bs, hbs⟩ := List.exists_cons_of_length_eq_add_one hn
    obtain ⟨hcan, ha, htail⟩ := bufferRead_cons hbs
    rw [hbs, popPrefix, pop3Taken_succ, pop3Consume_succ, hcan, Bool.true_and]
    by_cases hp : p.passwordComplete = true
    · rw [hp]
      exact ⟨rfl, p.buf, rfl⟩
    · have hlen : bs.length = n := by simpa [hbs] using hn
      obtain ⟨htaken, buf, hcons⟩ := ih (popStep (p.setBuf (bufferRead p.buf).2) a)
        (by rw [popStep_buf]; exact (congrArg List.length htail).trans hlen)
      rw [popStep_buf, show bufferReadPtr (p.setBuf (bufferRead p.buf).2).buf = bs from htail,
        popStep_setBuf, popPrefix_setBuf] at htaken hcons
      rw [foldl_popStep_setBuf] at hcons
      rw [if_neg hp, if_pos (by simpa using hp), if_pos (by simpa using hp), ha, popStep_setBuf]
      exact ⟨by rw [htaken], buf, hcons⟩

/-! ## One read -/

/-- No password is complete before the last byte. -/
def Unfinished (p : Pop3Parser) (bs : List UInt8) : Prop :=
  ∀ k < bs.length, ((bs.take k).foldl popStep p).passwordComplete = false

theorem Unfinished.head {b : UInt8} (h : Unfinished p (b :: bs)) : p.passwordComplete = false :=
  h 0 (Nat.zero_lt_succ _)

theorem Unfinished.tail {b : UInt8} (h : Unfinished p (b :: bs)) : Unfinished (popStep p b) bs := by
  intro k hk
  exact h (k + 1) (Nat.succ_lt_succ hk)

/-- The parser takes everything exactly then. -/
theorem popPrefix_eq_iff : popPrefix p bs = bs ↔ Unfinished p bs := by
  induction bs generalizing p with
  | nil => exact iff_of_true rfl fun k hk => absurd hk (Nat.not_lt_zero k)
  | cons b bs ih =>
    unfold popPrefix
    by_cases hp : p.passwordComplete = true
    · rw [if_pos hp]
      refine iff_of_false (by simp) fun h => ?_
      rw [h.head] at hp
      cases hp
    · rw [if_neg hp, List.cons.injEq, eq_self, true_and, ih]
      refine ⟨fun h => ?_, fun h => h.tail⟩
      intro k hk
      cases k with
      | zero => simpa using hp
      | succ k => exact h k (Nat.lt_of_succ_lt_succ hk)

theorem foldl_popFeed (hp : p.passwordComplete = false) (h : Unfinished p bs) :
    bs.foldl popFeed p =
      let q := bs.foldl popStep p
      if q.userComplete && q.passwordComplete then initParser q else q := by
  induction bs generalizing p with
  | nil => simp [hp]
  | cons b bs ih =>
    cases bs with
    | nil => rfl
    | cons b' bs =>
      have hnext := h.tail.head
      have hfeed : popFeed p b = popStep p b := by
        unfold popFeed
        simp [hnext]
      rw [List.foldl_cons, hfeed, ih hnext h.tail]
      rfl

/-- The parser after a buffer that it takes to the end. -/
theorem pop3Parse_eq {b : Buffer} (hb : bufferReadPtr b = bs) (h : Unfinished p bs) :
    ∃ buf, pop3Parse p b =
      let q := (bs.foldl popStep p).setBuf buf
      if q.userComplete && q.passwordComplete then (true, initParser q) else (false, q) := by
  have hlen : (bufferReadPtr (p.setBuf b).buf).length = b.write - b.read := bufferReadPtr_length
  obtain ⟨-, buf, hcons⟩ := pop3Consume_spec _ _ hlen
  rw [show bufferReadPtr (p.setBuf b).buf = bs from hb, popPrefix_setBuf, popPrefix_eq_iff.mpr h,
    foldl_popStep_setBuf] at hcons
  have hparse : pop3Parse p b =
      let q := pop3Consume (b.write - b.read) (p.setBuf b)
      if q.userComplete && q.passwordComplete then (true, initParser q) else (false, q) := rfl
  rw [hcons] at hparse
  exact ⟨buf, hparse⟩

/-- What the parser leaves in memory after a read that it follows. -/
theorem pop3Parse_alike {b : Buffer} (hb : bufferReadPtr b = bs) (hp : p.passwordComplete = false)
    (h : Unfinished p bs) : (pop3Parse p b).2.Alike (bs.foldl popFeed p) := by
  obtain ⟨buf, hparse⟩ := pop3Parse_eq hb h
  rw [foldl_popFeed hp h, hparse]
  dsimp only [Pop3Parser.setBuf]
  split_ifs
  · exact ⟨buf, rfl⟩
  · exact ⟨buf, rfl⟩

/-- Between two bytes of the stream no password is complete, and one is only read after
a user. -/
structure Listening (p : Pop3Parser) : Prop where
  pass : p.passwordComplete = false
  user : p.state = .passCmd ∨ p.state = .fillPass → p.userComplete = true

theorem Listening.unknownCmd (h : p.passwordComplete = false) (b : UInt8) :
    Listening { p with state := Socks5d.unknownCmd p b } := by
  refine ⟨h, ?_⟩
  unfold Socks5d.unknownCmd
  split_ifs with hb hu
  · exact fun _ => hu
  · simp
  · simp

theorem Listening.matchKeyword {str : List UInt8} {here fill : PopState}
    (h : p.passwordComplete = false)
    (hhere : here = .passCmd ∨ here = .fillPass → p.userComplete = true)
    (hfill : fill = .passCmd ∨ fill = .fillPass → p.userComplete = true) (b : UInt8) :
    Listening (Socks5d.matchKeyword str here fill p b) := by
  unfold Socks5d.matchKeyword
  dsimp only
  split_ifs
  · exact ⟨h, hfill⟩
  · exact ⟨h, hhere⟩
  · exact .unknownCmd h b

/-- A step that completes no password. -/
theorem Listening.popFeed_of {b : UInt8} (h : Listening (popStep p b)) :
    Listening (popFeed p b) := by
  have hfeed : popFeed p b = popStep p b := by
    unfold popFeed
    simp [h.pass]
  rw [hfeed]
  exact h

theorem Listening.feed (h : Listening p) (b : UInt8) : Listening (popFeed p b) := by
  have hstep : popStep p b = match p.state with
    | .userCmd => userCmd p b
    | .fillUser => fillUser p b
    | .passCmd => passCmd p b
    | .fillPass => fillPass p b
    | .unknownCmd => { p with state := Socks5d.unknownCmd p b } := rfl
  cases hst : p.state with
  | userCmd =>
    rw [hst] at hstep
    exact .popFeed_of (hstep ▸ .matchKeyword h.pass (by simp) (by simp) b)
  | fillUser =>
    rw [hst] at hstep
    refine .popFeed_of (hstep ▸ ?_)
    dsimp only [fillUser]
    split_ifs
    · exact ⟨h.pass, fun _ => rfl⟩
    · exact ⟨h.pass, by simp⟩
    · exact ⟨h.pass, by simp⟩
  | passCmd =>
    rw [hst] at hstep
    have hu := h.user (.inl hst)
    exact .popFeed_of (hstep ▸ .matchKeyword h.pass (fun _ => hu) (fun _ => hu) b)
  | fillPass =>
    rw [hst] at hstep
    have hu := h.user (.inr hst)
    by_cases hb : b = 0x0a
    · -- the password is complete: the parser starts again
      have hdone : (popStep p b).userComplete = true ∧ (popStep p b).passwordComplete = true := by
        rw [hstep]
        dsimp only [fillPass]
        rw [if_pos hb]
        exact ⟨hu, rfl⟩
      unfold popFeed
      simp only [hdone, Bool.and_self, ↓reduceIte]
      exact ⟨rfl, by simp [initParser]⟩
    · refine .popFeed_of (hstep ▸ ?_)
      dsimp only [fillPass]
      rw [if_neg hb]
      split_ifs
      · exact ⟨h.pass, by simp⟩
      · exact ⟨h.pass, fun _ => hu⟩
  | unknownCmd =>
    rw [hst] at hstep
    exact .popFeed_of (hstep ▸ .unknownCmd h.pass b)

theorem Listening.foldl (h : Listening p) (bs : List UInt8) : Listening (bs.foldl popFeed p) := by
  induction bs generalizing p with
  | nil => exact h
  | cons b bs ih => exact ih (h.feed b)

theorem popFeed_setBuf (p : Pop3Parser) (buf : Buffer) (b : UInt8) :
    popFeed (p.setBuf buf) b = (popFeed p b).setBuf buf := by
  unfold popFeed
  rw [popStep_setBuf]
  dsimp only [Pop3Parser.setBuf]
  split_ifs <;> rfl

theorem Pop3Parser.Alike.feed {p q : Pop3Parser} (h : p.Alike q) (bs : List UInt8) :
    (bs.foldl popFeed p).Alike (bs.foldl popFeed q) := by
  induction bs generalizing p q with
  | nil => exact h
  | cons b bs ih =>
    obtain ⟨buf, rfl⟩ := h
    exact ih ⟨buf, popFeed_setBuf q buf b⟩

theorem Pop3Parser.Alike.trans {p q t : Pop3Parser} (h : p.Alike q) (h' : q.Alike t) :
    p.Alike t := by
  obtain ⟨buf, rfl⟩ := h
  obtain ⟨buf', rfl⟩ := h'
  exact ⟨buf, rfl⟩

theorem newParser_listening : Listening newParser := ⟨rfl, by simp [newParser, initParser]⟩

end Socks5d
