import Socks5d.Lexing

/-! # Turns of the command loop -/

namespace Socks5d
open Memory

variable {s : Session} {cmd : MgmtCommand} {n : ℕ}

/-- Nothing of the session changes but the text in its buffer and the server. -/
structure Framed (s t : Session) : Prop where
  tokens_eq : t.tokens = s.tokens
  log_eq : t.log = s.log
  writeBuf_eq : t.c.writeBuf = s.c.writeBuf
  pendingBuf_eq : t.c.pendingBuf = s.c.pendingBuf
  quitted_eq : t.c.quitted = s.c.quitted
  closed_eq : t.closed = s.closed
  input_eq : t.c.input = { s.c.input with buf := t.c.input.buf }

theorem Framed.trans {s t u : Session} (h : Framed s t) (h' : Framed t u) : Framed s u where
  tokens_eq := h'.tokens_eq.trans h.tokens_eq
  log_eq := h'.log_eq.trans h.log_eq
  writeBuf_eq := h'.writeBuf_eq.trans h.writeBuf_eq
  pendingBuf_eq := h'.pendingBuf_eq.trans h.pendingBuf_eq
  quitted_eq := h'.quitted_eq.trans h.quitted_eq
  closed_eq := h'.closed_eq.trans h.closed_eq
  input_eq := by
    have h1 := h'.input_eq
    rw [h.input_eq] at h1
    exact h1

theorem Framed.refl (s : Session) : Framed s s := ⟨rfl, rfl, rfl, rfl, rfl, rfl, rfl⟩

theorem Framed.setBuf (s : Session) (buf : ℕ → UInt8) : Framed s (s.setBuf buf) :=
  ⟨rfl, rfl, rfl, rfl, rfl, rfl, rfl⟩

theorem Framed.setWorld (s : Session) (w : World) : Framed s (s.setWorld w) :=
  ⟨rfl, rfl, rfl, rfl, rfl, rfl, rfl⟩

theorem executeSetBuffsize_framed (args arge : ℕ) (s : Session) :
    Framed s (executeSetBuffsize args arge s).s := by
  unfold executeSetBuffsize
  dsimp only
  split_ifs
  · exact (Framed.setBuf s _).trans (.setWorld _ _)
  · exact Framed.setBuf s _

theorem executeSetDissector_framed (args arge : ℕ) (s : Session) :
    Framed s (executeSetDissector args arge s).s := by
  unfold executeSetDissector
  dsimp only
  have hbuf : ∀ buf, Framed s ((s.terminate arge).setBuf buf) := fun buf =>
    (Framed.setBuf s _).trans (.setBuf _ buf)
  split_ifs
  · exact (hbuf _).trans (.setWorld _ _)
  · exact (hbuf _).trans (.setWorld _ _)
  · exact hbuf _

theorem executeAddUser_framed (args arge : ℕ) (s : Session) :
    Framed s (executeAddUser args arge s).s := by
  unfold executeAddUser
  dsimp only
  generalize addUser _ _ = r
  refine Framed.trans ?_ (.setWorld _ _)
  split_ifs
  · exact (Framed.setBuf s _).trans (.setBuf _ _)
  · exact Framed.setBuf s _

/-! ## The loop -/

theorem writeResponse_readPtr (b : Buffer) (response : List UInt8) :
    bufferReadPtr (writeResponse b response) = bufferReadPtr b ++ response ∨
      bufferReadPtr (writeResponse b response) = bufferReadPtr b := by
  unfold writeResponse
  split_ifs
  · exact .inl (bufferPut_readPtr _)
  · exact .inr rfl

/-- What one turn does. -/
theorem turn_cases {p : Parsed} {r : Executed} (hp : parseMgmtRequest s.c.input = p)
    (hr : execute p.cmd p.arg (s.setInput p.input) = r) :
    (p.cmd = .incomplete ∧ turn s = (s.setInput p.input, false)) ∨
    (p.cmd ≠ .incomplete ∧ bufferWritePtr s.c.writeBuf < r.responseLen ∧ turn s =
      ((r.s.observe (.acted ⟨p.cmd, r.arg, r.response⟩)).setPending
        (writeResponse r.s.c.pendingBuf r.response), false)) ∨
    (p.cmd ≠ .incomplete ∧ r.responseLen ≤ bufferWritePtr s.c.writeBuf ∧ turn s =
      ((r.s.observe (.acted ⟨p.cmd, r.arg, r.response⟩)).setWrite
        (writeResponse r.s.c.writeBuf r.response), true)) := by
  unfold turn
  dsimp only
  rw [hp, hr]
  split_ifs with hinc hspace
  · exact .inl ⟨hinc, rfl⟩
  · exact .inr (.inl ⟨hinc, hspace, rfl⟩)
  · exact .inr (.inr ⟨hinc, Nat.le_of_not_lt hspace, rfl⟩)

/-- Every turn of the loop begins in a state that meets `C`. -/
def TurnsMeet (C : Session → Prop) : ℕ → Session → Prop
  | 0, _ => True
  | n + 1, s => C s ∧ ((turn s).2 = true → TurnsMeet C n (turn s).1)

instance decidableTurnsMeet {C : Session → Prop} [DecidablePred C] :
    ∀ (n : ℕ) (s : Session), Decidable (TurnsMeet C n s)
  | 0, _ => isTrue trivial
  | n + 1, s =>
    have : Decidable (TurnsMeet C n (turn s).1) := decidableTurnsMeet n (turn s).1
    inferInstanceAs (Decidable (C s ∧ ((turn s).2 = true → TurnsMeet C n (turn s).1)))

theorem turnsMeet_true : TurnsMeet (fun _ => True) n s := by
  induction n generalizing s with
  | zero => trivial
  | succ n ih => exact ⟨trivial, fun _ => ih⟩

section
variable {C P Q : Session → Prop} (hPQ : ∀ s, P s → Q s)
include hPQ

/-- `P` is kept as long as the loop goes on; in the end `Q` holds. -/
theorem processLoop_rule_of (hturn : ∀ s, C s → P s →
      ((turn s).2 = true → P (turn s).1) ∧ ((turn s).2 = false → Q (turn s).1))
    (hC : TurnsMeet C n s) (h : P s) : Q (processLoop n s) := by
  induction n generalizing s with
  | zero => exact hPQ s h
  | succ n ih =>
    rw [processLoop]
    split_ifs with hagain
    · exact ih (hC.2 hagain) ((hturn s hC.1 h).1 hagain)
    · exact (hturn s hC.1 h).2 (by simpa using hagain)

/-- The same for a first turn that begins otherwise than the later ones. -/
theorem processMgmtClient_rule (hturn : ∀ s, C s → P s →
      ((turn s).2 = true → P (turn s).1) ∧ ((turn s).2 = false → Q (turn s).1))
    (hC : TurnsMeet C (s.c.input.lim - s.c.input.tok + 1) s)
    (h : C s → ((turn s).2 = true → P (turn s).1) ∧ ((turn s).2 = false → Q (turn s).1)) :
    Q (processMgmtClient s) := by
  rw [processMgmtClient, processLoop]
  split_ifs with hagain
  · exact processLoop_rule_of hPQ hturn (hC.2 hagain) ((h hC.1).1 hagain)
  · exact (h hC.1).2 (by simpa using hagain)

theorem processLoop_rule
    (hturn : ∀ s, P s → ((turn s).2 = true → P (turn s).1) ∧ ((turn s).2 = false → Q (turn s).1))
    (h : P s) : Q (processLoop n s) :=
  processLoop_rule_of hPQ (fun s _ hP => hturn s hP) turnsMeet_true h

end

theorem pending_nil (h : ¬ bufferCanRead s.c.pendingBuf = true) :
    bufferReadPtr s.c.pendingBuf = [] := by
  rw [bufferCanRead_iff, not_not] at h
  exact h

/-! ## Events -/

/-- The session after `fillBuffer`. -/
def filled (r : ReadResult) (s : Session) : Session :=
  (s.setInput (fillBuffer s.c.input r).1).observe (.received (r.bytes s.c.input.free))

/-- The end of `handle_mgmt_write`, from `write_to_sock` on. -/
def sendOut (r : SendResult) (s : Session) : Session :=
  let b := writeToSock r s.c.writeBuf
  let size := s.c.writeBuf.write - s.c.writeBuf.read
  let s := (s.setWrite b.1).observe (.sent ((bufferReadPtr s.c.writeBuf).take (r.accepted size)))
  if b.2 = 0 then (if s.c.quitted then s.unregister else s)
  else if b.2 < 0 then s.unregister
  else s

/-- The session after `write_to_sock`. -/
def afterSend (r : SendResult) (s : Session) : Session :=
  (s.setWrite (writeToSock r s.c.writeBuf).1).observe
    (.sent ((bufferReadPtr s.c.writeBuf).take
      (r.accepted (s.c.writeBuf.write - s.c.writeBuf.read))))

theorem sendOut_cases (r : SendResult) (s : Session) :
    sendOut r s = afterSend r s ∨
    (sendOut r s = (afterSend r s).unregister ∧
      (((writeToSock r s.c.writeBuf).2 = 0 ∧ s.c.quitted = true) ∨
        (writeToSock r s.c.writeBuf).2 < 0)) := by
  unfold sendOut
  dsimp only
  split_ifs with hzero hquit hneg
  · exact .inr ⟨rfl, .inl ⟨hzero, hquit⟩⟩
  · exact .inl rfl
  · exact .inr ⟨rfl, .inr hneg⟩
  · exact .inl rfl

/-- The state in which the handler of an event enters the loop, if it does. -/
def loopStart (s : Session) : MgmtEvent → Option Session
  | .read r =>
    if s.idle || !s.interest.read || bufferCanRead s.c.pendingBuf ||
      checkEOF (fillBuffer s.c.input r).2 r.isAgain then none
    else some (filled r s)
  | .write _ =>
    if s.idle || !s.interest.write || !bufferCanRead s.c.pendingBuf then none
    else if h : (bufferReadPtr s.c.pendingBuf).length ≤ bufferWritePtr s.c.writeBuf then
      some (copyFromBuf s h)
    else none
  | .server _ => none

/-- Every turn of the loop that an event leads to begins in a state that meets `C`. -/
def EventMeets (C : Session → Prop) (s : Session) (ev : MgmtEvent) : Prop :=
  ∀ t, loopStart s ev = some t → TurnsMeet C (t.c.input.lim - t.c.input.tok + 1) t

instance decidableEventMeets {C : Session → Prop} [DecidablePred C] (s : Session) (ev : MgmtEvent) :
    Decidable (EventMeets C s ev) :=
  match h : loopStart s ev with
  | none => isTrue fun t ht => by rw [h] at ht; cases ht
  | some t =>
    decidable_of_iff (TurnsMeet C (t.c.input.lim - t.c.input.tok + 1) t)
      ⟨fun hm t' ht' => by rw [h] at ht'; cases ht'; exact hm, fun hm => hm t h⟩

/-- What a read event does. -/
theorem read_cases (r : ReadResult) (s : Session) :
    sessionStep s (.read r) = s ∨
    (s.idle = false ∧ bufferReadPtr s.c.pendingBuf = [] ∧
      ((checkEOF (fillBuffer s.c.input r).2 r.isAgain = true ∧
        sessionStep s (.read r) = (filled r s).unregister) ∨
      (checkEOF (fillBuffer s.c.input r).2 r.isAgain = false ∧
        loopStart s (.read r) = some (filled r s) ∧
        sessionStep s (.read r) =
          { processMgmtClient (filled r s) with interest := opWrite ||| opRead }))) := by
  rw [sessionStep]
  split_ifs with hidle
  · exact .inl rfl
  simp only [Bool.or_eq_true, not_or, Bool.not_eq_true, Bool.not_eq_false'] at hidle
  unfold handleMgmtRead
  by_cases hcan : bufferCanRead s.c.pendingBuf = true
  · rw [if_pos hcan]
    exact .inl rfl
  rw [if_neg hcan]
  refine .inr ⟨hidle.1, pending_nil hcan, ?_⟩
  dsimp only
  by_cases heof : checkEOF (fillBuffer s.c.input r).2 r.isAgain = true
  · rw [if_pos heof]
    exact .inl ⟨heof, rfl⟩
  · rw [if_neg heof]
    refine .inr ⟨by simpa using heof, ?_, rfl⟩
    rw [loopStart, if_neg]
    simpa [hidle] using ⟨by simpa using hcan, by simpa using heof⟩

/-- What a write event does. -/
theorem write_cases (r : SendResult) (s : Session) :
    sessionStep s (.write r) = s ∨ sessionStep s (.write r) = { s with interest := opRead } ∨
    (s.idle = false ∧ (bufferReadPtr s.c.writeBuf ≠ [] ∨ bufferReadPtr s.c.pendingBuf ≠ []) ∧
      sessionStep s (.write r) = sendOut r (unblock s) ∧
      ((unblock s = s ∧ (bufferReadPtr s.c.pendingBuf = [] ∨
          bufferWritePtr s.c.writeBuf < (bufferReadPtr s.c.pendingBuf).length)) ∨
        ∃ h, loopStart s (.write r) = some (copyFromBuf s h) ∧
          unblock s = processMgmtClient (copyFromBuf s h))) := by
  rw [sessionStep]
  split_ifs with hidle
  · exact .inl rfl
  simp only [Bool.or_eq_true, not_or, Bool.not_eq_true, Bool.not_eq_false'] at hidle
  unfold handleMgmtWrite
  split_ifs with hnone
  · exact .inr (.inl rfl)
  refine .inr (.inr ⟨hidle.1, ?_, rfl, ?_⟩)
  · rw [← bufferCanRead_iff, ← bufferCanRead_iff]
    by_contra hno
    rw [not_or] at hno
    exact hnone (by simpa using hno)
  unfold unblock
  by_cases hcan : bufferCanRead s.c.pendingBuf = true
  · rw [if_pos hcan]
    split_ifs with hfit
    · refine .inr ⟨hfit, ?_, rfl⟩
      rw [loopStart, if_neg (by simp [hidle, hcan]), dif_pos hfit]
    · exact .inl ⟨rfl, .inr (Nat.lt_of_not_le hfit)⟩
  · rw [if_neg hcan]
    exact .inl ⟨rfl, .inl (pending_nil hcan)⟩

end Socks5d
