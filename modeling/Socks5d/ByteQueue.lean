import Mathlib.Data.Int.Notation
import Socks5d.Lib.Run
import Socks5d.Lib.Queue
import Socks5d.Buffer

/-! # The buffer at its pointers

`buffer.c` once more, with the pointers themselves: `PtrBuffer` is `struct buffer`, an address
is a number, and an assertion that fails ends the program. `Buffer` is what a `PtrBuffer` that
keeps its invariant stands for, and a bounded queue is what both are for. -/

namespace Socks5d
open Memory EventRun

/-- `struct buffer`. -/
structure PtrBuffer where
  data : ℕ
  limit : ℕ
  read : ℕ
  write : ℕ
deriving DecidableEq, Repr

/-- A buffer, the memory, and what can be seen of the calls made. -/
structure BufferState where
  b : PtrBuffer
  mem : ℕ → UInt8
  /-- The calls of `memmove`. -/
  moves : ℕ
  /-- What `buffer_read` has returned. -/
  out : List UInt8

namespace BufferState

def reset (s : BufferState) : BufferState :=
  { s with b := { s.b with read := s.b.data, write := s.b.data } }

def init (n data : ℕ) (mem : ℕ → UInt8) : BufferState := ⟨⟨data, data + n, data, data⟩, mem, 0, []⟩

def canWrite (s : BufferState) : Bool := (s.b.limit : ℤ) - s.b.write > 0

/-- The pointer, and `*nbyte`. -/
def writePtr (s : BufferState) : Option (ℕ × ℕ) :=
  if s.b.write ≤ s.b.limit then some (s.b.write, s.b.limit - s.b.write) else none

def canRead (s : BufferState) : Bool := (s.b.write : ℤ) - s.b.read > 0

def readPtr (s : BufferState) : Option (ℕ × ℕ) :=
  if s.b.read ≤ s.b.write then some (s.b.read, s.b.write - s.b.read) else none

def writeAdv (s : BufferState) (bytes : ℤ) : Option BufferState :=
  if bytes > -1 then
    let s := { s with b := { s.b with write := s.b.write + bytes.toNat } }
    if s.b.write ≤ s.b.limit then some s else none
  else some s

def compact (s : BufferState) : BufferState :=
  if s.b.data = s.b.read then s
  else if s.b.read = s.b.write then { s with b := { s.b with read := s.b.data, write := s.b.data } }
  else
    let n := s.b.write - s.b.read
    { s with
      mem := move s.mem s.b.data s.b.read n
      moves := s.moves + 1
      b := { s.b with read := s.b.data, write := s.b.data + n } }

def readAdv (s : BufferState) (bytes : ℤ) : Option BufferState :=
  if bytes > -1 then
    let s := { s with b := { s.b with read := s.b.read + bytes.toNat } }
    if s.b.read ≤ s.b.write then some (if s.b.read = s.b.write then s.compact else s) else none
  else some s

/-- The byte returned goes to `out`. -/
def read (s : BufferState) : Option BufferState :=
  if s.canRead then
    let ret := s.mem s.b.read
    (s.readAdv 1).map fun s => { s with out := s.out ++ [ret] }
  else some { s with out := s.out ++ [0] }

def write (s : BufferState) (c : UInt8) : Option BufferState :=
  if s.canWrite then { s with mem := store s.mem s.b.write [c] }.writeAdv 1 else some s

end BufferState

inductive BufferOp
  | write (c : UInt8)
  | read
  | compact
  | reset
  /-- Bytes are stored at `buffer_write_ptr`, as by `recv`, and then counted. -/
  | fill (bs : List UInt8)
  /-- `buffer_read_adv` after `buffer_read_ptr`. -/
  | readAdv (n : ℕ)
deriving DecidableEq, Repr

def BufferState.step (s : BufferState) : BufferOp → Option BufferState
  | .write c => s.write c
  | .read => s.read
  | .compact => some s.compact
  | .reset => some s.reset
  | .fill bs => do
    let (ptr, _) ← s.writePtr
    { s with mem := store s.mem ptr bs }.writeAdv bs.length
  | .readAdv n => do
    let _ ← s.readPtr
    s.readAdv n

/-- What the caller answers for: no more bytes than `*nbyte`. -/
def BufferState.Permits (s : BufferState) : BufferOp → Prop
  | .fill bs => ∀ p ∈ s.writePtr, bs.length ≤ p.2
  | .readAdv n => ∀ p ∈ s.readPtr, n ≤ p.2
  | _ => True

instance (s : BufferState) (op : BufferOp) : Decidable (s.Permits op) :=
  match op with
  | .fill bs => inferInstanceAs (Decidable (∀ p ∈ s.writePtr, bs.length ≤ p.2))
  | .readAdv n => inferInstanceAs (Decidable (∀ p ∈ s.readPtr, n ≤ p.2))
  | .write _ | .read | .compact | .reset => isTrue trivial

/-! ## What the pointers stand for -/

/-- The pointers are those of `b` in the block at `base`; the memory around the block is as in
`mem₀`. -/
structure Represents (base : ℕ) (mem₀ : ℕ → UInt8) (s : BufferState) (b : Buffer) : Prop where
  data : s.b.data = base
  limit : s.b.limit = base + b.limit
  read : s.b.read = base + b.read
  write : s.b.write = base + b.write
  bytes : b.data = fun i => s.mem (base + i)
  around : ∀ a, a < base ∨ base + b.limit ≤ a → s.mem a = mem₀ a

variable {base n : ℕ} {mem₀ : ℕ → UInt8} {s : BufferState} {b : Buffer} {bs : List UInt8}

theorem represents_init (n base : ℕ) (mem : ℕ → UInt8) :
    Represents base mem (.init n base mem) (bufferInit n fun i => mem (base + i)) :=
  ⟨rfl, rfl, rfl, rfl, rfl, fun _ _ => rfl⟩

theorem Represents.canWrite (h : Represents base mem₀ s b) : s.canWrite = bufferCanWrite b := by
  have hle := b.write_le_limit
  rw [BufferState.canWrite, bufferCanWrite, h.limit, h.write, decide_eq_decide]
  omega

theorem Represents.canRead (h : Represents base mem₀ s b) : s.canRead = bufferCanRead b := by
  have hle := b.read_le_write
  rw [BufferState.canRead, bufferCanRead, h.read, h.write, decide_eq_decide]
  omega

theorem Represents.writePtr (h : Represents base mem₀ s b) :
    s.writePtr = some (base + b.write, bufferWritePtr b) := by
  have hle := b.write_le_limit
  rw [BufferState.writePtr, h.limit, h.write, if_pos (by omega), bufferWritePtr,
    Nat.add_sub_add_left]

theorem Represents.readPtr (h : Represents base mem₀ s b) :
    s.readPtr = some (base + b.read, b.write - b.read) := by
  have hle := b.read_le_write
  rw [BufferState.readPtr, h.read, h.write, if_pos (by omega), Nat.add_sub_add_left]

theorem Represents.reset (h : Represents base mem₀ s b) :
    Represents base mem₀ s.reset (bufferReset b) :=
  ⟨h.data, h.limit, h.data, h.data, h.bytes, h.around⟩

/-- `memmove` is called for a buffer that is not empty, and stays inside the block. -/
theorem Represents.compact (h : Represents base mem₀ s b) :
    Represents base mem₀ s.compact (bufferCompact b) ∧ s.compact.out = s.out ∧
      (s.compact.moves ≠ s.moves → s.b.read ≠ s.b.write) := by
  have hr := b.read_le_write
  have hw := b.write_le_limit
  unfold BufferState.compact bufferCompact
  by_cases h0 : b.read = 0
  · rw [if_pos (by rw [h.data, h.read, h0, Nat.add_zero]), if_pos h0]
    exact ⟨h, rfl, fun hne => absurd rfl hne⟩
  rw [if_neg (by rw [h.data, h.read]; omega), if_neg h0]
  by_cases heq : b.read = b.write
  · rw [if_pos (by rw [h.read, h.write, heq]), if_pos heq]
    exact ⟨h.reset, rfl, fun hne => absurd rfl hne⟩
  -- the bytes that are left are moved to the start of the block
  have hne : s.b.read ≠ s.b.write := by
    rw [h.read, h.write]
    omega
  have hn : s.b.write - s.b.read = b.write - b.read := by rw [h.read, h.write, Nat.add_sub_add_left]
  rw [if_neg hne, if_neg heq]
  refine ⟨⟨h.data, h.limit, h.data, ?_, ?_, ?_⟩, rfl, fun _ => hne⟩
  · dsimp only
    rw [h.data, hn]
  · dsimp only
    rw [h.data, hn, h.read, h.bytes]
    exact (move_from 0).symm
  · intro a ha
    dsimp only
    rw [move_outside, h.around a ha]
    rw [h.data, hn]
    dsimp only at ha
    omega

theorem Represents.readAdv (h : Represents base mem₀ s b) (hn : n ≤ b.write - b.read) :
    ∃ s', s.readAdv n = some s' ∧ Represents base mem₀ s' (bufferReadAdv b n hn) ∧
      s'.moves = s.moves ∧ s'.mem = s.mem ∧ s'.out = s.out := by
  have hr := b.read_le_write
  unfold BufferState.readAdv bufferReadAdv
  rw [if_pos (by omega), Int.toNat_natCast]
  dsimp only
  have hle : s.b.read + n ≤ s.b.write := by
    rw [h.read, h.write]
    omega
  have hrep : Represents base mem₀ { s with b := { s.b with read := s.b.read + n } }
      { b with read := b.read + n, read_le_write := by omega } :=
    ⟨h.data, h.limit, by rw [h.read, Nat.add_assoc], h.write, h.bytes, h.around⟩
  rw [if_pos hle]
  refine ⟨_, rfl, ?_⟩
  by_cases heq : b.read + n = b.write
  · have hs : s.b.read + n = s.b.write := by rw [h.read, h.write, Nat.add_assoc, heq]
    rw [if_pos hs, if_pos heq]
    -- the buffer has run empty, so that compaction only rewinds it
    refine ⟨hrep.compact.1, ?_⟩
    unfold BufferState.compact
    dsimp only
    split_ifs <;> exact ⟨rfl, rfl, rfl⟩
  · have hs : s.b.read + n ≠ s.b.write := by
      rw [h.read, h.write]
      omega
    rw [if_neg hs, if_neg heq]
    exact ⟨hrep, rfl, rfl, rfl⟩

/-- Only the pointers and the memory count. -/
theorem Represents.of_eq {s' : BufferState} (h : Represents base mem₀ s b) (hb : s'.b = s.b)
    (hmem : s'.mem = s.mem) : Represents base mem₀ s' b :=
  ⟨hb ▸ h.data, hb ▸ h.limit, hb ▸ h.read, hb ▸ h.write, hmem ▸ h.bytes, hmem ▸ h.around⟩

/-- `buffer_read` hands out the byte behind the pointer and writes nothing. -/
theorem Represents.takeByte (h : Represents base mem₀ s b) (hn : 1 ≤ b.write - b.read) :
    ∃ s', s.read = some s' ∧ Represents base mem₀ s' (bufferReadAdv b 1 hn) ∧
      s'.moves = s.moves ∧ s'.mem = s.mem ∧ s'.out = s.out ++ [bufferPeek b 0] := by
  have hcan : s.canRead = true := by
    rw [h.canRead]
    exact decide_eq_true (by omega)
  have hbyte : s.mem s.b.read = bufferPeek b 0 := by
    rw [bufferPeek, h.bytes, h.read, Nat.add_zero]
  obtain ⟨s', hs', hrep, hmoves, hmem, hout⟩ := h.readAdv hn
  unfold BufferState.read
  rw [if_pos hcan]
  dsimp only
  rw [show (1 : ℤ) = ((1 : ℕ) : ℤ) from rfl, hs', Option.map_some]
  refine ⟨_, rfl, hrep.of_eq rfl rfl, hmoves, hmem, ?_⟩
  rw [hout, hbyte]

theorem Represents.put (h : Represents base mem₀ s b) (hbs : bs.length ≤ bufferWritePtr b) :
    ∃ s', ({ s with mem := store s.mem s.b.write bs } : BufferState).writeAdv bs.length = some s' ∧
      Represents base mem₀ s' (bufferPut b bs hbs) ∧ s'.moves = s.moves ∧ s'.out = s.out := by
  have hw := b.write_le_limit
  have hle : s.b.write + bs.length ≤ s.b.limit := by
    unfold bufferWritePtr at hbs
    rw [h.write, h.limit]
    omega
  unfold BufferState.writeAdv
  rw [if_pos (by omega), Int.toNat_natCast]
  dsimp only
  rw [if_pos hle]
  refine ⟨_, rfl, ⟨h.data, h.limit, h.read, ?_, ?_, ?_⟩, rfl, rfl⟩
  · dsimp only
    rw [h.write, bufferPut_write, Nat.add_assoc]
  · change store b.data b.write bs = fun i => store s.mem s.b.write bs (base + i)
    rw [h.write, store_from, h.bytes]
  · intro a ha
    rw [bufferPut_limit] at ha
    dsimp only
    rw [store_outside, h.around a ha]
    rw [h.write]
    unfold bufferWritePtr at hbs
    omega

/-! ## The queue -/

/-- A buffer that starts at its beginning whenever it is empty, as a queue. -/
def Buffer.queue (b : Buffer) (h : b.Rewound) : RowQueue UInt8 where
  cap := b.limit
  contents := bufferReadPtr b
  room := bufferWritePtr b
  fits := by
    have hr := b.read_le_write
    have hw := b.write_le_limit
    rw [bufferReadPtr_length, bufferWritePtr]
    omega
  rewound := h.free

theorem Buffer.Rewound.compact (h : b.Rewound) : (bufferCompact b).Rewound := by
  have hr := b.read_le_write
  unfold bufferCompact
  split_ifs with h0 heq
  · exact h
  · exact fun _ => rfl
  · intro hnil
    exact hnil.symm

theorem queue_put (h : b.Rewound) (hbs : bs.length ≤ bufferWritePtr b) :
    (bufferPut b bs hbs).queue (h.put hbs) = (b.queue h).put bs := by
  have hbs' : bs.length ≤ (b.queue h).room := hbs
  ext1
  · rfl
  · rw [RowQueue.put_contents hbs']
    exact bufferPut_readPtr hbs
  · change b.limit - (b.write + bs.length) = b.limit - b.write - bs.length
    omega

theorem queue_readAdv (h : b.Rewound) (hn : n ≤ b.write - b.read) :
    (bufferReadAdv b n hn).queue (bufferReadAdv_rewound hn) = (b.queue h).drop n := by
  have hr := b.read_le_write
  have hlen : (b.queue h).contents.length = b.write - b.read := bufferReadPtr_length
  ext1
  · exact bufferReadAdv_limit hn
  · exact bufferReadAdv_readPtr hn
  · by_cases heq : b.write - b.read ≤ n
    · rw [RowQueue.drop_room_of_le (by omega)]
      have hnil : bufferReadPtr (bufferReadAdv b n hn) = [] := by
        rw [bufferReadAdv_readPtr, List.drop_eq_nil_iff, bufferReadPtr_length]
        exact heq
      exact ((bufferReadAdv_rewound hn).free hnil).trans (bufferReadAdv_limit hn)
    · rw [RowQueue.drop_room_of_lt (by omega)]
      change bufferWritePtr (bufferReadAdv b n hn) = bufferWritePtr b
      unfold bufferReadAdv
      dsimp only
      rw [if_neg (by omega)]
      rfl

theorem queue_compact (h : b.Rewound) :
    (bufferCompact b).queue h.compact = (b.queue h).compact := by
  have hr := b.read_le_write
  have hw := b.write_le_limit
  ext1
  · exact bufferCompact_limit
  · exact bufferCompact_readPtr
  · change bufferWritePtr (bufferCompact b) = b.limit - (bufferReadPtr b).length
    rw [bufferReadPtr_length]
    unfold bufferWritePtr bufferCompact bufferReset
    split_ifs with h0 heq
    · rw [h0, Nat.sub_zero]
    · dsimp only
      omega
    · rfl

/-- What each operation does to the queue and to the bytes read so far. -/
def queueStep (q : RowQueue UInt8 × List UInt8) : BufferOp → RowQueue UInt8 × List UInt8
  | .write c => (q.1.put [c], q.2)
  | .read => (q.1.drop 1, q.2 ++ [q.1.contents.headD 0])
  | .compact => (q.1.compact, q.2)
  | .reset => (q.1.clear, q.2)
  | .fill bs => (q.1.put bs, q.2)
  | .readAdv n => (q.1.drop n, q.2)

/-- The state holds the queue. -/
def Queued (base : ℕ) (mem₀ : ℕ → UInt8) (s : BufferState)
    (q : RowQueue UInt8 × List UInt8) : Prop :=
  ∃ b, Represents base mem₀ s b ∧ (∃ h : b.Rewound, b.queue h = q.1) ∧ s.out = q.2

variable {q : RowQueue UInt8 × List UInt8} {op : BufferOp}

/-- `buffer_read` is `buffer_read_adv` of one byte, if there is one. -/
theorem Queued.read (h : Queued base mem₀ s q) :
    ∃ s', s.read = some s' ∧ Queued base mem₀ s' (queueStep q .read) ∧ s'.moves = s.moves := by
  obtain ⟨b, hrep, ⟨hw, hq⟩, hout⟩ := h
  have hlen : q.1.contents.length = b.write - b.read := by
    rw [← hq]
    exact bufferReadPtr_length
  by_cases hn : 1 ≤ b.write - b.read
  · obtain ⟨s', hs', hrep', hmoves, -, hout'⟩ := hrep.takeByte hn
    -- the byte behind the pointer is the first of the queue
    have hhead : bufferPeek b 0 = q.1.contents.headD 0 := by
      rw [← hq]
      change _ = (bufferReadPtr b).headD 0
      rw [bufferPeek_eq (by rw [bufferReadPtr_length]; omega), List.headD_eq_head?_getD,
        List.head?_eq_getElem?, ← List.getD_eq_getElem?_getD]
    refine ⟨s', hs', ⟨_, hrep', ⟨bufferReadAdv_rewound hn, ?_⟩, ?_⟩, hmoves⟩
    · rw [queue_readAdv hw, hq]
      rfl
    · dsimp only [queueStep]
      rw [hout', hout, hhead]
  · have hcan : ¬ s.canRead = true := by
      rw [hrep.canRead, bufferCanRead, decide_eq_true_eq]
      omega
    unfold BufferState.read
    rw [if_neg hcan]
    have hnil : q.1.contents = [] := List.eq_nil_of_length_eq_zero (by omega)
    refine ⟨_, rfl, ⟨b, hrep.of_eq rfl rfl, ⟨hw, ?_⟩, ?_⟩, rfl⟩
    · -- an empty queue stays as it is
      rw [hq]
      ext1
      · rfl
      · dsimp only [queueStep]
        rw [RowQueue.drop_contents, hnil, List.drop_nil]
      · dsimp only [queueStep]
        rw [RowQueue.drop_room_of_le (by rw [hnil]; simp), q.1.rewound hnil]
    · dsimp only [queueStep]
      rw [hout, hnil, List.headD_nil]

theorem Queued.fill (h : Queued base mem₀ s q) (hbs : bs.length ≤ q.1.room) :
    ∃ s', ({ s with mem := store s.mem s.b.write bs } : BufferState).writeAdv bs.length = some s' ∧
      Queued base mem₀ s' (queueStep q (.fill bs)) ∧ s'.moves = s.moves := by
  obtain ⟨b, hrep, ⟨hw, hq⟩, hout⟩ := h
  have hbs' : bs.length ≤ bufferWritePtr b := by
    rw [← hq] at hbs
    exact hbs
  obtain ⟨s', hs', hrep', hmoves, hout'⟩ := hrep.put hbs'
  refine ⟨s', hs', ⟨_, hrep', ⟨hw.put hbs', ?_⟩, hout'.trans hout⟩, hmoves⟩
  rw [queue_put hw, hq]
  rfl

theorem Queued.write (h : Queued base mem₀ s q) (c : UInt8) :
    ∃ s', s.write c = some s' ∧ Queued base mem₀ s' (queueStep q (.write c)) ∧
    s'.moves = s.moves := by
  have hcan : s.canWrite = decide (0 < q.1.room) := by
    obtain ⟨b, hrep, ⟨hw, hq⟩, -⟩ := h
    rw [hrep.canWrite, bufferCanWrite, ← hq, decide_eq_decide]
    change _ ↔ 0 < b.limit - b.write
    omega
  unfold BufferState.write
  rw [hcan]
  by_cases hroom : 0 < q.1.room
  · rw [if_pos (decide_eq_true hroom)]
    have hone : [c].length ≤ q.1.room := hroom
    exact h.fill hone
  · rw [if_neg (by simpa using hroom)]
    refine ⟨s, rfl, ?_, rfl⟩
    have hfull : queueStep q (.write c) = q := by
      dsimp only [queueStep]
      rw [RowQueue.put_full (by omega)]
    rw [hfull]
    exact h

/-- An operation the caller may make does not end the program, does to the queue what it
should, and calls `memmove` only when it is `buffer_compact` of a buffer that is not empty. -/
theorem Queued.step (h : Queued base mem₀ s q) (hp : s.Permits op) :
    ∃ s', s.step op = some s' ∧ Queued base mem₀ s' (queueStep q op) ∧
      (s'.moves ≠ s.moves → op = .compact ∧ s.b.read ≠ s.b.write) := by
  cases op with
  | write c =>
    obtain ⟨s', hs', hq', hmoves⟩ := h.write c
    exact ⟨s', hs', hq', fun hne => absurd hmoves hne⟩
  | read =>
    obtain ⟨s', hs', hq', hmoves⟩ := h.read
    exact ⟨s', hs', hq', fun hne => absurd hmoves hne⟩
  | compact =>
    obtain ⟨b, hrep, ⟨hw, hq⟩, hout⟩ := h
    obtain ⟨hrep', hout', hmoves⟩ := hrep.compact
    refine ⟨_, rfl, ⟨_, hrep', ⟨hw.compact, ?_⟩, hout'.trans hout⟩, fun hne => ⟨rfl, hmoves hne⟩⟩
    rw [queue_compact hw, hq]
    rfl
  | reset =>
    obtain ⟨b, hrep, ⟨hw, hq⟩, hout⟩ := h
    refine ⟨_, rfl, ⟨_, hrep.reset, ⟨fun _ => rfl, ?_⟩, hout⟩, fun hne => absurd rfl hne⟩
    dsimp only [queueStep]
    rw [← hq]
    rfl
  | fill bs =>
    obtain ⟨b, hrep, ⟨hw, hq⟩, -⟩ := id h
    have hroom : bs.length ≤ q.1.room := by
      rw [← hq]
      exact hp _ hrep.writePtr
    obtain ⟨s', hs', hq', hmoves⟩ := h.fill hroom
    refine ⟨s', ?_, hq', fun hne => absurd hmoves hne⟩
    rw [BufferState.step, hrep.writePtr]
    dsimp only [bind, Option.bind]
    rw [← hrep.write]
    exact hs'
  | readAdv n =>
    obtain ⟨b, hrep, ⟨hw, hq⟩, hout⟩ := h
    have hn : n ≤ b.write - b.read := hp _ hrep.readPtr
    obtain ⟨s', hs', hrep', hmoves, -, hout'⟩ := hrep.readAdv hn
    refine ⟨s', ?_, ⟨_, hrep', ⟨bufferReadAdv_rewound hn, ?_⟩, hout'.trans hout⟩,
      fun hne => absurd hmoves hne⟩
    · rw [BufferState.step, hrep.readPtr]
      exact hs'
    · rw [queue_readAdv hw, hq]
      rfl

/-- The pointers are in order, and between them is the queue. -/
structure Refines (base n : ℕ) (mem₀ : ℕ → UInt8) (s : BufferState)
    (q : RowQueue UInt8 × List UInt8) : Prop where
  data : s.b.data = base
  limit : s.b.limit = base + n
  data_le_read : s.b.data ≤ s.b.read
  read_le_write : s.b.read ≤ s.b.write
  write_le_limit : s.b.write ≤ s.b.limit
  cap : q.1.cap = n
  contents : slice s.mem s.b.read (s.b.write - s.b.read) = q.1.contents
  room : s.b.limit - s.b.write = q.1.room
  out : s.out = q.2
  /-- All of it can be written again once it has run empty. -/
  emptied : s.b.read = s.b.write → s.b.limit - s.b.write = n
  around : ∀ a, a < base ∨ base + n ≤ a → s.mem a = mem₀ a

theorem Queued.refines (h : Queued base mem₀ s q) (hcap : q.1.cap = n) :
    Refines base n mem₀ s q := by
  obtain ⟨b, hrep, ⟨hw, hq⟩, hout⟩ := h
  have hlimit : b.limit = n := by
    rw [← hcap, ← hq]
    rfl
  have hr := b.read_le_write
  have hwl := b.write_le_limit
  have hread := hrep.read
  have hwrite := hrep.write
  have hlim := hrep.limit
  have hdata := hrep.data
  refine ⟨hdata, by omega, by omega, by omega, by omega, hcap, ?_, ?_, hout, ?_, ?_⟩
  · rw [← hq]
    change _ = slice b.data b.read (b.write - b.read)
    rw [hrep.bytes, slice_from, hread, hwrite, Nat.add_sub_add_left]
  · rw [← hq]
    change _ = b.limit - b.write
    omega
  · intro heq
    have h0 := hw (by omega)
    omega
  · rw [← hlimit]
    exact hrep.around

theorem queueStep_cap : (queueStep q op).1.cap = q.1.cap := by
  cases op <;> rfl

/-- For every size and all operations a caller may make: no assertion fails, the pointers keep
their order, and the bytes between them are those of the queue. -/
theorem buffer_refines_queue (n base : ℕ) (mem : ℕ → UInt8) (ops : List BufferOp)
    (hops : Along (fun o op => o.bind fun s => BufferState.step s op)
      (fun o op => ∀ s ∈ o, s.Permits op)
      (some (.init n base mem)) ops) :
    ∃ s, exec (fun o op => o.bind fun s => BufferState.step s op) (some (.init n base mem)) ops
        = some s ∧
      Refines base n mem s (exec queueStep (.empty n, []) ops) ∧
      ∀ op, s.Permits op → ∃ s', s.step op = some s' ∧
        (s'.moves ≠ s.moves → op = .compact ∧ s.b.read ≠ s.b.write) := by
  -- from any state that holds a queue
  have hrun : ∀ s q, Queued base mem s q →
      Along (fun o op => o.bind fun s => BufferState.step s op) (fun o op => ∀ s ∈ o, s.Permits op)
        (some s) ops →
      ∃ s', exec (fun o op => o.bind fun s => BufferState.step s op) (some s) ops = some s' ∧
        Queued base mem s' (exec queueStep q ops) := by
    clear hops
    induction ops with
    | nil => exact fun s q h _ => ⟨s, rfl, h⟩
    | cons op ops ih =>
      intro s q h hops
      obtain ⟨s', hs', h', -⟩ := h.step (hops.1 s rfl)
      have hrest := hops.2
      simp only [Option.bind_some] at hrest
      rw [hs'] at hrest
      rw [exec_cons, exec_cons, Option.bind_some, hs']
      exact ih s' _ h' hrest
  have hinit : Queued base mem (.init n base mem) (.empty n, []) :=
    ⟨_, represents_init n base mem, ⟨fun _ => rfl, rfl⟩, rfl⟩
  obtain ⟨s, hs, hq⟩ := hrun _ _ hinit hops
  have hcap : (exec queueStep (.empty n, []) ops).1.cap = n :=
    exec_invariant (P := fun q : RowQueue UInt8 × List UInt8 => q.1.cap = n) rfl fun q op h =>
      queueStep_cap.trans h
  refine ⟨s, hs, hq.refines hcap, fun op hp => ?_⟩
  obtain ⟨s', hs', -, hmoves⟩ := hq.step hp
  exact ⟨s', hs', hmoves⟩

theorem buffer_of_four_refines_queue :
    ∃ s, exec (fun o op => o.bind fun s => BufferState.step s op) (some (.init 4 100 fun _ => 0))
        [.fill [1, 2, 3], .read, .write 4, .write 5, .readAdv 1, .compact, .fill [6]] = some s ∧
      Refines 100 4 (fun _ => 0) s (exec queueStep (.empty 4, [])
        [.fill [1, 2, 3], .read, .write 4, .write 5, .readAdv 1, .compact, .fill [6]]) := by
  obtain ⟨s, hs, h, -⟩ := buffer_refines_queue 4 100 (fun _ => 0)
    [.fill [1, 2, 3], .read, .write 4, .write 5, .readAdv 1, .compact, .fill [6]]
      (by decide +kernel)
  exact ⟨s, hs, h⟩

/-- The byte 5 was dropped: the buffer was full, although it held three bytes only. -/
example : (exec queueStep (.empty 4, [])
    [.fill [1, 2, 3], .read, .write 4, .write 5, .readAdv 1, .compact, .fill [6]]).1.contents =
      [3, 4, 6] := by
  decide

end Socks5d
