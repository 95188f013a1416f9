import Socks5d.Lib.Memory

/-! # The byte buffer of `buffer.c`

Pointers are offsets from `data`. The documented invariant `R ≤ W ≤ limit` is
carried by the structure, so each assertion of the source is a precondition that
its call sites discharge. -/

namespace Socks5d
open Memory

structure Buffer where
  data : ℕ → UInt8
  limit : ℕ
  read : ℕ
  write : ℕ
  read_le_write : read ≤ write
  write_le_limit : write ≤ limit

/-- `raw` is what the allocated memory happens to hold. -/
def bufferInit (n : ℕ) (raw : ℕ → UInt8) : Buffer := ⟨raw, n, 0, 0, Nat.le_refl _, Nat.zero_le _⟩

def bufferReset (b : Buffer) : Buffer :=
  { b with read := 0, write := 0, read_le_write := Nat.le_refl _, write_le_limit := Nat.zero_le _ }

def bufferCanWrite (b : Buffer) : Bool := b.write < b.limit

/-- The count `buffer_write_ptr` stores in `*nbyte`; the pointer is `b.write`. -/
def bufferWritePtr (b : Buffer) : ℕ := b.limit - b.write

def bufferCanRead (b : Buffer) : Bool := b.read < b.write

/-- The bytes from the pointer `buffer_read_ptr` returns, `*nbyte` of them. -/
def bufferReadPtr (b : Buffer) : List UInt8 := slice b.data b.read (b.write - b.read)

/-- `readBuffer[i]`, also past the received bytes, where it is stale memory. -/
def bufferPeek (b : Buffer) (i : ℕ) : UInt8 := b.data (b.read + i)

def bufferWriteAdv (b : Buffer) (n : ℕ) (h : n ≤ bufferWritePtr b) : Buffer :=
  { b with
    write := b.write + n
    read_le_write := Nat.le_add_right_of_le b.read_le_write
    write_le_limit := by have := b.write_le_limit; unfold bufferWritePtr at h; omega }

def bufferCompact (b : Buffer) : Buffer :=
  if b.read = 0 then b
  else if b.read = b.write then bufferReset b
  else
    { b with
      data := move b.data 0 b.read (b.write - b.read)
      read := 0
      write := b.write - b.read
      read_le_write := Nat.zero_le _
      write_le_limit := Nat.le_trans (Nat.sub_le _ _) b.write_le_limit }

def bufferReadAdv (b : Buffer) (n : ℕ) (h : n ≤ b.write - b.read) : Buffer :=
  let b' : Buffer := { b with
    read := b.read + n
    read_le_write := by have := b.read_le_write; omega }
  if b'.read = b'.write then bufferCompact b' else b'

/-- `memcpy` to the write pointer followed by `buffer_write_adv`. -/
def bufferPut (b : Buffer) (bs : List UInt8) (h : bs.length ≤ bufferWritePtr b) : Buffer :=
  bufferWriteAdv { b with data := store b.data b.write bs } bs.length h

def bufferRead (b : Buffer) : UInt8 × Buffer :=
  if h : bufferCanRead b then
    (b.data b.read, bufferReadAdv b 1 (by simp only [bufferCanRead, decide_eq_true_eq] at h; omega))
  else (0, b)

def bufferWrite (b : Buffer) (c : UInt8) : Buffer :=
  if h : bufferCanWrite b then
    bufferPut b [c] (by
      simp only [bufferCanWrite, decide_eq_true_eq] at h
      simp only [List.length_singleton, bufferWritePtr]
      omega)
  else b

/-! ## The buffer as a queue -/

variable {b : Buffer} {bs : List UInt8} {n : ℕ}

@[simp] theorem bufferReadPtr_length : (bufferReadPtr b).length = b.write - b.read := by
  simp [bufferReadPtr]

theorem bufferCanRead_iff : bufferCanRead b = true ↔ bufferReadPtr b ≠ [] := by
  rw [← List.length_pos_iff, bufferReadPtr_length]
  simp only [bufferCanRead, decide_eq_true_eq]
  omega

theorem bufferPeek_eq {i : ℕ} (h : i < (bufferReadPtr b).length) :
    bufferPeek b i = (bufferReadPtr b).getD i 0 := by
  rw [bufferReadPtr_length] at h
  rw [bufferReadPtr, slice_getD h, bufferPeek]

@[simp] theorem bufferReadPtr_init (raw : ℕ → UInt8) : bufferReadPtr (bufferInit n raw) = [] := rfl

@[simp] theorem bufferCompact_limit : (bufferCompact b).limit = b.limit := by
  unfold bufferCompact
  split_ifs <;> rfl

theorem bufferCompact_write_le : (bufferCompact b).write ≤ b.write := by
  unfold bufferCompact bufferReset
  split_ifs <;> simp

@[simp] theorem bufferCompact_readPtr : bufferReadPtr (bufferCompact b) = bufferReadPtr b := by
  unfold bufferCompact
  split_ifs with h0 h
  · rfl
  · simp [bufferReset, bufferReadPtr, h]
  · exact slice_move (Nat.le_refl _)

@[simp] theorem bufferReadAdv_limit (h : n ≤ b.write - b.read) :
    (bufferReadAdv b n h).limit = b.limit := by
  unfold bufferReadAdv
  dsimp only
  split_ifs <;> simp

theorem bufferReadAdv_write_le (h : n ≤ b.write - b.read) :
    (bufferReadAdv b n h).write ≤ b.write := by
  unfold bufferReadAdv
  dsimp only
  split_ifs
  · exact bufferCompact_write_le
  · exact Nat.le_refl _

/-- Only a buffer that is emptied is compacted, and then no memory moves. -/
@[simp] theorem bufferReadAdv_data (h : n ≤ b.write - b.read) :
    (bufferReadAdv b n h).data = b.data := by
  unfold bufferReadAdv bufferCompact bufferReset
  dsimp only
  split_ifs <;> rfl

@[simp] theorem bufferReadAdv_readPtr (h : n ≤ b.write - b.read) :
    bufferReadPtr (bufferReadAdv b n h) = (bufferReadPtr b).drop n := by
  have hb : slice b.data (b.read + n) (b.write - (b.read + n)) = (bufferReadPtr b).drop n := by
    rw [bufferReadPtr, slice_drop, Nat.sub_add_eq]
  unfold bufferReadAdv
  dsimp only
  split_ifs
  · rw [bufferCompact_readPtr]
    exact hb
  · exact hb

@[simp] theorem bufferPut_limit (h : bs.length ≤ bufferWritePtr b) :
    (bufferPut b bs h).limit = b.limit := rfl

@[simp] theorem bufferPut_write (h : bs.length ≤ bufferWritePtr b) :
    (bufferPut b bs h).write = b.write + bs.length := rfl

@[simp] theorem bufferPut_readPtr (h : bs.length ≤ bufferWritePtr b) :
    bufferReadPtr (bufferPut b bs h) = bufferReadPtr b ++ bs := by
  have hr := b.read_le_write
  have hs : b.read + (b.write - b.read) = b.write := by omega
  have hn : b.write + bs.length - b.read = b.write - b.read + bs.length := by omega
  change slice (store b.data b.write bs) b.read (b.write + bs.length - b.read) = _
  rw [hn]
  simpa only [hs, bufferReadPtr] using
    slice_store_append (m := b.data) (i := b.read) (n := b.write - b.read) bs

@[simp] theorem bufferWrite_limit (c : UInt8) : (bufferWrite b c).limit = b.limit := by
  unfold bufferWrite
  split_ifs <;> rfl

/-- `buffer_write` appends, or drops the byte when the buffer is full. -/
theorem bufferWrite_readPtr (c : UInt8) :
    bufferReadPtr (bufferWrite b c) =
      if bufferCanWrite b then bufferReadPtr b ++ [c] else bufferReadPtr b := by
  unfold bufferWrite
  split_ifs with h
  · exact bufferPut_readPtr _
  · rfl

theorem bufferWrite_write (c : UInt8) :
    (bufferWrite b c).write = if bufferCanWrite b then b.write + 1 else b.write := by
  unfold bufferWrite
  split_ifs <;> rfl

/-- An empty buffer starts at its beginning. -/
def Buffer.Rewound (b : Buffer) : Prop := b.read = b.write → b.write = 0

theorem Buffer.Rewound.put (h : b.Rewound) (hbs : bs.length ≤ bufferWritePtr b) :
    (bufferPut b bs hbs).Rewound := by
  intro heq
  have hle := b.read_le_write
  have hread : (bufferPut b bs hbs).read = b.read := rfl
  rw [bufferPut_write] at heq ⊢
  have h0 := h (by omega)
  omega

theorem bufferReadAdv_rewound (hn : n ≤ b.write - b.read) : (bufferReadAdv b n hn).Rewound := by
  unfold Buffer.Rewound bufferReadAdv bufferCompact bufferReset
  dsimp only
  split_ifs with hw h0
  · intro _
    exact (show b.read + n = b.write from hw) ▸ h0
  · intro _
    rfl
  · exact fun heq => absurd heq hw

/-- All of it is free then. -/
theorem Buffer.Rewound.free (h : b.Rewound) (hnil : bufferReadPtr b = []) :
    bufferWritePtr b = b.limit := by
  have hlen := congrArg List.length hnil
  rw [bufferReadPtr_length, List.length_nil] at hlen
  have hle := b.read_le_write
  have h0 := h (by omega)
  unfold bufferWritePtr
  omega

end Socks5d
