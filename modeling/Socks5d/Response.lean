import Socks5d.Lib.Memory
import Socks5d.Listing

/-! # How the management client collects an answer: `get_response`

The result of `read` is kept in a `uint8_t`. A failure becomes 255, and a read of 256 bytes
becomes the end of the file. -/

namespace Socks5d
open EventRun Memory

variable {multiline : Bool} {len : UInt64} {r : ReadResult}

/-- The state of the loop of `get_response`. Addresses count from `buff` on, and `written`
lists those the call has written. -/
structure Collector where
  mem : ℕ → UInt8
  writePtr : ℕ
  written : List ℕ
  /-- What the call has returned, if it has. -/
  result : Option Bool

def Collector.store (st : Collector) (bs : List UInt8) : Collector :=
  { st with
    mem := Memory.store st.mem st.writePtr bs
    written := st.written ++ List.range' st.writePtr bs.length }

/-- `len - (write_ptr - buff)`, a `size_t` -/
def sizeAsked (len : UInt64) (st : Collector) : ℕ := (len - UInt64.ofNat st.writePtr).toNat

/-- What `read` stores when it is asked for `size` bytes. -/
def ReadResult.stored (size : ℕ) : ReadResult → List UInt8
  | .data bs => bs.take size
  | .again | .error => []

/-- What `read` returns. -/
def ReadResult.returned (size : ℕ) : ReadResult → ℤ
  | .data bs => (bs.take size).length
  | .again | .error => -1

/-- The body of the loop with its condition. -/
def getResponseTurn (len : UInt64) (multiline : Bool) (st : Collector) (r : ReadResult) :
    Collector :=
  if st.result.isSome then st
  else
    let size := sizeAsked len st
    let st := st.store (r.stored size)
    let bytesRead := UInt8.ofInt (r.returned size)
    if bytesRead ≤ 0 then { st with result := some false }
    else
      let st := ({ st with writePtr := st.writePtr + bytesRead.toNat }).store [0]
      -- there is a zero at `write_ptr`
      if finished (cString (slice st.mem 0 (st.writePtr + 1))) multiline
        then { st with result := some true }
      else st

def getResponse (mem : ℕ → UInt8) (len : UInt64) (multiline : Bool) (reads : List ReadResult) :
    Collector :=
  exec (getResponseTurn len multiline) ⟨mem, 0, [], none⟩ reads

/-! ## What it is for -/

/-- The bytes received, and what is to be returned for them. -/
structure Collected where
  received : List UInt8
  result : Option Bool
deriving DecidableEq

/-- The bytes contain the end of an answer. Errors are one line. -/
def Terminated (multiline : Bool) (bs : List UInt8) : Prop :=
  (if multiline ∧ bs.head? ≠ some 0x2d then eom else eol) <:+: bs

instance {bs : List UInt8} : Decidable (Terminated multiline bs) :=
  inferInstanceAs (Decidable (_ <:+: _))

def collect (multiline : Bool) (a : Collected) (r : ReadResult) : Collected :=
  if a.result.isSome then a
  else
    match r with
    | .data [] | .again | .error => { a with result := some false }
    | .data bs =>
      ⟨a.received ++ bs, if Terminated multiline (a.received ++ bs) then some true else none⟩

/-- The call has returned what it is to return, and `buff` holds the answer. -/
structure Collects (len : UInt64) (st : Collector) (a : Collected) : Prop where
  result : st.result = a.result
  holds : a.result = some true → slice st.mem 0 a.received.length = a.received
  inside : ∀ k ∈ st.written, k < len.toNat

/-- Some bytes come, fewer than 256, and one cell stays free; the end of the answer is not
behind a zero. -/
def Short (len : UInt64) (multiline : Bool) (received bs : List UInt8) : Prop :=
  bs.length < 256 ∧ received.length + bs.length < len.toNat ∧
    (Terminated multiline (received ++ bs) → Terminated multiline (cString (received ++ bs)))

/-- The reads that `get_response` takes as they are: the end of the file, and short ones. -/
def PlainRead (len : UInt64) (multiline : Bool) (a : Collected) (r : ReadResult) : Prop :=
  a.result = none → r = .data [] ∨ ∃ bs, r = .data bs ∧ Short len multiline a.received bs

/-! ## A turn -/

variable {st : Collector} {a : Collected} {bs : List UInt8}

theorem cString_isPrefix (bs : List UInt8) : cString bs <+: bs := List.takeWhile_prefix _

/-- The byte that decides whether an answer is an error is seen in the string, too. -/
theorem cString_head_minus : (cString bs).head? = some 0x2d ↔ bs.head? = some 0x2d := by
  cases bs with
  | nil => exact Iff.rfl
  | cons b bs =>
    by_cases hb : b = 0
    · subst hb
      simp [cString]
    · simp [cString, hb]

theorem finished_iff_terminated : finished bs multiline = true ↔ Terminated multiline bs := by
  unfold finished strstr Terminated
  rw [decide_eq_true_eq]
  by_cases hm : bs.head? = some 0x2d <;> cases multiline <;> simp [hm]

/-- What `finished` finds in the string was received. -/
theorem terminated_of_cString (h : Terminated multiline (cString bs)) :
    Terminated multiline bs := by
  unfold Terminated at h ⊢
  simp only [ne_eq, cString_head_minus] at h
  exact h.trans (cString_isPrefix bs).isInfix

theorem sizeAsked_eq (h : st.writePtr ≤ len.toNat) :
    sizeAsked len st = len.toNat - st.writePtr := by
  have hlt : st.writePtr < 2 ^ 64 := Nat.lt_of_le_of_lt h len.toNat_lt
  have hptr : (UInt64.ofNat st.writePtr).toNat = st.writePtr := UInt64.toNat_ofNat_of_lt' hlt
  have hle : UInt64.ofNat st.writePtr ≤ len := by rw [UInt64.le_iff_toNat_le, hptr]; exact h
  rw [sizeAsked, UInt64.toNat_sub_of_le _ _ hle, hptr]

theorem toNat_ofInt (n : ℕ) : (UInt8.ofInt n).toNat = n % 256 := by
  rw [UInt8.ofInt, UInt8.toNat_ofNat']
  omega

/-- The invariant of the loop. -/
structure InStep (len : UInt64) (st : Collector) (a : Collected) : Prop where
  result : st.result = a.result
  ptr : a.result = none → st.writePtr = a.received.length
  holds : a.result ≠ some false → slice st.mem 0 a.received.length = a.received
  inside : ∀ k ∈ st.written, k < len.toNat

theorem InStep.collects (h : InStep len st a) : Collects len st a :=
  ⟨h.result, fun ht => h.holds (by rw [ht]; decide), h.inside⟩

/-- The state after `bs` was stored and `write_ptr` moved on. -/
def Collector.advance (st : Collector) (bs : List UInt8) : Collector :=
  ({ st.store bs with writePtr := st.writePtr + bs.length % 256 }).store [0]

/-- A turn whose read does not count as none. -/
theorem getResponseTurn_data (h : st.result = none) (hsize : bs.length ≤ sizeAsked len st)
    (hcount : bs.length % 256 ≠ 0) :
    getResponseTurn len multiline st (.data bs) =
      if finished (cString (slice (st.advance bs).mem 0 ((st.advance bs).writePtr + 1)))
          multiline then
        { st.advance bs with result := some true }
      else st.advance bs := by
  have hpos : ¬ UInt8.ofInt bs.length ≤ 0 := by
    rw [UInt8.le_iff_toNat_le, toNat_ofInt]
    simpa using hcount
  unfold getResponseTurn
  dsimp only [ReadResult.stored, ReadResult.returned]
  rw [h, List.take_of_length_le hsize, if_neg (by simp), if_neg hpos, toNat_ofInt]
  rfl

/-- One that does: the end of the file, or a multiple of 256 bytes. -/
theorem getResponseTurn_zero (h : st.result = none) (hsize : bs.length ≤ sizeAsked len st)
    (hcount : bs.length % 256 = 0) :
    getResponseTurn len multiline st (.data bs) = { st.store bs with result := some false } := by
  have hzero : UInt8.ofInt bs.length ≤ 0 := by
    rw [UInt8.le_iff_toNat_le, toNat_ofInt, hcount]
    exact Nat.zero_le _
  unfold getResponseTurn
  dsimp only [ReadResult.stored, ReadResult.returned]
  rw [h, List.take_of_length_le hsize, if_neg (by simp), if_pos hzero]

@[simp] theorem Collector.store_nil : st.store [] = st := by simp [store]

/-- Fewer than 256 bytes behind those that are there already. -/
theorem Collector.advance_short {received : List UInt8} (hlt : bs.length < 256)
    (hptr : st.writePtr = received.length) (hmem : slice st.mem 0 received.length = received) :
    (st.advance bs).writePtr = (received ++ bs).length ∧
      slice (st.advance bs).mem 0 (received ++ bs).length = received ++ bs ∧
      cString (slice (st.advance bs).mem 0 ((st.advance bs).writePtr + 1)) =
        cString (received ++ bs) := by
  have hadv : (st.advance bs).writePtr = (received ++ bs).length := by
    rw [List.length_append, ← hptr]
    exact congrArg _ (Nat.mod_eq_of_lt hlt)
  have hbytes : slice (Memory.store st.mem st.writePtr bs) 0 (received ++ bs).length =
      received ++ bs := by
    have happend := slice_store_append (m := st.mem) (i := 0) (n := received.length) bs
    rw [hmem, Nat.zero_add, ← hptr] at happend
    rw [List.length_append, ← hptr]
    exact happend
  have hmem' :
      (st.advance bs).mem = Memory.store (Memory.store st.mem st.writePtr bs)
      (received ++ bs).length [0] := by
    rw [← hadv]
    rfl
  refine ⟨hadv, ?_, ?_⟩
  · rw [hmem', slice_store_below _ (Nat.le_of_eq (Nat.zero_add _)), hbytes]
  · have hzero := slice_store_append (m := Memory.store st.mem st.writePtr bs) (i := 0)
      (n := (received ++ bs).length) [0]
    rw [hbytes, Nat.zero_add] at hzero
    rw [hadv, hmem']
    exact (congrArg cString hzero).trans (cString_append_zero _ [])

theorem Collector.advance_written : (st.advance bs).written =
    st.written ++ List.range' st.writePtr bs.length ++ [st.writePtr + bs.length % 256] := rfl

theorem collect_data (h : a.result = none) (hbs : bs ≠ []) : collect multiline a (.data bs) =
    ⟨a.received ++ bs, if Terminated multiline (a.received ++ bs) then some true else none⟩ := by
  cases bs with
  | nil => exact absurd rfl hbs
  | cons b bs => rw [collect.eq_def, h]; rfl

/-- What a plain read does to the loop, it does to the bytes received. -/
theorem InStep.turn (h : InStep len st a) (hr : PlainRead len multiline a r) :
    InStep len (getResponseTurn len multiline st r) (collect multiline a r) := by
  by_cases hdone : a.result.isSome = true
  · rw [collect.eq_def, if_pos hdone, getResponseTurn, h.result, if_pos hdone]
    exact h
  have hnone : a.result = none := Option.not_isSome_iff_eq_none.mp hdone
  have hst : st.result = none := h.result.trans hnone
  have heof :
      InStep len (getResponseTurn len multiline st (.data []))
      (collect multiline a (.data [])) := by
    rw [getResponseTurn_zero hst (Nat.zero_le _) rfl, Collector.store_nil, collect.eq_def,
      if_neg hdone]
    exact ⟨rfl, fun hbad => (by cases hbad), fun hbad => absurd rfl hbad, h.inside⟩
  -- a plain read is the end of the file, or fewer than 256 bytes that fit with their zero
  rcases hr hnone with rfl | ⟨bs, rfl, hlt, hroom, hseen⟩
  · exact heof
  by_cases hbs : bs = []
  · rw [hbs]
    exact heof
  have hptr := h.ptr hnone
  have hpos : 0 < bs.length := List.length_pos_iff.mpr hbs
  have hsize : bs.length ≤ sizeAsked len st := by
    rw [sizeAsked_eq (by omega)]
    omega
  obtain ⟨hadv, hmem, hstr⟩ := Collector.advance_short hlt hptr (h.holds (by rw [hnone]; decide))
  have hinside : ∀ k ∈ (st.advance bs).written, k < len.toNat := by
    intro k hk
    rw [Collector.advance_written, List.mem_append, List.mem_append, List.mem_range'_1,
      List.mem_singleton] at hk
    rcases hk with (hk | hk) | hk
    · exact h.inside k hk
    · omega
    · rw [Nat.mod_eq_of_lt hlt] at hk
      omega
  rw [getResponseTurn_data hst hsize (by omega), collect_data hnone hbs, hstr]
  -- the loop looks at the string in the buffer, the collector at the bytes
  by_cases hterm : Terminated multiline (a.received ++ bs)
  · rw [if_pos (finished_iff_terminated.mpr (hseen hterm)), if_pos hterm]
    exact ⟨rfl, fun hbad => (by cases hbad), fun _ => hmem, hinside⟩
  · have hno : ¬ finished (cString (a.received ++ bs)) multiline = true := by
      intro hbad
      exact hterm (terminated_of_cString (finished_iff_terminated.mp hbad))
    rw [if_neg hno, if_neg hterm]
    exact ⟨hst, fun _ => hadv, fun _ => hmem, hinside⟩

theorem inStep_start (mem : ℕ → UInt8) : InStep len ⟨mem, 0, [], none⟩ ⟨[], none⟩ where
  result := rfl
  ptr _ := rfl
  holds _ := rfl
  inside _ hk := absurd hk List.not_mem_nil

theorem getResponse_inStep (mem : ℕ → UInt8) {reads : List ReadResult}
    (h : Along (collect multiline) (PlainRead len multiline) ⟨[], none⟩ reads) :
    InStep len (getResponse mem len multiline reads)
      (exec (collect multiline) ⟨[], none⟩ reads) := by
  refine exec_simulation (R := InStep len) (inStep_start mem) ?_ h
  intro st a r hr hc
  exact hc.turn hr

/-! ## The other reads -/

/-- After a failure the loop goes on, 255 bytes further, or finds the end of an older answer. -/
theorem getResponseTurn_failure (h : st.result = none) (hr : r = .again ∨ r = .error) :
    (getResponseTurn len multiline st r).result ≠ some false := by
  have hvalue : UInt8.ofInt (r.returned (sizeAsked len st)) = 255 := by
    rcases hr with rfl | rfl <;> rfl
  unfold getResponseTurn
  dsimp only
  rw [h, if_neg (by simp), hvalue, if_neg (by decide)]
  split
  · simp
  · intro hbad
    exact absurd (h.symm.trans hbad) (by simp)

/-- At most 256 bytes, and no more than were asked for. -/
def Offered (len : UInt64) (a : Collected) (r : ReadResult) : Prop :=
  ∀ bs, r = .data bs → bs.length ≤ 256 ∧ a.received.length + bs.length ≤ len.toNat

/-- A failure, 256 bytes, bytes up to the last cell, or an end of the answer behind a zero:
whatever was received before, none of these is collected. -/
theorem InStep.plain (h : InStep len st a) (hr : Offered len a r)
    (hc : Collects len (getResponseTurn len multiline st r) (collect multiline a r)) :
    PlainRead len multiline a r := by
  intro hnone
  have hst : st.result = none := h.result.trans hnone
  have hptr := h.ptr hnone
  have hresult := hc.result
  have hfail : r = .again ∨ r = .error →
      (getResponseTurn len multiline st r).result = some false := by
    intro hr
    rw [hresult]
    rcases hr with rfl | rfl
    · rw [collect.eq_def, hnone]
      rfl
    · rw [collect.eq_def, hnone]
      rfl
  cases r with
  | again => exact absurd (hfail (.inl rfl)) (getResponseTurn_failure hst (.inl rfl))
  | error => exact absurd (hfail (.inr rfl)) (getResponseTurn_failure hst (.inr rfl))
  | data bs =>
    obtain ⟨hmax, hle⟩ := hr bs rfl
    by_cases hbs : bs = []
    · exact .inl (by rw [hbs])
    have hpos : 0 < bs.length := List.length_pos_iff.mpr hbs
    have hsize : bs.length ≤ sizeAsked len st := by
      rw [sizeAsked_eq (by omega)]
      omega
    have hlt : bs.length < 256 := by
      refine Nat.lt_of_le_of_ne hmax fun hbad => ?_
      -- the bytes are taken for the end of the file
      rw [getResponseTurn_zero hst hsize (by rw [hbad]), collect_data hnone hbs] at hresult
      dsimp only at hresult
      split_ifs at hresult
      cases hresult
    have hmod : bs.length % 256 = bs.length := Nat.mod_eq_of_lt hlt
    obtain ⟨-, -, hstr⟩ := Collector.advance_short hlt hptr (h.holds (by rw [hnone]; decide))
    rw [getResponseTurn_data hst hsize (by omega), hstr] at hc
    refine .inr ⟨bs, rfl, hlt, ?_, fun hterm => ?_⟩
    · -- the zero behind the bytes is written, too
      have hzero : a.received.length + bs.length ∈ (st.advance bs).written := by
        rw [Collector.advance_written, hmod, hptr]
        exact List.mem_append_right _ List.mem_cons_self
      refine hc.inside _ ?_
      split_ifs
      · exact hzero
      · exact hzero
    · have hsome := hc.result
      rw [collect_data hnone hbs, if_pos hterm] at hsome
      by_contra hno
      rw [if_neg fun hbad => hno (finished_iff_terminated.mp hbad)] at hsome
      exact absurd (hst.symm.trans hsome) (by simp)

theorem InStep.plain_along {reads : List ReadResult} (h : InStep len st a)
    (hr : Along (collect multiline) (Offered len) a reads)
    (hc : ∀ pre, pre <+: reads →
      Collects len (exec (getResponseTurn len multiline) st pre) (exec (collect multiline) a pre)) :
    Along (collect multiline) (PlainRead len multiline) a reads := by
  induction reads generalizing st a with
  | nil => trivial
  | cons r reads ih =>
    have hplain : PlainRead len multiline a r :=
      h.plain hr.1 (hc [r] (List.prefix_append [r] reads))
    exact ⟨hplain, ih (h.turn hplain) hr.2 fun pre hpre =>
      hc (r :: pre) ((List.prefix_cons_inj r).mpr hpre)⟩

/-! ## Calls -/

/-- A call all of whose reads are plain returns what it is to return, as soon as it is to
return it, with the answer in `buff`, and writes nowhere else. Where no read is of more than
256 bytes, no other call does. -/
theorem get_response_collects (mem : ℕ → UInt8) (len : UInt64) (multiline : Bool)
    (reads : List ReadResult) :
    (Along (collect multiline) (PlainRead len multiline) ⟨[], none⟩ reads →
      Collects len (getResponse mem len multiline reads)
        (exec (collect multiline) ⟨[], none⟩ reads)) ∧
    (Along (collect multiline) (Offered len) ⟨[], none⟩ reads →
      (∀ pre, pre <+: reads →
        Collects len (getResponse mem len multiline pre)
          (exec (collect multiline) ⟨[], none⟩ pre)) →
      Along (collect multiline) (PlainRead len multiline) ⟨[], none⟩ reads) :=
  ⟨fun h => (getResponse_inStep mem h).collects, (inStep_start mem).plain_along⟩

/-- An answer in two pieces, cut inside its end. -/
theorem two_pieces_are_collected :
    Along (collect true) (PlainRead 512 true) ⟨[], none⟩ [.data (asc "+OK\r\n2048\r\n."),
      .data eol] ∧
      Collects 512 (getResponse (fun _ => 0) 512 true [.data (asc "+OK\r\n2048\r\n."), .data eol])
        ⟨asc "+OK\r\n2048\r\n.\r\n", some true⟩ := by
  have hplain : Along (collect true) (PlainRead 512 true) ⟨[], none⟩
      [.data (asc "+OK\r\n2048\r\n."), .data eol] := by
    refine ⟨fun _ => .inr ⟨_, rfl, ?_⟩, fun _ => .inr ⟨_, rfl, ?_⟩, trivial⟩
    · unfold Short
      decide +kernel
    · unfold Short
      decide +kernel
  have hanswer : exec (collect true) ⟨[], none⟩ [.data (asc "+OK\r\n2048\r\n."), .data eol] =
      ⟨asc "+OK\r\n2048\r\n.\r\n", some true⟩ := by decide +kernel
  refine ⟨hplain, ?_⟩
  rw [← hanswer]
  exact (get_response_collects (fun _ => 0) 512 true _).1 hplain

/-- A line of 256 bytes that comes at once is taken for a failure. -/
theorem line_of_256_bytes_is_lost :
    let line := List.replicate 254 0x61 ++ eol
    line.length ≤ sizeAsked 512 ⟨fun _ => 0, 0, [], none⟩ ∧
      (getResponse (fun _ => 0) 512 false [.data line]).result = some false ∧
      exec (collect false) ⟨[], none⟩ [.data line] = ⟨line, some true⟩ ∧
      ¬ Collects 512 (getResponse (fun _ => 0) 512 false [.data line])
        (exec (collect false) ⟨[], none⟩ [.data line]) := by
  intro line
  have hcode : (getResponse (fun _ => 0) 512 false [.data line]).result = some false := by
    decide +kernel
  have hanswer : exec (collect false) ⟨[], none⟩ [.data line] = ⟨line, some true⟩ := by
    decide +kernel
  refine ⟨by decide +kernel, hcode, hanswer, fun hc => ?_⟩
  have hresult := hc.result
  rw [hcode, hanswer] at hresult
  cases hresult

end Socks5d
