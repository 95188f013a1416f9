import Socks5d.Mgmt

/-! # The destination in the log

`log_access_info` and `log_sniffer_info` copy a domain name with `strncpy` and add the port
with `strncat`. A name of 255 bytes is copied without a zero behind it. -/

namespace Socks5d

/-! ## The C library

An array is the list of its bytes. A function that reads or writes behind the end of one fails. -/

def strncpy (dst src : List UInt8) (n : ℕ) : Option (List UInt8) :=
  let text := (cString src).take n
  if n ≤ dst.length ∧ (0 ∈ src ∨ n ≤ src.length) then
    some (text ++ List.replicate (n - text.length) 0 ++ dst.drop n)
  else none

/-- The end of the string in `dst` is looked for in the array only. -/
def strncat (dst src : List UInt8) (n : ℕ) : Option (List UInt8) :=
  let text := (cString src).take n
  let size := (cString dst).length + text.length
  if 0 ∈ dst ∧ (0 ∈ src ∨ n ≤ src.length) ∧ size < dst.length then
    some (cString dst ++ text ++ 0 :: dst.drop (size + 1))
  else none

/-- `snprintf` of a text without zeros. -/
def snprintfTo (dst : List UInt8) (n : ℕ) (text : List UInt8) : Option (List UInt8) :=
  let shown := text.take (n - 1)
  if 0 < n ∧ shown.length < dst.length then some (shown ++ 0 :: dst.drop (shown.length + 1))
  else none

def htons (n : ℕ) : ℕ := n % 256 * 256 + n / 256 % 256

/-- `*(uint16_t*)` of the two bytes of a port -/
def destPortValue (port : Port) : ℕ := port.1.toNat + 256 * port.2.toNat

/-! ## The text -/

/-- What both functions build in `origin_addr_buf` for a client with `ATYP_DOMAIN_NAME`.
There is a zero behind the name at `dest_fqdn`; the two arrays come as they are on the stack. -/
def logDestination (originAddrBuf portBuf destFqdn : List UInt8) (destPort : ℕ) :
    Option (List UInt8) :=
  (strncpy originAddrBuf (destFqdn ++ [0]) 255).bind fun originAddrBuf =>
    (snprintfTo portBuf 7 (asc ":" ++ decimal (htons destPort))).bind fun portBuf =>
      strncat originAddrBuf portBuf 6

/-- A name that a request can carry. -/
structure DomainName where
  bytes : List UInt8
  length_le : bytes.length ≤ 255
  no_zero : 0 ∉ bytes

/-- A colon and the port. -/
def portText (port : Port) : List UInt8 := asc ":" ++ decimal (ntohs port)

def destinationText (name : DomainName) (port : Port) : List UInt8 := name.bytes ++ portText port

/-! ## Proofs -/

variable {dst text : List UInt8} {n : ℕ}

theorem htons_destPortValue (port : Port) : htons (destPortValue port) = ntohs port := by
  have hhigh := port.1.toNat_lt
  have hlow := port.2.toNat_lt
  unfold htons destPortValue ntohs
  omega

/-- The port with its colon fits in `port_buf`. -/
theorem portText_length (port : Port) : (portText port).length ≤ 6 := by
  have hhigh := port.1.toNat_lt
  have hlow := port.2.toNat_lt
  have hdigits := decimal_length_le (n := ntohs port) (k := 5) (by decide) (by unfold ntohs; omega)
  rw [portText, List.length_append]
  exact Nat.add_le_add_left hdigits 1

theorem portText_no_zero (port : Port) : 0 ∉ portText port := by
  rw [portText, List.mem_append]
  exact not_or.mpr ⟨by decide, decimal_no_zero _⟩

theorem strncpy_fqdn (name : DomainName) (hdst : 255 ≤ dst.length) :
    strncpy dst (name.bytes ++ [0]) 255 =
    some (name.bytes ++ List.replicate (255 - name.bytes.length) 0 ++ dst.drop 255) := by
  have htext : (cString (name.bytes ++ [0])).take 255 = name.bytes := by
    rw [cString_zero name.no_zero, List.take_of_length_le name.length_le]
  unfold strncpy
  dsimp only
  rw [htext, if_pos ⟨hdst, .inl (List.mem_append_right _ List.mem_cons_self)⟩]

theorem snprintfTo_fits (hlt : text.length < n) (hdst : text.length < dst.length) :
    snprintfTo dst n text = some (text ++ 0 :: dst.drop (text.length + 1)) := by
  unfold snprintfTo
  dsimp only
  rw [List.take_of_length_le (by omega), if_pos ⟨by omega, hdst⟩]

/-- A text without zeros is added in full. -/
theorem strncat_text (hlen : text.length ≤ n) (hzero : 0 ∉ text) (rest : List UInt8) :
    strncat dst (text ++ 0 :: rest) n =
      if 0 ∈ dst ∧ (cString dst).length + text.length < dst.length then
        some (cString dst ++ text ++ 0 :: dst.drop ((cString dst).length + text.length + 1))
      else none := by
  have htext : (cString (text ++ 0 :: rest)).take n = text := by
    rw [cString_zero hzero, List.take_of_length_le hlen]
  have hmem : 0 ∈ text ++ 0 :: rest := List.mem_append_right _ List.mem_cons_self
  unfold strncat
  dsimp only
  rw [htext]
  simp only [hmem, true_or, true_and]

variable {name : DomainName} {array : Vector UInt8 262}

/-- `origin_addr_buf` after `strncpy`. -/
def copiedName (name : DomainName) (array : Vector UInt8 262) : List UInt8 :=
  name.bytes ++ List.replicate (255 - name.bytes.length) 0 ++ array.toList.drop 255

theorem copiedName_length : (copiedName name array).length = 262 := by
  have hle := name.length_le
  simp only [copiedName, List.length_append, List.length_replicate, List.length_drop,
    Vector.length_toList]
  omega

/-- The byte behind the name is a zero, unless it is the array's own. -/
theorem copiedName_eq (name : DomainName) (array : Vector UInt8 262) :
    ∃ b rest, copiedName name array = name.bytes ++ b :: rest ∧
    (b = 0 ↔ name.bytes.length < 255 ∨ array[255] = 0) := by
  by_cases hlt : name.bytes.length < 255
  · obtain ⟨k, hk⟩ := Nat.exists_eq_add_of_lt hlt
    refine ⟨0, List.replicate k 0 ++ array.toList.drop 255, ?_, iff_of_true rfl (.inl hlt)⟩
    have hpad : 255 - name.bytes.length = k + 1 := by omega
    rw [copiedName, hpad, List.replicate_succ]
    simp
  · have hfull : 255 - name.bytes.length = 0 := by omega
    refine ⟨array[255], array.toList.drop 256, ?_, ?_⟩
    · rw [copiedName, hfull, List.drop_eq_getElem_cons (by simp)]
      simp
    · simp only [hlt, false_or]

theorem logDestination_eq (portBuf : Vector UInt8 7) (port : Port) :
    logDestination array.toList portBuf.toList name.bytes (destPortValue port) =
      let copied := copiedName name array
      let size := (cString copied).length + (portText port).length
      if 0 ∈ copied ∧ size < copied.length then
        some (cString copied ++ portText port ++ 0 :: copied.drop (size + 1))
      else none := by
  have hlen := portText_length port
  have hsnprintf : snprintfTo portBuf.toList 7 (portText port) =
      some (portText port ++ 0 :: portBuf.toList.drop ((portText port).length + 1)) :=
    snprintfTo_fits (by omega) (by rw [Vector.length_toList]; omega)
  unfold logDestination
  rw [strncpy_fqdn name (by simp), htons_destPortValue, Option.bind_some, ← portText, hsnprintf,
    Option.bind_some, strncat_text hlen (portText_no_zero port)]
  rfl

/-- The text is exact if and only if the name is shorter than 255 bytes, or the array happens
to hold a zero behind it. -/
theorem logged_destination_exact_iff (array : Vector UInt8 262) (portBuf : Vector UInt8 7)
    (name : DomainName) (port : Port) :
    (∃ rest, logDestination array.toList portBuf.toList name.bytes (destPortValue port) =
      some (destinationText name port ++ 0 :: rest)) ↔
      name.bytes.length < 255 ∨ array[255] = 0 := by
  have hlen := portText_length port
  have hname := name.length_le
  obtain ⟨b, rest, heq, hb⟩ := copiedName_eq name array
  rw [logDestination_eq, ← hb]
  dsimp only
  constructor
  · rintro ⟨rest', hsome⟩
    split_ifs at hsome
    -- both texts end at their first zero
    have hcut := congrArg cString (Option.some.inj hsome)
    rw [cString_append_zero, destinationText, cString_append_zero,
      cString_append (cString_no_zero _), cString_append name.no_zero] at hcut
    have hcopied : cString (copiedName name array) = name.bytes := List.append_cancel_right hcut
    by_contra hne
    rw [heq, cString_append name.no_zero, cString,
      List.takeWhile_cons_of_pos (by simpa using hne)] at hcopied
    exact absurd (List.append_right_eq_self.mp hcopied) (List.cons_ne_nil _ _)
  · intro hzero
    have hcopied : cString (copiedName name array) = name.bytes := by
      rw [heq, hzero]
      exact cString_zero name.no_zero
    have hmem : 0 ∈ copiedName name array := by
      rw [heq, hzero]
      exact List.mem_append_right _ List.mem_cons_self
    rw [hcopied, if_pos ⟨hmem, by rw [copiedName_length]; omega⟩]
    exact ⟨_, rfl⟩

def longestName : DomainName where
  bytes := List.replicate 255 0x61
  length_le := Nat.le_of_eq List.length_replicate
  no_zero h := absurd (List.eq_of_mem_replicate h) (by decide)

/-- On a stack of ones no end of the longest name is found in the array. -/
theorem longest_name_is_read_past_the_array :
    logDestination (Vector.replicate 262 1).toList (Vector.replicate 7 1).toList longestName.bytes
        (destPortValue (0, 80)) = none ∧
      ¬ ∃ rest,
        logDestination (Vector.replicate 262 1).toList
          (Vector.replicate 7 1).toList longestName.bytes
        (destPortValue (0, 80)) = some (destinationText longestName (0, 80) ++ 0 :: rest) := by
  have hnone :
      logDestination (Vector.replicate 262 1).toList (Vector.replicate 7 1).toList longestName.bytes
      (destPortValue (0, 80)) = none := by decide +kernel
  refine ⟨hnone, ?_⟩
  rintro ⟨rest, hsome⟩
  rw [hnone] at hsome
  cases hsome

end Socks5d
