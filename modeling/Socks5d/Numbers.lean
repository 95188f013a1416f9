import Mathlib.Data.List.Induction
import Mathlib.Data.List.TakeWhile
import Mathlib.Data.Nat.Digits.Defs
import Socks5d.Requests

/-! # The number behind `SET-BUFFSIZE` -/

namespace Socks5d
open Memory Scanner EventRun

/-! ## Values -/

/-- The number that a string of digits is written for, the last digit counting least. -/
def decimalValue (d : List UInt8) : ℕ := Nat.ofDigits 10 (d.reverse.map fun c => c.toNat - 0x30)

section
variable {d : List UInt8}

theorem digitsValue_eq (h : ∀ c ∈ d, isNumarg c = true) : digitsValue d = decimalValue d := by
  rw [digitsValue, List.takeWhile_eq_self_iff.mpr h]
  clear h
  induction d using List.reverseRecOn with
  | nil => rfl
  | append_singleton d c ih =>
    rw [List.foldl_append, ih, decimalValue, decimalValue, List.reverse_append,
      List.reverse_singleton, List.singleton_append, List.map_cons, Nat.ofDigits_cons]
    exact Nat.add_comm _ _

/-- A string of digits has no sign, and nothing before it. -/
theorem strtol_eq (hne : d ≠ []) (h : ∀ c ∈ d, isNumarg c = true) :
    strtol d = min (decimalValue d : ℤ) (2 ^ 63 - 1) := by
  obtain ⟨c, d, rfl⟩ := List.exists_cons_of_ne_nil hne
  have hc := h c List.mem_cons_self
  have hother : ∀ b, isNumarg b = false → c ≠ b := by
    rintro b hb rfl
    rw [hc] at hb
    cases hb
  have hspace : isspace c = false := by
    simp only [isNumarg, isspace, Bool.and_eq_true, Bool.or_eq_false_iff, Bool.and_eq_false_iff,
      decide_eq_true_eq, decide_eq_false_iff_not, UInt8.le_iff_toNat_le, ← UInt8.toNat_inj] at hc ⊢
    change 48 ≤ c.toNat ∧ c.toNat ≤ 57 at hc
    change ¬ c.toNat = 32 ∧ (¬ 9 ≤ c.toNat ∨ ¬ c.toNat ≤ 13)
    omega
  rw [← digitsValue_eq h, strtol, List.dropWhile_cons_of_neg (by simp [hspace])]
  split
  · rename_i heq
    exact absurd (List.cons.inj heq).1 (hother _ (by decide))
  · rename_i heq
    exact absurd (List.cons.inj heq).1 (hother _ (by decide))
  · rfl

end

/-- The values that the server takes for a size. -/
def Fitting (n : ℕ) : Prop := 512 < n ∧ n < 10241

instance (n : ℕ) : Decidable (Fitting n) := inferInstanceAs (Decidable (_ ∧ _))

/-- The numbers that lose their upper half and are a size without it. -/
def Wraps (n : ℕ) : Prop := 2 ^ 32 ≤ n ∧ n < 2 ^ 63 ∧ Fitting (n % 2 ^ 32)

/-- Only the lower half of a number is looked at, and none of what is saturated fits. -/
theorem sizeT_bmod (m : ℕ) :
    (Fitting (sizeT ((m : ℤ).bmod (2 ^ 32))) ↔ Fitting (m % 2 ^ 32)) ∧
      (Fitting (m % 2 ^ 32) → sizeT ((m : ℤ).bmod (2 ^ 32)) = m % 2 ^ 32) := by
  unfold sizeT Fitting
  rw [Int.bmod_def]
  push_cast
  split_ifs with hsmall
  · omega
  · omega

theorem sizeT_atoi {d : List UInt8} (hne : d ≠ []) (h : ∀ c ∈ d, isNumarg c = true) :
    (Fitting (sizeT (atoi d)) ↔ Fitting (decimalValue d) ∨ Wraps (decimalValue d)) ∧
      (Fitting (decimalValue d) → sizeT (atoi d) = decimalValue d) := by
  generalize hv : decimalValue d = v
  have hm : strtol d = ((min v (2 ^ 63 - 1) : ℕ) : ℤ) := by
    rw [strtol_eq hne h, hv]
    push_cast
    rfl
  obtain ⟨hfit, heq⟩ := sizeT_bmod (min v (2 ^ 63 - 1))
  rw [atoi, hm, hfit]
  refine ⟨?_, fun hv' => ?_⟩
  · unfold Wraps Fitting
    omega
  · rw [heq]
    · unfold Fitting at hv'
      omega
    · unfold Fitting at hv' ⊢
      omega

/-! ## The command -/

theorem executeSetBuffsize_eq {args arge : ℕ} {s : Session} {d : List UInt8}
    (h : (executeSetBuffsize args arge s).arg = some d) :
    let r := executeSetBuffsize args arge s
    (r.response, r.s.server.w.buffsize) = if Fitting (sizeT (atoi d)) then
      (setBuffsizeText, sizeT (atoi d)) else (setBuffsizeError, s.server.w.buffsize) := by
  have hd : (s.terminate arge).c.input.argText args = d := by
    unfold executeSetBuffsize at h
    dsimp only at h
    split_ifs at h
    · exact Option.some.inj h
    · exact Option.some.inj h
  intro r
  have hr : r = executeSetBuffsize args arge s := rfl
  unfold executeSetBuffsize at hr
  dsimp only at hr
  rw [hd] at hr
  have htext : setBuffsizeText.take (mgmtBuffsize - 1) = setBuffsizeText := by decide +kernel
  have herror : setBuffsizeError.take (mgmtBuffsize - 1) = setBuffsizeError := by decide +kernel
  by_cases hfit : Fitting (sizeT (atoi d))
  · have hcode : minSocksBuffsize < sizeT (atoi d) ∧ sizeT (atoi d) < maxSocksBuffsize := hfit
    rw [if_pos hcode] at hr
    rw [if_pos hfit, hr]
    exact Prod.ext htext rfl
  · have hcode : ¬ (minSocksBuffsize < sizeT (atoi d) ∧ sizeT (atoi d) < maxSocksBuffsize) := hfit
    rw [if_neg hcode] at hr
    rw [if_neg hfit, hr]
    exact Prod.ext herror rfl

section
variable {s : Session} {d : List UInt8}

/-- The command was taken with this argument and answered with this text. -/
def Answers (s t : Session) (cmd : MgmtCommand) (arg response : List UInt8) : Prop :=
  acts t.log = acts s.log ++ [⟨cmd, some arg, response⟩]

theorem turn_setBuffsize {t : MgmtToken} (hs : s.c.input.Sound) (hr : s.c.input.Resumable)
    (hnew : s.c.input.state = none ∨ s.c.input.cur < s.c.input.lim)
    (ht : nextToken s.c.input.cond s.c.input.text = some t)
    (hpair : t.pair s.c.input.text = (.setBuffsize, some d)) :
    Answers s (turn s).1 .setBuffsize d
        (if Fitting (sizeT (atoi d)) then setBuffsizeText else setBuffsizeError) ∧
      (turn s).1.server.w.buffsize =
        if Fitting (sizeT (atoi d)) then sizeT (atoi d) else s.server.w.buffsize := by
  have hp := parseMgmtRequest_token hs hr hnew ht
  have hx := (execute_token hs (nextToken_isToken ht)).1
  rw [hpair] at hx
  have hcmd : t.cmd = .setBuffsize := congrArg Prod.fst hpair
  have harg := congrArg Prod.snd hx
  rw [hcmd] at hp harg
  have hrun := executeSetBuffsize_eq harg
  dsimp only at harg hrun
  generalize hres : execute .setBuffsize (t.arg.map (moveArg s.c.input.tok))
    (s.setInput (s.c.input.skip t.len)) = r at harg
  change execute .setBuffsize _ _ = _ at hres
  have hlog : r.s.log = s.log := by
    rw [← hres]
    exact (executeSetBuffsize_framed _ _ _).log_eq
  have hboth : (r.response, r.s.server.w.buffsize) = if Fitting (sizeT (atoi d)) then
      (setBuffsizeText, sizeT (atoi d)) else (setBuffsizeError, s.server.w.buffsize) := by
    rw [← hres]
    exact hrun
  obtain ⟨hresponse, hsize⟩ := Prod.mk.inj (hboth.trans (apply_ite₂ Prod.mk _ _ _ _ _).symm)
  rw [← hresponse, ← hsize]
  -- the size is set whether or not the response has room
  rcases turn_cases hp hres with ⟨hinc, -⟩ | ⟨-, -, hturn⟩ | ⟨-, -, hturn⟩
  · cases hinc
  · rw [hturn]
    refine ⟨?_, rfl⟩
    simp [Answers, hlog, harg]
  · rw [hturn]
    refine ⟨?_, rfl⟩
    simp [Answers, hlog, harg]

/-- The command succeeds for the numbers between 512 and 10241, which become the size, and
for no others. -/
def ObeysNumber (s t : Session) (d : List UInt8) : Prop :=
  (Answers s t .setBuffsize d setBuffsizeText ↔ Fitting (decimalValue d)) ∧
    t.server.w.buffsize = if Fitting (decimalValue d) then decimalValue d else s.server.w.buffsize

end

/-- A session that was let in, with a line in its buffer. -/
def trnsSession (bs : List UInt8) : Session :=
  (openSession (boot [] [] []) [asc "secret"] 3 blankRaw).setInput (trnsInput bs)

end Socks5d
