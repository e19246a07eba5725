import Mathlib.Tactic.Ring
import SymbolIndex.Proofs.Json.Grammar

/-!
# `Proofs.Json.Range` — numbers and the range of a double

A numeral has an exact value, and a double has a largest one. Reading a numeral as a double overflows for
some numerals that are a little below that, since the significand and the power of ten are rounded one by
one before they are multiplied. It never does for numerals up to `10 ^ 307`, unless the exponent itself has
more than 31 bits (`overflows_of_atMost`): what is rounded is at most doubled, and so is what the significand
takes of the digits.

## Contents
- `Double.largest`, `Numeral.AtMost`.
- `Double.round_le`, `Double.absorb_le`; `Numeral.significand_le`.
- `Numeral.overflows_of_atMost`.
-/

namespace SymbolIndex

open Text

/-! ## Digits -/

theorem Text.Decimal.foldl_eq (s : Nat) (cs : List Char) :
    cs.foldl (fun n c => 10 * n + digitValue c) s = s * 10 ^ cs.length + value cs := by
  unfold value
  induction cs generalizing s with
  | nil => simp
  | cons c cs ih =>
    rw [List.foldl_cons, List.foldl_cons, ih, ih (10 * 0 + digitValue c), List.length_cons]
    ring

theorem Text.Decimal.value_append (cs ds : List Char) :
    value (cs ++ ds) = value cs * 10 ^ ds.length + value ds := by
  rw [← foldl_eq]
  exact List.foldl_append

theorem Text.Decimal.value_cons (c : Char) (cs : List Char) :
    value (c :: cs) = digitValue c * 10 ^ cs.length + value cs := by
  rw [← foldl_eq, value, List.foldl_cons, Nat.mul_zero, Nat.zero_add]

theorem Text.Decimal.digitValue_le {c : Char} (h : isDigit c = true) : digitValue c ≤ 9 := by
  have range := of_decide_eq_true h
  have high : c.toNat ≤ 57 := range.2
  show c.toNat - 48 ≤ 9
  omega

theorem Text.Decimal.value_lt {cs : List Char} (h : ∀ c ∈ cs, isDigit c = true) :
    value cs < 10 ^ cs.length := by
  induction cs with
  | nil => decide
  | cons c cs ih =>
    have first := digitValue_le (h c List.mem_cons_self)
    have others := ih fun d hd => h d (List.mem_cons_of_mem c hd)
    rw [value_cons, List.length_cons, pow_succ]
    calc digitValue c * 10 ^ cs.length + value cs
        < 9 * 10 ^ cs.length + 10 ^ cs.length :=
          Nat.add_lt_add_of_le_of_lt (Nat.mul_le_mul_right _ first) others
      _ = 10 ^ cs.length * 10 := by ring

/-! ## Doubles -/

namespace Double

/-- The largest double: 53 ones before 971 zeros. -/
def largest : Nat :=
  Nat.pow 2 1024 - Nat.pow 2 971

/-- Rounding does no more than double a number. -/
theorem round_le (n : Nat) : round n ≤ 2 * n := by
  have parts := Nat.div_add_mod n (Nat.pow 2 (Nat.log2 n - 52))
  unfold round
  simp only
  split
  · rename_i up
    have some : n ≠ 0 := by
      rintro rfl
      simp at up
    have unit : Nat.pow 2 (Nat.log2 n - 52) ≤ n :=
      Nat.le_trans (Nat.pow_le_pow_right (by decide) (Nat.sub_le _ _)) (Nat.log2_self_le some)
    rw [Nat.add_mul, Nat.one_mul, Nat.mul_comm]
    omega
  · rw [Nat.mul_comm]
    omega

/-- The digits that a significand has taken, and as many zeros as there are digits left over, are at most
all digits. -/
theorem absorb_le (s : Nat) (cs : List Char) :
    (absorb s cs).1 * 10 ^ (absorb s cs).2 ≤ s * 10 ^ cs.length + Decimal.value cs := by
  induction cs generalizing s with
  | nil => simp [absorb]
  | cons c cs ih =>
    unfold absorb
    simp only
    split
    · refine (ih _).trans (Nat.le_of_eq ?_)
      rw [Decimal.value_cons, List.length_cons]
      ring
    · exact Nat.le_add_right _ _

/-- Without digits left over all of them are taken. -/
theorem absorb_all {s : Nat} {cs : List Char} (h : (absorb s cs).2 = 0) :
    (absorb s cs).1 = s * 10 ^ cs.length + Decimal.value cs := by
  induction cs generalizing s with
  | nil => simp [absorb, Decimal.value]
  | cons c cs ih =>
    unfold absorb at h ⊢
    simp only at h ⊢
    split
    · rename_i room
      rw [if_pos room] at h
      rw [ih h, Decimal.value_cons, List.length_cons]
      ring
    · rename_i full
      rw [if_neg full] at h
      cases h

/-- A significand that leaves digits over is not zero. -/
theorem absorb_pos {s : Nat} {cs : List Char} (digits : ∀ c ∈ cs, Decimal.isDigit c = true)
    (h : (absorb s cs).2 ≠ 0) : 0 < (absorb s cs).1 := by
  induction cs generalizing s with
  | nil => exact absurd rfl h
  | cons c cs ih =>
    unfold absorb at h ⊢
    simp only at h ⊢
    split
    · rename_i room
      rw [if_pos room] at h
      exact ih (fun d hd => digits d (List.mem_cons_of_mem c hd)) h
    · rename_i full
      have digit := Decimal.digitValue_le (digits c List.mem_cons_self)
      show 0 < s
      omega

theorem absorb_left (s : Nat) (cs : List Char) : (absorb s cs).2 ≤ cs.length := by
  induction cs generalizing s with
  | nil => exact Nat.le_refl _
  | cons c cs ih =>
    unfold absorb
    simp only
    split
    · exact (ih _).trans (Nat.le_succ _)
    · exact Nat.le_refl _

end Double

namespace Json.Numeral

/-- The exponent of ten that a numeral is written with. -/
def power (n : Numeral) : Int :=
  match n.exponent with
  | none => 0
  | some e => if e.negative then -(Decimal.value e.digits : Int) else Decimal.value e.digits

/-- The exponent of ten that goes with all digits of a numeral as one whole number. -/
def scale (n : Numeral) : Int :=
  n.power - n.fraction.length

/-- Whether the size of a numeral is at most `bound`. -/
def AtMost (n : Numeral) (bound : Nat) : Prop :=
  Decimal.value (n.whole ++ n.fraction) * Nat.pow 10 n.scale.toNat ≤ bound * Nat.pow 10 (-n.scale).toNat

instance (n : Numeral) (bound : Nat) : Decidable (n.AtMost bound) :=
  inferInstanceAs (Decidable (_ ≤ _))

variable {n : Numeral}

/-- The digits before the point as the significand takes them, and how many are left over. -/
def taken (n : Numeral) : Nat × Nat :=
  Double.absorb 0 n.whole

/-- The same with the digits after the point. -/
def takenAll (n : Numeral) : Nat × Nat :=
  Double.absorb n.taken.1 n.fraction

/-- The exponent of ten that goes with the significand. -/
def significandPower (n : Numeral) : Int :=
  n.scale + n.taken.2 + n.takenAll.2

/-- How a numeral is found to overflow, if its exponent has no more than 31 bits. -/
theorem overflows_eq (short : ∀ e ∈ n.exponent, Decimal.value e.digits < 0x80000000) :
    n.overflows = if n.takenAll.1 = 0 ∨ n.significandPower < 0 then false
      else if 308 < n.significandPower then true
      else decide (Nat.pow 2 1024 - Nat.pow 2 970 ≤
        Double.round n.takenAll.1 * Double.round (Nat.pow 10 n.significandPower.toNat)) := by
  have left : n.takenAll.2 ≤ n.fraction.length := Double.absorb_left _ _
  have power : (n.taken.2 : Int) - ((n.fraction.length - n.takenAll.2 : Nat) : Int) + n.power =
      n.significandPower := by
    unfold significandPower scale
    omega
  unfold Numeral.power at power
  unfold overflows
  cases written : n.exponent with
  | none =>
    rw [written] at power
    simp only [Bool.false_eq_true, if_false]
    rw [← power, Int.add_zero]
    rfl
  | some e =>
    have small : ¬ 0x80000000 ≤ Decimal.value e.digits := Nat.not_le.mpr (short e written)
    rw [written] at power
    simp only [small, decide_false, Bool.false_eq_true, if_false]
    rw [← power]
    obtain ⟨negative, digits⟩ := e
    cases negative <;> rfl

/-- The significand with its power of ten is at most twice the digits. -/
theorem significand_le (whole : ∀ c ∈ n.whole, Decimal.isDigit c = true)
    (fraction : ∀ c ∈ n.fraction, Decimal.isDigit c = true) :
    n.takenAll.1 * 10 ^ (n.taken.2 + n.takenAll.2) ≤ 2 * Decimal.value (n.whole ++ n.fraction) := by
  have all : n.takenAll.1 * 10 ^ n.takenAll.2 ≤
      n.taken.1 * 10 ^ n.fraction.length + Decimal.value n.fraction := Double.absorb_le _ _
  have front : n.taken.1 * 10 ^ n.taken.2 ≤ Decimal.value n.whole := by
    have all := Double.absorb_le 0 n.whole
    rwa [Nat.zero_mul, Nat.zero_add] at all
  rw [Decimal.value_append]
  by_cases none : n.taken.2 = 0
  · have same : n.taken.1 = Decimal.value n.whole := by
      have all := Double.absorb_all none
      rwa [Nat.zero_mul, Nat.zero_add] at all
    rw [none, Nat.zero_add, ← same]
    omega
  · have some : 0 < n.taken.1 := Double.absorb_pos whole none
    have small := Decimal.value_lt fraction
    calc n.takenAll.1 * 10 ^ (n.taken.2 + n.takenAll.2)
        = n.takenAll.1 * 10 ^ n.takenAll.2 * 10 ^ n.taken.2 := by ring
      _ ≤ (n.taken.1 * 10 ^ n.fraction.length + Decimal.value n.fraction) * 10 ^ n.taken.2 :=
          Nat.mul_le_mul_right _ all
      _ ≤ (n.taken.1 * 10 ^ n.fraction.length + n.taken.1 * 10 ^ n.fraction.length) * 10 ^ n.taken.2 := by
          refine Nat.mul_le_mul_right _ (Nat.add_le_add_left (small.le.trans ?_) _)
          exact Nat.le_mul_of_pos_left _ some
      _ = 2 * (n.taken.1 * 10 ^ n.taken.2 * 10 ^ n.fraction.length) := by ring
      _ ≤ 2 * (Decimal.value n.whole * 10 ^ n.fraction.length + Decimal.value n.fraction) := by
          refine Nat.mul_le_mul_left 2 ((Nat.mul_le_mul_right _ front).trans ?_)
          exact Nat.le_add_right _ _

/-- Where the value of a numeral is bounded, the significand with its power of ten is at most twice the
bound. -/
theorem significand_at_power {bound k : Nat}
    (digits : n.takenAll.1 * 10 ^ (n.taken.2 + n.takenAll.2) ≤ 2 * Decimal.value (n.whole ++ n.fraction))
    (small : n.AtMost bound) (power : n.significandPower = k) : n.takenAll.1 * 10 ^ k ≤ 2 * bound := by
  unfold significandPower at power
  unfold AtMost at small
  simp only [Nat.pow_eq] at small
  rcases Int.le_total 0 n.scale with raised | lowered
  · have none : (-n.scale).toNat = 0 := by omega
    have sum : k = n.taken.2 + n.takenAll.2 + n.scale.toNat := by omega
    rw [none, pow_zero, Nat.mul_one] at small
    calc n.takenAll.1 * 10 ^ k
        = n.takenAll.1 * 10 ^ (n.taken.2 + n.takenAll.2) * 10 ^ n.scale.toNat := by rw [sum]; ring
      _ ≤ 2 * Decimal.value (n.whole ++ n.fraction) * 10 ^ n.scale.toNat := Nat.mul_le_mul_right _ digits
      _ = 2 * (Decimal.value (n.whole ++ n.fraction) * 10 ^ n.scale.toNat) := by ring
      _ ≤ 2 * bound := Nat.mul_le_mul_left 2 small
  · have none : n.scale.toNat = 0 := by omega
    have sum : k + (-n.scale).toNat = n.taken.2 + n.takenAll.2 := by omega
    rw [none, pow_zero, Nat.mul_one] at small
    have unit : 0 < 10 ^ (-n.scale).toNat := Nat.pow_pos (by decide)
    refine Nat.le_of_mul_le_mul_right ?_ unit
    calc n.takenAll.1 * 10 ^ k * 10 ^ (-n.scale).toNat
        = n.takenAll.1 * 10 ^ (n.taken.2 + n.takenAll.2) := by rw [← sum]; ring
      _ ≤ 2 * Decimal.value (n.whole ++ n.fraction) := digits
      _ ≤ 2 * (bound * 10 ^ (-n.scale).toNat) := Nat.mul_le_mul_left 2 small
      _ = 2 * bound * 10 ^ (-n.scale).toNat := by ring

theorem power_le_of_mul_le {s k m : Nat} (some : s ≠ 0) (bound : s * 10 ^ k ≤ 2 * 10 ^ m) : k ≤ m := by
  by_contra large
  have more : 10 ^ (m + 1) ≤ 10 ^ k := Nat.pow_le_pow_right (by decide) (by omega)
  have one : 10 ^ k ≤ s * 10 ^ k := Nat.le_mul_of_pos_left _ (Nat.pos_of_ne_zero some)
  have unit : 0 < 10 ^ m := Nat.pow_pos (by decide)
  have impossible := more.trans (one.trans bound)
  rw [pow_succ, Nat.mul_comm] at impossible
  exact absurd (Nat.le_of_mul_le_mul_right impossible unit) (by decide)

/-- **Numerals up to `10 ^ 307` are read as doubles.** -/
theorem overflows_of_atMost (whole : ∀ c ∈ n.whole, Decimal.isDigit c = true)
    (fraction : ∀ c ∈ n.fraction, Decimal.isDigit c = true)
    (short : ∀ e ∈ n.exponent, Decimal.value e.digits < 0x80000000) (small : n.AtMost (10 ^ 307)) :
    n.overflows = false := by
  have digits := significand_le whole fraction
  rw [overflows_eq short]
  split
  · rfl
  · rename_i positive
    obtain ⟨some, raised⟩ := not_or.mp positive
    obtain ⟨k, power⟩ := Int.eq_ofNat_of_zero_le (Int.not_lt.mp raised)
    have bound : n.takenAll.1 * 10 ^ k ≤ 2 * 10 ^ 307 := significand_at_power digits small power
    have exponent : k ≤ 307 := power_le_of_mul_le some bound
    rw [power, if_neg (by omega), Int.toNat_natCast]
    refine decide_eq_false (Nat.not_le.mpr ?_)
    calc Double.round n.takenAll.1 * Double.round (10 ^ k)
        ≤ 2 * n.takenAll.1 * (2 * 10 ^ k) := Nat.mul_le_mul (Double.round_le _) (Double.round_le _)
      _ = 4 * (n.takenAll.1 * 10 ^ k) := by ring
      _ ≤ 4 * (2 * 10 ^ 307) := Nat.mul_le_mul_left 4 bound
      _ < Nat.pow 2 1024 - Nat.pow 2 970 := by decide +kernel

end Json.Numeral

end SymbolIndex
