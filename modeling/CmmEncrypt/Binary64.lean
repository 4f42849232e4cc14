import Mathlib.Algebra.Order.Floor.Ring
import Mathlib.Data.Rat.Floor
import Mathlib.Tactic.Linarith
import Mathlib.Tactic.NormNum
import Mathlib.Tactic.Ring

/-!
# Binary64

A 64-bit word is a sign, an exponent and a fraction. Every finite number is a whole
multiple of 2^-1074; the words of one sign are in the order of these multiples, so a
value other than zero has one word. Naturals below 2^53 are values.
-/

namespace CmmEncrypt.Binary64

def negative (bits : UInt64) : Bool := 2 ^ 63 ≤ bits.toNat
def exponent (bits : UInt64) : Nat := bits.toNat / 2 ^ 52 % 2 ^ 11
def fraction (bits : UInt64) : Nat := bits.toNat % 2 ^ 52

/-- Neither an infinity nor a NaN. -/
def isFinite (bits : UInt64) : Bool := exponent bits ≠ 2047

def isNaN (bits : UInt64) : Bool := exponent bits = 2047 ∧ fraction bits ≠ 0

def significand (bits : UInt64) : Nat :=
  if exponent bits = 0 then fraction bits else 2 ^ 52 + fraction bits

/-- The least positive number is one unit. -/
def unitsOfOne : Nat := 2 ^ 1074

def units (bits : UInt64) : Nat := significand bits * 2 ^ (exponent bits - 1)

def magnitude (bits : UInt64) : ℚ := units bits / unitsOfOne

/-- The value of a finite word. -/
def value (bits : UInt64) : ℚ := if negative bits then -magnitude bits else magnitude bits

/-- Rounding towards zero. -/
def trunc (q : ℚ) : ℤ := if q < 0 then ⌈q⌉ else ⌊q⌋

def fract (q : ℚ) : ℚ := q - trunc q

/-- The truncated value, clamped to 32 bits; a NaN becomes zero. -/
def toUInt32 (bits : UInt64) : UInt32 :=
  if isFinite bits then UInt32.ofNat (min (trunc (value bits)).toNat (2 ^ 32 - 1))
  else if isNaN bits ∨ negative bits then 0 else UInt32.ofNat (2 ^ 32 - 1)

/-- The word of a natural below 2^53. -/
def ofNat (n : Nat) : UInt64 :=
  if n = 0 then 0
  else UInt64.ofNat ((n.log2 + 1023) * 2 ^ 52 + (n * 2 ^ (52 - n.log2) - 2 ^ 52))

/-! ## Words of one sign are ordered -/

theorem word_eq (bits : UInt64) :
    bits.toNat =
      (if negative bits then 2 ^ 63 else 0) + exponent bits * 2 ^ 52 + fraction bits := by
  have bound := bits.toNat_lt
  by_cases high : 2 ^ 63 ≤ bits.toNat
  · simp only [negative, high, decide_true, if_true, exponent, fraction]
    omega
  · simp only [negative, high, decide_false, Bool.false_eq_true, if_false, exponent, fraction]
    omega

theorem fraction_lt (bits : UInt64) : fraction bits < 2 ^ 52 := Nat.mod_lt _ (by decide)

theorem significand_lt (bits : UInt64) : significand bits < 2 ^ 53 := by
  have bound := fraction_lt bits
  rw [significand]
  split <;> omega

/-- Only the least exponent leaves the leading bit out. -/
theorem exponent_eq_zero_iff (bits : UInt64) : exponent bits = 0 ↔ significand bits < 2 ^ 52 := by
  have bound := fraction_lt bits
  rw [significand]
  split <;> omega

/-- A higher exponent means more units. -/
theorem units_lt {a b : UInt64} (higher : exponent a - 1 < exponent b - 1) : units a < units b := by
  have leading : 2 ^ 52 ≤ significand b := by
    have nonzero : exponent b ≠ 0 := by omega
    rw [ne_eq, exponent_eq_zero_iff] at nonzero
    omega
  calc units a < 2 ^ 53 * 2 ^ (exponent a - 1) :=
        Nat.mul_lt_mul_of_pos_right (significand_lt a) (Nat.two_pow_pos _)
    _ = 2 ^ 52 * 2 ^ (exponent a - 1 + 1) := by ring
    _ ≤ 2 ^ 52 * 2 ^ (exponent b - 1) :=
        Nat.mul_le_mul_left _ (Nat.pow_le_pow_right (by decide) higher)
    _ ≤ units b := Nat.mul_le_mul_right _ leading

theorem units_inj {a b : UInt64} (sign : negative a = negative b) (same : units a = units b) :
    a = b := by
  have shifted : exponent a - 1 = exponent b - 1 := by
    rcases Nat.lt_trichotomy (exponent a - 1) (exponent b - 1) with below | equal | above
    · exact absurd same (units_lt below).ne
    · exact equal
    · exact absurd same (units_lt above).ne'
  have significands : significand a = significand b := by
    rw [units, units, shifted] at same
    exact Nat.eq_of_mul_eq_mul_right (Nat.two_pow_pos _) same
  have zero : exponent a = 0 ↔ exponent b = 0 := by
    rw [exponent_eq_zero_iff, exponent_eq_zero_iff, significands]
  have exponents : exponent a = exponent b := by omega
  have fractions : fraction a = fraction b := by
    rw [significand, significand, exponents] at significands
    split at significands <;> omega
  rw [← UInt64.toNat_inj, word_eq a, word_eq b, sign, exponents, fractions]

/-! ## Naturals -/

theorem unitsOfOne_eq {k : Nat} (exponents : k = 1074) : 2 ^ k = unitsOfOne := by
  subst exponents
  rfl

theorem unitsOfOne_pos : 0 < unitsOfOne := by
  unfold unitsOfOne
  positivity

theorem magnitude_nonneg (bits : UInt64) : 0 ≤ magnitude bits := by
  rw [magnitude]
  positivity

theorem magnitude_eq_iff (bits : UInt64) (n : Nat) :
    magnitude bits = n ↔ units bits = n * unitsOfOne := by
  have nonzero : (unitsOfOne : ℚ) ≠ 0 := Nat.cast_ne_zero.mpr unitsOfOne_pos.ne'
  rw [magnitude, div_eq_iff nonzero]
  exact_mod_cast Iff.rfl

/-- A word has the value of a natural if it counts its units; a zero may have either sign. -/
theorem value_eq_natCast_iff (bits : UInt64) (n : Nat) :
    value bits = n ↔ units bits = n * unitsOfOne ∧ (negative bits = true → n = 0) := by
  rw [← magnitude_eq_iff]
  cases sign : negative bits with
  | false => simp [value, sign]
  | true =>
    have nonneg := magnitude_nonneg bits
    simp only [value, sign, if_true, forall_const]
    constructor
    · intro same
      have zero : (n : ℚ) = 0 := by
        apply le_antisymm _ n.cast_nonneg
        linarith
      rw [zero, neg_eq_zero] at same
      exact ⟨same.trans zero.symm, Nat.cast_eq_zero.mp zero⟩
    · rintro ⟨same, rfl⟩
      rw [same, Nat.cast_zero, neg_zero]

section OfNat

variable {n : Nat}

/-- The leading bit of a natural below 2^53 can be shifted to bit 52. -/
theorem shifted_bounds (positive : n ≠ 0) (small : n < 2 ^ 53) :
    n.log2 ≤ 52 ∧ 2 ^ 52 ≤ n * 2 ^ (52 - n.log2) ∧ n * 2 ^ (52 - n.log2) < 2 ^ 53 := by
  have log : n.log2 ≤ 52 := Nat.lt_succ_iff.mp ((Nat.log2_lt positive).mpr small)
  have low := Nat.log2_self_le positive
  have high := (Nat.log2_lt positive (k := n.log2 + 1)).mp (Nat.lt_succ_self _)
  have lowest : 2 ^ n.log2 * 2 ^ (52 - n.log2) = 2 ^ 52 := by
    rw [← Nat.pow_add, Nat.add_sub_cancel' log]
  have highest : 2 ^ (n.log2 + 1) * 2 ^ (52 - n.log2) = 2 ^ 53 := by
    rw [← Nat.pow_add]
    congr 1
    omega
  refine ⟨log, ?_, ?_⟩
  · rw [← lowest]
    exact Nat.mul_le_mul_right _ low
  · rw [← highest]
    exact Nat.mul_lt_mul_of_pos_right high (Nat.two_pow_pos _)

theorem ofNat_toNat (positive : n ≠ 0) (small : n < 2 ^ 53) :
    (ofNat n).toNat = (n.log2 + 1023) * 2 ^ 52 + (n * 2 ^ (52 - n.log2) - 2 ^ 52) := by
  obtain ⟨log, low, high⟩ := shifted_bounds positive small
  rw [ofNat, if_neg positive, UInt64.toNat_ofNat']
  apply Nat.mod_eq_of_lt
  omega

theorem ofNat_fields (positive : n ≠ 0) (small : n < 2 ^ 53) :
    negative (ofNat n) = false ∧ exponent (ofNat n) = n.log2 + 1023 ∧
      significand (ofNat n) = n * 2 ^ (52 - n.log2) := by
  obtain ⟨log, low, high⟩ := shifted_bounds positive small
  have word := ofNat_toNat positive small
  have exponents : exponent (ofNat n) = n.log2 + 1023 := by
    rw [exponent, word]
    omega
  refine ⟨?_, exponents, ?_⟩
  · rw [negative, word, decide_eq_false_iff_not]
    omega
  · rw [significand, exponents, if_neg (by omega), fraction, word]
    omega

theorem ofNat_units (small : n < 2 ^ 53) :
    isFinite (ofNat n) = true ∧ negative (ofNat n) = false ∧ units (ofNat n) = n * unitsOfOne := by
  by_cases zero : n = 0
  · subst zero
    exact ⟨by decide, by decide, by rw [Nat.zero_mul]; decide⟩
  · obtain ⟨log, _, _⟩ := shifted_bounds zero small
    obtain ⟨sign, exponents, significands⟩ := ofNat_fields zero small
    refine ⟨?_, sign, ?_⟩
    · rw [isFinite, exponents, decide_eq_true_iff]
      omega
    · have shift : 52 - n.log2 + (n.log2 + 1023 - 1) = 1074 := by omega
      rw [units, significands, exponents, Nat.mul_assoc, ← Nat.pow_add, unitsOfOne_eq shift]

theorem value_ofNat (small : n < 2 ^ 53) : value (ofNat n) = n := by
  obtain ⟨_, sign, counted⟩ := ofNat_units small
  rw [value_eq_natCast_iff, sign]
  exact ⟨counted, nofun⟩

theorem ofNat_inj {m : Nat} (smallM : m < 2 ^ 53) (small : n < 2 ^ 53) :
    ofNat m = ofNat n ↔ m = n := by
  constructor
  · intro same
    have values : value (ofNat m) = value (ofNat n) := congrArg value same
    rw [value_ofNat smallM, value_ofNat small] at values
    exact_mod_cast values
  · exact congrArg ofNat

/-- The words of a natural: its own, and for zero the one with the sign set as well. -/
theorem finite_value_iff (bits : UInt64) (small : n < 2 ^ 53) :
    isFinite bits = true ∧ value bits = n ↔ bits = ofNat n ∨ n = 0 ∧ bits = 0x8000000000000000 := by
  have minusZero : units 0x8000000000000000 = 0 := by decide
  constructor
  · rintro ⟨_, same⟩
    obtain ⟨counted, signed⟩ := (value_eq_natCast_iff bits n).mp same
    obtain ⟨_, plain, own⟩ := ofNat_units small
    cases sign : negative bits with
    | false => exact .inl (units_inj (sign.trans plain.symm) (counted.trans own.symm))
    | true =>
      have zero := signed sign
      rw [zero, Nat.zero_mul, ← minusZero] at counted
      exact .inr ⟨zero, units_inj sign counted⟩
  · rintro (rfl | ⟨rfl, rfl⟩)
    · exact ⟨(ofNat_units small).1, value_ofNat small⟩
    · refine ⟨by decide, (value_eq_natCast_iff _ 0).mpr ⟨?_, fun _ => rfl⟩⟩
      rw [minusZero, Nat.zero_mul]

end OfNat

/-! ## Whole numbers -/

theorem trunc_natCast (n : Nat) : trunc n = n := by
  rw [trunc, if_neg (not_lt.mpr n.cast_nonneg), Int.floor_natCast]

/-- A value without a fractional part that is not negative is a natural. -/
theorem exists_natCast {q : ℚ} (whole : fract q = 0) (nonneg : 0 ≤ q) : ∃ n : Nat, q = n := by
  rw [fract, trunc, if_neg (not_lt.mpr nonneg), sub_eq_zero] at whole
  obtain ⟨n, same⟩ := Int.eq_ofNat_of_zero_le (Int.floor_nonneg.mpr nonneg)
  refine ⟨n, ?_⟩
  rw [whole, same]
  rfl

theorem toUInt32_of_value {bits : UInt64} {n : Nat} (finite : isFinite bits = true)
    (same : value bits = n) (small : n < 2 ^ 32) : toUInt32 bits = UInt32.ofNat n := by
  have clamped : min n (2 ^ 32 - 1) = n := by omega
  rw [toUInt32, if_pos finite, same, trunc_natCast, Int.toNat_natCast, clamped]

end CmmEncrypt.Binary64
