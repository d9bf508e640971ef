import Mathlib.Data.Nat.Find
import Meterly.Num.Decimal

/-! # Bounded decimals and columns of fixed scale

A validator counts the digits of a decimal once its trailing zeros are gone; a column of fixed scale
keeps a whole number of units of its last place, rounding ties away from zero and refusing what has
too many digits. A decimal whose value is a whole number of units is stored as that number, whatever
exponent it is written with.
-/

namespace Decimal

/-- The number of zeros a positive number ends in. -/
def trailingZeros (n : ℕ) : ℕ := Nat.findGreatest (fun k => 10 ^ k ∣ n) (Nat.log 10 n)

theorem pow_trailingZeros_dvd (n : ℕ) : 10 ^ trailingZeros n ∣ n :=
  Nat.findGreatest_spec (P := fun k => 10 ^ k ∣ n) (Nat.zero_le _) (one_dvd n)

/-- The same value without trailing zeros. -/
def normalize (x : Decimal) : Decimal :=
  if x.coefficient = 0 then ⟨0, 0⟩
  else
    let zeros := trailingZeros x.coefficient.natAbs
    ⟨x.coefficient / 10 ^ zeros, x.exponent + zeros⟩

/-- The digits behind the point. -/
def decimalPlaces (x : Decimal) : ℕ := (-x.exponent).toNat

/-- The digits of the coefficient with the zeros that an exponent adds on either side. -/
def digitCount (x : Decimal) : ℕ :=
  max (Nat.log 10 x.coefficient.natAbs + 1 + x.exponent.toNat) x.decimalPlaces

theorem toRat_normalize (x : Decimal) : x.normalize.toRat = x.toRat := by
  unfold normalize
  split
  · next zero => simp only [toRat, zero, Int.cast_zero, zero_mul]
  · obtain ⟨quotient, whole⟩ : ((10 ^ trailingZeros x.coefficient.natAbs : ℕ) : ℤ) ∣ x.coefficient :=
      Int.natCast_dvd.mpr (pow_trailingZeros_dvd _)
    push_cast at whole
    have divided : x.coefficient / 10 ^ trailingZeros x.coefficient.natAbs = quotient :=
      Int.ediv_eq_of_eq_mul_right (by positivity) whole
    simp only [toRat, divided]
    rw [zpow_add₀ (by norm_num : (10 : ℚ) ≠ 0), zpow_natCast]
    conv_rhs => rw [whole]
    push_cast
    ring

/-- A decimal with few places is a whole number of units of its last place. -/
theorem exists_units_of_decimalPlaces {x : Decimal} {scale : ℕ} (places : x.decimalPlaces ≤ scale) :
    ∃ units : ℤ, x.toRat = units / 10 ^ scale := by
  have small : (-scale : ℤ) ≤ x.exponent := by
    unfold decimalPlaces at places
    omega
  refine ⟨x.coefficientAt (-scale), ?_⟩
  rw [← x.coefficientAt_toRat small, zpow_neg, zpow_natCast, div_eq_mul_inv]

/-! ## `condecimal` -/

/-- What a validator of bounded decimals promises of the values it lets through. The digits are counted after an
exact normalisation, where `pydantic-core` normalises in 28 digits. -/
structure Condecimal (gt le : Decimal) (maxDigits places : ℕ) (accepts : Decimal → Bool) : Prop where
  above : ∀ x, accepts x → gt.Lt x
  below : ∀ x, accepts x → ¬ le.Lt x
  digits : ∀ x, accepts x → x.normalize.digitCount ≤ maxDigits
  places : ∀ x, accepts x → x.normalize.decimalPlaces ≤ places

/-- The validator that lets through whatever keeps its bounds. -/
def condecimal (gt le : Decimal) (maxDigits places : ℕ) (x : Decimal) : Bool :=
  gt.Lt x ∧ ¬ le.Lt x ∧ x.normalize.digitCount ≤ maxDigits ∧ x.normalize.decimalPlaces ≤ places

theorem condecimal_promises (gt le : Decimal) (maxDigits places : ℕ) :
    Condecimal gt le maxDigits places (condecimal gt le maxDigits places) where
  above _ accepted := (of_decide_eq_true accepted).1
  below _ accepted := (of_decide_eq_true accepted).2.1
  digits _ accepted := (of_decide_eq_true accepted).2.2.1
  places _ accepted := (of_decide_eq_true accepted).2.2.2

/-! ## `NUMERIC(precision, scale)` -/

/-- The nearest whole number of units of the last place, ties away from zero. -/
def roundToScale (scale : ℕ) (x : Decimal) : ℤ :=
  let unit := 10 ^ (-(x.exponent + scale)).toNat
  x.coefficient.sign * ((x.coefficient.natAbs * 10 ^ (x.exponent + scale).toNat + unit / 2) / unit : ℕ)

/-- What the column stores, in units of its last place; a number with too many digits is refused. -/
def numericColumn (precision scale : ℕ) (x : Decimal) : Option ℤ :=
  if (roundToScale scale x).natAbs < 10 ^ precision then some (roundToScale scale x) else none

/-- The values of such a column, written with no more places than it has. -/
structure InColumn (precision scale : ℕ) (x : Decimal) : Prop where
  places : -(scale : ℤ) ≤ x.exponent
  fits : |x.toRat| < 10 ^ precision / 10 ^ scale

theorem roundToScale_of_units {scale : ℕ} {x : Decimal} {units : ℤ} (value : x.toRat = units / 10 ^ scale) :
    roundToScale scale x = units := by
  have ten : (10 : ℚ) ≠ 0 := by norm_num
  have whole : x.coefficient * (10 ^ (x.exponent + scale).toNat : ℕ) =
      units * (10 ^ (-(x.exponent + scale)).toNat : ℕ) := by
    have shifted : (x.coefficient : ℚ) * 10 ^ (x.exponent + scale) = units := by
      rw [zpow_add₀ ten, zpow_natCast, ← mul_assoc, ← toRat, value, div_mul_cancel₀ _ (pow_ne_zero _ ten)]
    have split : x.exponent + scale = ((x.exponent + scale).toNat : ℤ) - (-(x.exponent + scale)).toNat := by omega
    rw [split, zpow_sub₀ ten, zpow_natCast, zpow_natCast, ← mul_div_assoc, div_eq_iff (pow_ne_zero _ ten)] at shifted
    exact_mod_cast shifted
  have sign : x.coefficient.sign = units.sign := by
    have same := congrArg Int.sign whole
    rwa [Int.sign_mul, Int.sign_mul, Int.sign_natCast_of_ne_zero (by positivity),
      Int.sign_natCast_of_ne_zero (by positivity), mul_one, mul_one] at same
  have size : x.coefficient.natAbs * 10 ^ (x.exponent + scale).toNat =
      10 ^ (-(x.exponent + scale)).toNat * units.natAbs := by
    have same := congrArg Int.natAbs whole
    rwa [Int.natAbs_mul, Int.natAbs_mul, Int.natAbs_natCast, Int.natAbs_natCast, mul_comm units.natAbs] at same
  have half : 10 ^ (-(x.exponent + scale)).toNat / 2 < 10 ^ (-(x.exponent + scale)).toNat :=
    Nat.div_lt_self (by positivity) (by decide)
  rw [roundToScale, size, sign, Nat.mul_add_div (by positivity), Nat.div_eq_of_lt half, add_zero, Int.sign_mul_natAbs]

/-- A whole number of units that fits is stored as it is. -/
theorem numericColumn_of_units {precision scale : ℕ} {x : Decimal} {units : ℤ}
    (value : x.toRat = units / 10 ^ scale) (fits : units.natAbs < 10 ^ precision) :
    numericColumn precision scale x = some units := by
  rw [numericColumn, roundToScale_of_units value, if_pos fits]

end Decimal
