import Mathlib.Algebra.Order.Field.Rat
import Mathlib.Data.Nat.Log
import Mathlib.Algebra.Order.Ring.Cast
import Mathlib.Algebra.Order.Field.Power
import Mathlib.Tactic.Linarith
import Mathlib.Tactic.NormNum
import Mathlib.Tactic.Positivity
import Mathlib.Tactic.Ring

/-! # Decimal addition in a context of limited precision

A decimal is an integer coefficient with a power of ten. Addition is exact at the smaller exponent
and then rounded half-even to the digits of the context; comparison is exact. Rounding moves a sum
by less than its last kept digit, so it cannot carry a sum across a bound that has fewer digits
than the context keeps: such a comparison is decided as if the addition had been exact.
-/

/-- A finite decimal: the coefficient times ten to the exponent. -/
structure Decimal where
  coefficient : ℤ
  exponent : ℤ
deriving DecidableEq, Repr

namespace Decimal

/-- The rational a decimal denotes. -/
def toRat (x : Decimal) : ℚ := x.coefficient * 10 ^ x.exponent

/-- The coefficient of the same value at an exponent that is not larger. -/
def coefficientAt (x : Decimal) (exponent : ℤ) : ℤ := x.coefficient * 10 ^ (x.exponent - exponent).toNat

/-- Exact comparison of values, at the smaller exponent. -/
def Lt (x y : Decimal) : Prop :=
  x.coefficientAt (min x.exponent y.exponent) < y.coefficientAt (min x.exponent y.exponent)

instance (x y : Decimal) : Decidable (x.Lt y) := inferInstanceAs (Decidable (_ < _))

/-- Divide by a unit, rounding to the nearest multiple and ties to the even one. -/
def halfEven (n unit : ℕ) : ℕ :=
  if unit < 2 * (n % unit) ∨ unit = 2 * (n % unit) ∧ n / unit % 2 = 1 then n / unit + 1 else n / unit

/-- Keep at most `precision` significant digits. -/
def round (precision : ℕ) (x : Decimal) : Decimal :=
  if x.coefficient.natAbs < 10 ^ precision then x
  else
    let drop := Nat.log 10 x.coefficient.natAbs + 1 - precision
    ⟨x.coefficient.sign * halfEven x.coefficient.natAbs (10 ^ drop), x.exponent + drop⟩

/-- The sum before rounding, at the smaller exponent. -/
def exactSum (x y : Decimal) : Decimal :=
  ⟨x.coefficientAt (min x.exponent y.exponent) + y.coefficientAt (min x.exponent y.exponent),
    min x.exponent y.exponent⟩

/-- `Decimal.__str__`: plain notation where the point stands near the digits, else an exponent. -/
def str (x : Decimal) : String :=
  let digits := (toString x.coefficient.natAbs).toList
  let leftDigits := x.exponent + digits.length
  let dotPlace := if x.exponent ≤ 0 ∧ -6 < leftDigits then leftDigits else 1
  let mantissa : List Char :=
    if dotPlace ≤ 0 then '0' :: '.' :: List.replicate (-dotPlace).toNat '0' ++ digits
    else if digits.length ≤ dotPlace then digits ++ List.replicate (dotPlace.toNat - digits.length) '0'
    else digits.take dotPlace.toNat ++ '.' :: digits.drop dotPlace.toNat
  let exponent :=
    if leftDigits = dotPlace then ""
    else if dotPlace < leftDigits then "E+" ++ toString (leftDigits - dotPlace)
    else "E" ++ toString (leftDigits - dotPlace)
  (if x.coefficient < 0 then "-" else "") ++ String.ofList mantissa ++ exponent

/-- Addition in a context of the given precision. -/
def add (precision : ℕ) (x y : Decimal) : Decimal := (exactSum x y).round precision

theorem coefficientAt_toRat (x : Decimal) {exponent : ℤ} (small : exponent ≤ x.exponent) :
    (x.coefficientAt exponent : ℚ) * 10 ^ exponent = x.toRat := by
  have split : x.exponent = ((x.exponent - exponent).toNat : ℤ) + exponent := by omega
  rw [coefficientAt, toRat]
  conv_rhs => rw [split, zpow_add₀ (by norm_num : (10 : ℚ) ≠ 0), zpow_natCast]
  push_cast
  ring

/-- Comparison of decimals is comparison of the rationals they denote. -/
theorem lt_iff_toRat (x y : Decimal) : x.Lt y ↔ x.toRat < y.toRat := by
  rw [Lt, ← x.coefficientAt_toRat (min_le_left _ _), ← y.coefficientAt_toRat (min_le_right _ _),
    mul_lt_mul_iff_left₀ (zpow_pos (by norm_num) _), Int.cast_lt]

theorem toRat_exactSum (x y : Decimal) : (exactSum x y).toRat = x.toRat + y.toRat := by
  rw [← x.coefficientAt_toRat (min_le_left _ _), ← y.coefficientAt_toRat (min_le_right _ _), toRat,
    exactSum]
  push_cast
  ring

theorem div_le_halfEven (n unit : ℕ) : n / unit ≤ halfEven n unit := by
  unfold halfEven
  split <;> omega

/-- A rounded coefficient still fills the context: the rounded value is at least ten to the
precision, in units of the exponent before rounding. -/
theorem le_toRat_round {precision : ℕ} (positive : 0 < precision) (x : Decimal)
    (large : (10 : ℤ) ^ precision ≤ x.coefficient) :
    (10 : ℚ) ^ precision * 10 ^ x.exponent ≤ (x.round precision).toRat := by
  have power : (0 : ℤ) < 10 ^ precision := by positivity
  obtain ⟨n, same⟩ : ∃ n : ℕ, x.coefficient = n := ⟨x.coefficient.toNat, by omega⟩
  have wide : 10 ^ precision ≤ n := by exact_mod_cast same ▸ large
  have nonzero : n ≠ 0 := by
    have := Nat.pow_pos (n := precision) (show 0 < 10 by decide)
    omega
  have sign : x.coefficient.sign = 1 := Int.sign_eq_one_of_pos (by omega)
  have digits : precision ≤ Nat.log 10 n := Nat.le_log_of_pow_le (by decide) wide
  have kept : 10 ^ precision ≤ halfEven n (10 ^ (Nat.log 10 n + 1 - precision)) *
      10 ^ (Nat.log 10 n + 1 - precision) := by
    have quotient : 10 ^ (precision - 1) ≤ n / 10 ^ (Nat.log 10 n + 1 - precision) := by
      rw [Nat.le_div_iff_mul_le (by positivity), ← pow_add,
        show precision - 1 + (Nat.log 10 n + 1 - precision) = Nat.log 10 n by omega]
      exact Nat.pow_log_le_self 10 nonzero
    calc 10 ^ precision ≤ 10 ^ (precision - 1 + (Nat.log 10 n + 1 - precision)) :=
          Nat.pow_le_pow_right (by decide) (by omega)
      _ = 10 ^ (precision - 1) * 10 ^ (Nat.log 10 n + 1 - precision) := pow_add ..
      _ ≤ _ := Nat.mul_le_mul_right _ (quotient.trans (div_le_halfEven _ _))
  have rounds : ¬ x.coefficient.natAbs < 10 ^ precision := by
    rw [same, Int.natAbs_natCast]
    omega
  have value : (x.round precision).toRat = ((halfEven n (10 ^ (Nat.log 10 n + 1 - precision)) *
      10 ^ (Nat.log 10 n + 1 - precision) : ℕ) : ℚ) * 10 ^ x.exponent := by
    rw [round, if_neg rounds, toRat, sign, same, Int.natAbs_natCast,
      zpow_add₀ (by norm_num : (10 : ℚ) ≠ 0), zpow_natCast]
    push_cast
    ring
  rw [value]
  exact mul_le_mul_of_nonneg_right (by exact_mod_cast kept) (zpow_nonneg (by norm_num) _)

/-- A sum is compared with a bound shorter than the context as if it had not been rounded. -/
theorem lt_round_iff {precision : ℕ} (positive : 0 < precision) (bound x : Decimal)
    (short : bound.toRat < 10 ^ precision * 10 ^ x.exponent) (nonneg : 0 ≤ x.coefficient) :
    bound.Lt (x.round precision) ↔ bound.toRat < x.toRat := by
  by_cases fits : x.coefficient.natAbs < 10 ^ precision
  · rw [round, if_pos fits, lt_iff_toRat]
  · have large : (10 : ℤ) ^ precision ≤ x.coefficient := by
      have : (10 ^ precision : ℕ) ≤ x.coefficient.natAbs := by omega
      zify at this
      rwa [abs_of_nonneg nonneg] at this
    have exact : (10 : ℚ) ^ precision * 10 ^ x.exponent ≤ x.toRat := by
      apply mul_le_mul_of_nonneg_right _ (zpow_nonneg (by norm_num) _)
      exact_mod_cast large
    rw [lt_iff_toRat]
    exact iff_of_true (short.trans_le (x.le_toRat_round positive large)) (short.trans_le exact)

end Decimal
