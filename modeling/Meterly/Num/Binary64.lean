import Mathlib.Algebra.Order.Field.Power
import Mathlib.Data.Int.Log
import Mathlib.Data.Rat.Floor
import Mathlib.Tactic.Linarith
import Mathlib.Tactic.NormNum
import Mathlib.Tactic.Positivity
import Mathlib.Tactic.Ring

/-! # Rounding to binary64

A finite number of the format is a whole number of units of its last place, which stands 52 binary places
below the leading one and not below the last place of the subnormal numbers. Rounding takes the nearest such
number, ties to the even one. It moves a number by half a unit at most. So a fraction that is coarser than
that unit has the same ceiling before and after it is rounded. Rounding keeps the order and the sign, and what is
rounded stays. The upper end of the exponents is left out.
-/

namespace Binary64

/-- The nearest integer, ties to the even one. -/
def nearestEven (x : ℚ) : ℤ := if x - ⌊x⌋ < 1 / 2 ∨ x - ⌊x⌋ = 1 / 2 ∧ ⌊x⌋ % 2 = 0 then ⌊x⌋ else ⌊x⌋ + 1

/-- The exponent of the last place. -/
def lastPlace (q : ℚ) : ℤ := max (Int.log 2 |q| - 52) (-1074)

/-- The nearest number of the format. -/
def round (q : ℚ) : ℚ := nearestEven (q / 2 ^ lastPlace q) * 2 ^ lastPlace q

example : round (1 / 10) = 3602879701896397 / 36028797018963968 := by decide +kernel

theorem nearestEven_intCast (n : ℤ) : nearestEven n = n := by
  rw [nearestEven, Int.floor_intCast, sub_self, if_pos (.inl (by norm_num))]

theorem abs_nearestEven_sub_le (x : ℚ) : |nearestEven x - x| ≤ 1 / 2 := by
  have lower := Int.floor_le x
  have upper := Int.lt_floor_add_one x
  rw [nearestEven, abs_le]
  split_ifs with down
  · have half : x - ⌊x⌋ ≤ 1 / 2 := down.elim le_of_lt fun tie => le_of_eq tie.1
    constructor <;> linarith
  · have half : 1 / 2 ≤ x - ⌊x⌋ := not_lt.mp fun small => down (.inl small)
    push_cast
    constructor <;> linarith

theorem floor_le_nearestEven (x : ℚ) : ⌊x⌋ ≤ nearestEven x ∧ nearestEven x ≤ ⌊x⌋ + 1 := by
  rw [nearestEven]
  split_ifs <;> omega

theorem nearestEven_mono {x y : ℚ} (le : x ≤ y) : nearestEven x ≤ nearestEven y := by
  rcases (Int.floor_mono le).lt_or_eq with apart | same
  · have upper := (floor_le_nearestEven x).2
    have lower := (floor_le_nearestEven y).1
    omega
  · rw [nearestEven, nearestEven, same]
    split_ifs with down up up
    · exact le_rfl
    · omega
    · -- If the larger one goes down, so does the smaller one.
      refine absurd ?_ down
      have closer : x - ⌊y⌋ ≤ y - ⌊y⌋ := by linarith
      rcases up with small | ⟨tie, even⟩
      · exact .inl (closer.trans_lt small)
      · rcases (closer.trans_eq tie).lt_or_eq with small | half
        · exact .inl small
        · exact .inr ⟨half, even⟩
    · exact le_rfl

theorem nearestEven_neg (x : ℚ) : nearestEven (-x) = -nearestEven x := by
  rcases eq_or_lt_of_le (Int.floor_le x) with whole | apart
  · rw [← whole, ← Int.cast_neg, nearestEven_intCast, nearestEven_intCast]
  · have floor : ⌊-x⌋ = -⌊x⌋ - 1 := by
      rw [Int.floor_eq_iff]
      have upper := Int.lt_floor_add_one x
      push_cast
      constructor <;> linarith
    have flipped : -x - ((-⌊x⌋ - 1 : ℤ) : ℚ) = 1 - (x - ⌊x⌋) := by
      push_cast
      ring
    rw [nearestEven, nearestEven, floor, flipped]
    rcases lt_trichotomy (x - ⌊x⌋) (1 / 2) with below | tie | above
    · rw [if_neg (by rintro (h | ⟨h, -⟩) <;> linarith), if_pos (.inl below)]
      ring
    · rw [tie]
      norm_num
      split_ifs <;> omega
    · rw [if_pos (.inl (by linarith)), if_neg (by rintro (h | ⟨h, -⟩) <;> linarith)]
      ring

/-! ## The last place -/

theorem lastPlace_neg (q : ℚ) : lastPlace (-q) = lastPlace q := by
  rw [lastPlace, abs_neg, lastPlace]

theorem lastPlace_mono {q p : ℚ} (positive : 0 < q) (le : q ≤ p) : lastPlace q ≤ lastPlace p := by
  have log : Int.log 2 q ≤ Int.log 2 p := Int.log_mono_right positive le
  rw [lastPlace, lastPlace, abs_of_pos positive, abs_of_pos (positive.trans_le le)]
  omega

/-- The last place of a number below a power of two. -/
theorem lastPlace_le {q : ℚ} {exponent : ℤ} (positive : 0 < q) (small : q < 2 ^ (exponent + 1))
    (normal : -1022 ≤ exponent) : lastPlace q ≤ exponent - 52 := by
  have log : Int.log 2 q < exponent + 1 := (Int.lt_zpow_iff_log_lt (by decide) positive).mp small
  rw [lastPlace, abs_of_pos positive]
  omega

/-! ## Rounded numbers -/

theorem round_neg (q : ℚ) : round (-q) = -round q := by
  rw [round, lastPlace_neg, neg_div, nearestEven_neg, round]
  push_cast
  ring

/-- A bound on the grid of a number bounds what it is rounded to. -/
theorem round_le {q : ℚ} {n : ℤ} (le : q ≤ n * 2 ^ lastPlace q) : round q ≤ n * 2 ^ lastPlace q := by
  have unit : (0 : ℚ) < 2 ^ lastPlace q := by positivity
  have bounded := nearestEven_mono ((div_le_iff₀ unit).mpr le)
  rw [nearestEven_intCast] at bounded
  rw [round]
  gcongr

theorem le_round {q : ℚ} {n : ℤ} (le : n * 2 ^ lastPlace q ≤ q) : n * 2 ^ lastPlace q ≤ round q := by
  have unit : (0 : ℚ) < 2 ^ lastPlace q := by positivity
  have bounded := nearestEven_mono ((le_div_iff₀ unit).mpr le)
  rw [nearestEven_intCast] at bounded
  rw [round]
  gcongr

/-- A whole number of units at or above the last place is in the format. -/
theorem round_eq_self {q : ℚ} {n e : ℤ} (grid : q = n * 2 ^ e) (above : lastPlace q ≤ e) : round q = q := by
  obtain ⟨places, same⟩ : ∃ places : ℕ, e = lastPlace q + places := ⟨(e - lastPlace q).toNat, by omega⟩
  have unit : (0 : ℚ) < 2 ^ lastPlace q := by positivity
  have whole : q = (n * 2 ^ places : ℤ) * 2 ^ lastPlace q := by
    conv_lhs => rw [grid, same, zpow_add₀ two_ne_zero, zpow_natCast]
    push_cast
    ring
  exact le_antisymm ((round_le whole.le).trans_eq whole.symm) (whole.trans_le (le_round whole.ge))

/-- A whole number with no digits behind its last place is in the format. -/
theorem round_intCast {n : ℤ} (exact : lastPlace n ≤ 0) : round n = n :=
  round_eq_self (by rw [zpow_zero, mul_one]) exact

theorem round_intCast_of_lt {n : ℤ} (nonneg : 0 ≤ n) (small : n < 2 ^ 53) : round n = n := by
  rcases nonneg.eq_or_lt with rfl | positive
  · exact round_intCast (by decide +kernel)
  · have below : (n : ℚ) < 2 ^ (52 + 1 : ℤ) := by exact_mod_cast small
    exact round_intCast (lastPlace_le (by exact_mod_cast positive) below (by decide))

theorem round_zero : round 0 = 0 := by
  have whole : round ((0 : ℤ) : ℚ) = (0 : ℤ) := round_intCast_of_lt le_rfl (by decide)
  rwa [Int.cast_zero] at whole

theorem round_one : round 1 = 1 := by
  have whole : round ((1 : ℤ) : ℚ) = (1 : ℤ) := round_intCast_of_lt zero_le_one (by decide)
  rwa [Int.cast_one] at whole

theorem round_nonneg {q : ℚ} (nonneg : 0 ≤ q) : 0 ≤ round q := by
  have bound := le_round (n := 0) (q := q) (by simpa using nonneg)
  simpa using bound

/-- Between numbers with different last places lies a power of two, which is on the grid of both. -/
theorem round_mono_of_pos {q p : ℚ} (positive : 0 < q) (le : q ≤ p) : round q ≤ round p := by
  rcases (lastPlace_mono positive le).lt_or_eq with apart | same
  · have above : 0 < p := positive.trans_le le
    have places : lastPlace p = Int.log 2 p - 52 ∧ lastPlace q ≤ Int.log 2 p ∧ Int.log 2 q < Int.log 2 p := by
      rw [lastPlace, lastPlace, abs_of_pos positive, abs_of_pos above] at *
      omega
    obtain ⟨place, reaches, binade⟩ := places
    have upper : q ≤ 2 ^ Int.log 2 p := ((Int.lt_zpow_iff_log_lt (by decide) positive).mpr binade).le
    have lower : 2 ^ Int.log 2 p ≤ p := Int.zpow_log_le_self (by decide) above
    obtain ⟨units, same⟩ : ∃ units : ℕ, Int.log 2 p = lastPlace q + units :=
      ⟨(Int.log 2 p - lastPlace q).toNat, by omega⟩
    have below : (2 : ℚ) ^ Int.log 2 p = (2 ^ units : ℤ) * 2 ^ lastPlace q := by
      rw [same, zpow_add₀ two_ne_zero, zpow_natCast]
      push_cast
      ring
    have fine : (2 : ℚ) ^ Int.log 2 p = (2 ^ 52 : ℤ) * 2 ^ lastPlace p := by
      rw [place, zpow_sub₀ two_ne_zero]
      norm_num
      ring
    calc round q ≤ (2 ^ units : ℤ) * 2 ^ lastPlace q := round_le (upper.trans_eq below)
      _ = (2 ^ 52 : ℤ) * 2 ^ lastPlace p := below.symm.trans fine
      _ ≤ round p := le_round (fine.symm.trans_le lower)
  · rw [round, round, same]
    have unit : (0 : ℚ) < 2 ^ lastPlace p := by positivity
    have nearer := nearestEven_mono (div_le_div_of_nonneg_right le unit.le)
    gcongr

theorem round_mono {q p : ℚ} (le : q ≤ p) : round q ≤ round p := by
  rcases lt_trichotomy q 0 with negative | rfl | positive
  · rcases lt_or_ge p 0 with both | apart
    · have flipped := round_mono_of_pos (neg_pos.mpr both) (neg_le_neg le)
      rw [round_neg, round_neg] at flipped
      exact neg_le_neg_iff.mp flipped
    · have flipped := round_nonneg (neg_nonneg.mpr negative.le)
      rw [round_neg] at flipped
      exact (neg_nonneg.mp flipped).trans (round_nonneg apart)
  · rw [round_zero]
    exact round_nonneg le
  · exact round_mono_of_pos positive le

theorem one_le_round {q : ℚ} (le : 1 ≤ q) : 1 ≤ round q := by
  have bound := round_mono le
  rwa [round_one] at bound

theorem round_le_one {q : ℚ} (le : q ≤ 1) : round q ≤ 1 := by
  have bound := round_mono le
  rwa [round_one] at bound

theorem round_nonpos {q : ℚ} (nonpos : q ≤ 0) : round q ≤ 0 := by
  have bound := round_mono nonpos
  rwa [round_zero] at bound

theorem round_round_of_pos {q : ℚ} (positive : 0 < q) : round (round q) = round q := by
  have room : -1074 ≤ lastPlace q ∧ Int.log 2 q < lastPlace q + 53 := by
    rw [lastPlace, abs_of_pos positive]
    omega
  have small : q < 2 ^ (lastPlace q + 53) := (Int.lt_zpow_iff_log_lt (by decide) positive).mpr room.2
  have top : (2 : ℚ) ^ (lastPlace q + 53) = (2 ^ 53 : ℤ) * 2 ^ lastPlace q := by
    rw [zpow_add₀ two_ne_zero, mul_comm]
    norm_num
  have bounded : round q ≤ 2 ^ (lastPlace q + 53) := (round_le (small.le.trans_eq top)).trans_eq top.symm
  rcases (round_nonneg positive.le).eq_or_lt with zero | above
  · rw [← zero, round_zero]
  · rcases bounded.lt_or_eq with below | carried
    · have log : Int.log 2 (round q) < lastPlace q + 53 := (Int.lt_zpow_iff_log_lt (by decide) above).mp below
      have place : lastPlace (round q) ≤ lastPlace q := by
        rw [lastPlace, abs_of_pos above]
        omega
      exact round_eq_self rfl place
    · -- The carry into the next binade is a power of two.
      have log : Int.log 2 (round q) = lastPlace q + 53 := by
        rw [carried]
        exact Int.log_zpow (by decide) _
      apply round_eq_self (n := 1) (e := lastPlace q + 53)
      · rw [carried, Int.cast_one, one_mul]
      · rw [lastPlace, abs_of_pos above]
        omega

/-- What is rounded stays. -/
theorem round_round (q : ℚ) : round (round q) = round q := by
  rcases lt_trichotomy q 0 with negative | rfl | positive
  · have flipped := round_round_of_pos (neg_pos.mpr negative)
    rw [round_neg, round_neg] at flipped
    exact neg_injective flipped
  · rw [round_zero, round_zero]
  · exact round_round_of_pos positive

/-! ## How far a number is moved -/

/-- Rounding moves a number by half a unit of its last place at most. -/
theorem abs_round_sub_le (q : ℚ) : |round q - q| ≤ 2 ^ lastPlace q / 2 := by
  have unit : (0 : ℚ) < 2 ^ lastPlace q := by positivity
  have scaled : round q - q = (nearestEven (q / 2 ^ lastPlace q) - q / 2 ^ lastPlace q) * 2 ^ lastPlace q := by
    rw [round, sub_mul, div_mul_cancel₀ _ unit.ne']
  rw [scaled, abs_mul, abs_of_pos unit]
  calc _ ≤ 1 / 2 * (2 : ℚ) ^ lastPlace q := mul_le_mul_of_nonneg_right (abs_nearestEven_sub_le _) unit.le
    _ = 2 ^ lastPlace q / 2 := by ring

/-- Rounding moves a number below two by one part in `2 ^ 53` at most. -/
theorem abs_round_sub_le_of_lt_two {q : ℚ} (nonneg : 0 ≤ q) (small : q < 2) : |round q - q| ≤ 1 / 2 ^ 53 := by
  rcases nonneg.eq_or_lt with rfl | positive
  · rw [round_zero]
    norm_num
  · have place : lastPlace q ≤ 0 - 52 := lastPlace_le positive (by simpa using small) (by decide)
    calc |round q - q| ≤ 2 ^ lastPlace q / 2 := abs_round_sub_le q
      _ ≤ 2 ^ (0 - 52 : ℤ) / 2 := by gcongr; norm_num
      _ = 1 / 2 ^ 53 := by norm_num

/-- Rounding keeps the ceiling of a fraction whose denominator is small against its last place. -/
theorem ceil_round {n : ℤ} {m : ℕ} (positive : 0 < m) (exact : lastPlace (n / m) ≤ 0)
    (fine : (2 : ℚ) ^ lastPlace (n / m) * m < 2) : ⌈round (n / m)⌉ = ⌈(n / m : ℚ)⌉ := by
  have scale : (0 : ℚ) < m := by exact_mod_cast positive
  obtain ⟨c, ceil⟩ : ∃ c, ⌈(n / m : ℚ)⌉ = c := ⟨_, rfl⟩
  obtain ⟨below, above⟩ := Int.ceil_eq_iff.mp ceil
  rcases eq_or_lt_of_le above with whole | notWhole
  · rw [whole] at exact ⊢
    rw [round_intCast exact]
  · -- Neither neighbouring integer is closer than one part in `m`.
    have upper : (n : ℚ) + 1 ≤ c * m := by
      rw [div_lt_iff₀ scale] at notWhole
      exact_mod_cast notWhole
    have lower : (c - 1 : ℚ) * m + 1 ≤ n := by
      rw [lt_div_iff₀ scale] at below
      exact_mod_cast below
    have moved : |round (n / m) - n / m| * m < 1 := by
      calc |round (n / m) - n / m| * m ≤ 2 ^ lastPlace (n / m) / 2 * m :=
            mul_le_mul_of_nonneg_right (abs_round_sub_le _) scale.le
        _ < 1 := by linarith
    have scaled : |round (n / m) * m - n| < 1 := by
      rwa [← abs_of_pos scale, ← abs_mul, abs_of_pos scale, sub_mul, div_mul_cancel₀ _ scale.ne'] at moved
    obtain ⟨left, right⟩ := abs_lt.mp scaled
    rw [ceil, Int.ceil_eq_iff]
    constructor
    · exact lt_of_mul_lt_mul_right (by linarith) scale.le
    · exact le_of_mul_le_mul_right (by linarith) scale

end Binary64
