import Mathlib.Data.List.TakeWhile
import Meterly.Num.Decimal

/-! # Decimals in plain notation

A plain decimal is a run of digits, or two of them around a point; it has no sign and no exponent. A
non-negative decimal with one to six places is always printed so, zero and the smallest units
included, and what is printed reads back as the same coefficient and exponent.
-/

namespace Decimal

/-- The decimal that a plain notation writes. -/
def ofPlain (text : List Char) : Option Decimal :=
  let whole := text.takeWhile Char.isDigit
  match text.dropWhile Char.isDigit with
  | [] => if whole = [] then none else some ⟨Nat.ofDigitChars 10 whole 0, 0⟩
  | point :: fraction =>
    if point = '.' ∧ whole ≠ [] ∧ fraction ≠ [] ∧ fraction.all Char.isDigit then
      some ⟨Nat.ofDigitChars 10 (whole ++ fraction) 0, -fraction.length⟩
    else none

/-- Two runs of digits around a point. -/
theorem ofPlain_point {whole fraction : List Char} (wholeDigits : ∀ c ∈ whole, c.isDigit)
    (fractionDigits : ∀ c ∈ fraction, c.isDigit) (nonempty : whole ≠ []) (places : fraction ≠ []) :
    ofPlain (whole ++ '.' :: fraction) = some ⟨Nat.ofDigitChars 10 (whole ++ fraction) 0, -fraction.length⟩ := by
  have taken : (whole ++ '.' :: fraction).takeWhile Char.isDigit = whole := by
    rw [List.takeWhile_append_of_pos wholeDigits, List.takeWhile_cons_of_neg (by decide), List.append_nil]
  have dropped : (whole ++ '.' :: fraction).dropWhile Char.isDigit = '.' :: fraction := by
    rw [List.dropWhile_append_of_pos wholeDigits, List.dropWhile_cons_of_neg (by decide)]
  simp only [ofPlain, taken, dropped]
  exact if_pos ⟨trivial, nonempty, places, List.all_eq_true.mpr fractionDigits⟩

/-- A non-negative decimal with one to six places is printed without an exponent: its last digits stand after
the point, behind zeros where they are fewer than the places. -/
theorem toList_str (coefficient : ℕ) {places : ℕ} (fractional : 1 ≤ places) (few : places ≤ 6) :
    let digits := Nat.toDigits 10 coefficient
    (⟨coefficient, -places⟩ : Decimal).str.toList =
      if digits.length ≤ places then '0' :: '.' :: (List.replicate (places - digits.length) '0' ++ digits)
      else digits.take (digits.length - places) ++ '.' :: digits.drop (digits.length - places) := by
  intro digits
  have written : (toString coefficient).toList = digits := Nat.toList_repr
  have printedDigits : 0 < digits.length := Nat.length_toDigits_pos
  have nonneg : ¬ (coefficient : ℤ) < 0 := by omega
  have plain : -(places : ℤ) ≤ 0 ∧ -6 < -(places : ℤ) + digits.length := by omega
  simp only [str, Int.natAbs_natCast, written, if_neg nonneg, if_pos plain, if_true, String.toList_append,
    String.toList_ofList, String.toList_empty, List.nil_append, List.append_nil]
  by_cases short : digits.length ≤ places
  · have zeros : (-(-(places : ℤ) + digits.length)).toNat = places - digits.length := by omega
    rw [if_pos (by omega), if_pos short, zeros]
    rfl
  · have point : (-(places : ℤ) + digits.length).toNat = digits.length - places := by omega
    rw [if_neg (by omega), if_neg (by omega), if_neg short, point]

/-- So it is printed as two runs of digits around a point. -/
theorem exists_str (coefficient : ℕ) {places : ℕ} (fractional : 1 ≤ places) (few : places ≤ 6) : ∃ whole fraction : List Char,
    (⟨coefficient, -places⟩ : Decimal).str.toList = whole ++ '.' :: fraction ∧ (∀ c ∈ whole, c.isDigit) ∧
      (∀ c ∈ fraction, c.isDigit) ∧ whole ≠ [] ∧ fraction.length = places ∧
      Nat.ofDigitChars 10 (whole ++ fraction) 0 = coefficient := by
  have printed := toList_str coefficient fractional few
  have value : Nat.ofDigitChars 10 (Nat.toDigits 10 coefficient) 0 = coefficient := Nat.ofDigitChars_ten_toDigits
  have areDigits : ∀ c ∈ Nat.toDigits 10 coefficient, c.isDigit :=
    fun c member => Nat.isDigit_of_mem_toDigits (by decide) (by decide) member
  generalize Nat.toDigits 10 coefficient = digits at printed value areDigits
  rw [printed]
  split_ifs with short
  · refine ⟨['0'], List.replicate (places - digits.length) '0' ++ digits, rfl, ?_, ?_, List.cons_ne_nil _ _, ?_, ?_⟩
    · intro c member
      rw [List.mem_singleton.mp member]
      decide
    · intro c member
      rcases List.mem_append.mp member with zero | digit
      · rw [List.eq_of_mem_replicate zero]
        decide
      · exact areDigits c digit
    · rw [List.length_append, List.length_replicate]
      omega
    · change Nat.ofDigitChars 10 (List.replicate (places - digits.length + 1) '0' ++ digits) 0 = _
      rw [Nat.ofDigitChars_append, Nat.ofDigitChars_replicate_zero, Nat.mul_zero, value]
  · refine ⟨_, _, rfl, ?_, ?_, ?_, ?_, ?_⟩
    · exact fun c member => areDigits c (List.mem_of_mem_take member)
    · exact fun c member => areDigits c (List.mem_of_mem_drop member)
    · intro empty
      have lengths := congrArg List.length empty
      rw [List.length_take] at lengths
      simp only [List.length_nil] at lengths
      omega
    · rw [List.length_drop]
      omega
    · rw [List.take_append_drop]
      exact value

/-- What is printed reads back as the same decimal. -/
theorem ofPlain_str (coefficient : ℕ) {places : ℕ} (fractional : 1 ≤ places) (few : places ≤ 6) :
    ofPlain (⟨coefficient, -places⟩ : Decimal).str.toList = some ⟨coefficient, -places⟩ := by
  obtain ⟨whole, fraction, printed, wholeDigits, fractionDigits, nonempty, length, value⟩ :=
    exists_str coefficient fractional few
  have decimals : fraction ≠ [] := by
    rintro rfl
    rw [List.length_nil] at length
    omega
  rw [printed, ofPlain_point wholeDigits fractionDigits nonempty decimals, value, length]

end Decimal
