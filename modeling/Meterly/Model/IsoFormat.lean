import Meterly.Model.Calendar

/-! # ISO timestamps determine their instants

Every field of `isoformat` has a fixed width, so the timestamp of a UTC datetime can be read by the
positions of its digits; what is read is the instant that was written, to the microsecond.
-/

namespace Meterly

/-- The years of a `datetime`. -/
def IsDatetime (t : Instant) : Prop := 1 ≤ (utcDate t).year ∧ (utcDate t).year ≤ 9999

instance (t : Instant) : Decidable (IsDatetime t) := inferInstanceAs (Decidable (_ ∧ _))

/-- The number written at a position. -/
def digitsAt (text : List Char) (position width : ℕ) : ℤ := Nat.ofDigitChars 10 ((text.drop position).take width) 0

/-- The instant of a timestamp, with or without a fraction of a second. -/
def readIsoformatUtc (text : List Char) : Instant :=
  ordinalInstant (⟨digitsAt text 0 4, digitsAt text 5 2, digitsAt text 8 2⟩ : CalendarDate).toOrdinal +
    ((digitsAt text 11 2 * 60 + digitsAt text 14 2) * 60 + digitsAt text 17 2) * microsecondsPerSecond +
    (if text[19]? = some '.' then digitsAt text 20 6 else 0)

theorem toList_zeroPadded (width : ℕ) (n : ℤ) : (zeroPadded width n).toList =
    List.replicate (width - (Nat.toDigits 10 n.toNat).length) '0' ++ Nat.toDigits 10 n.toNat := by
  have written : (toString n.toNat).toList = Nat.toDigits 10 n.toNat := Nat.toList_repr
  rw [zeroPadded, String.toList_append, String.toList_ofList, written, ← String.length_toList, written]

theorem isDigit_of_mem_zeroPadded {width : ℕ} {n : ℤ} {c : Char} (member : c ∈ (zeroPadded width n).toList) :
    c.isDigit := by
  rw [toList_zeroPadded] at member
  rcases List.mem_append.mp member with zero | digit
  · rw [List.eq_of_mem_replicate zero]
    decide
  · exact Nat.isDigit_of_mem_toDigits (by decide) (by decide) digit

/-- A number that fits fills its field exactly. -/
theorem zeroPadded_spec (width : ℕ) {n : ℤ} (nonneg : 0 ≤ n) (positive : 0 < width) (fits : n < 10 ^ width) :
    (zeroPadded width n).toList.length = width ∧ (Nat.ofDigitChars 10 (zeroPadded width n).toList 0 : ℤ) = n := by
  have small : n.toNat < 10 ^ width := by
    zify
    rwa [Int.toNat_of_nonneg nonneg]
  have short := (Nat.length_toDigits_le_iff (by decide) positive).mpr small
  rw [toList_zeroPadded]
  refine ⟨?_, ?_⟩
  · rw [List.length_append, List.length_replicate]
    omega
  · rw [Nat.ofDigitChars_append, Nat.ofDigitChars_replicate_zero, Nat.mul_zero, Nat.ofDigitChars_ten_toDigits,
      Int.toNat_of_nonneg nonneg]

theorem zeroPadded_two {n : ℤ} (nonneg : 0 ≤ n) (fits : n < 100) :
    ∃ a b, (zeroPadded 2 n).toList = [a, b] ∧ (Nat.ofDigitChars 10 [a, b] 0 : ℤ) = n := by
  obtain ⟨length, value⟩ := zeroPadded_spec 2 nonneg (by decide) fits
  obtain ⟨a, b, written⟩ := List.length_eq_two.mp length
  exact ⟨a, b, written, written ▸ value⟩

theorem zeroPadded_four {n : ℤ} (nonneg : 0 ≤ n) (fits : n < 10000) :
    ∃ a b c d, (zeroPadded 4 n).toList = [a, b, c, d] ∧ (Nat.ofDigitChars 10 [a, b, c, d] 0 : ℤ) = n := by
  obtain ⟨length, value⟩ := zeroPadded_spec 4 nonneg (by decide) fits
  match written : (zeroPadded 4 n).toList, length with
  | [a, b, c, d], _ => exact ⟨a, b, c, d, rfl, written ▸ value⟩

theorem zeroPadded_six {n : ℤ} (nonneg : 0 ≤ n) (fits : n < 1000000) : ∃ a b c d e f,
    (zeroPadded 6 n).toList = [a, b, c, d, e, f] ∧ (Nat.ofDigitChars 10 [a, b, c, d, e, f] 0 : ℤ) = n := by
  obtain ⟨length, value⟩ := zeroPadded_spec 6 nonneg (by decide) fits
  match written : (zeroPadded 6 n).toList, length with
  | [a, b, c, d, e, f], _ => exact ⟨a, b, c, d, e, f, rfl, written ▸ value⟩

/-- Days, hours, minutes, seconds and microseconds add up to the instant. -/
theorem instant_of_fields (t : Instant) :
    ordinalInstant (epochOrdinal + t / microsecondsPerDay) +
      ((t % microsecondsPerDay / microsecondsPerSecond / 3600 * 60 +
        t % microsecondsPerDay / microsecondsPerSecond / 60 % 60) * 60 +
        t % microsecondsPerDay / microsecondsPerSecond % 60) * microsecondsPerSecond +
      t % microsecondsPerDay % microsecondsPerSecond = t := by
  simp only [ordinalInstant, microsecondsPerDay, microsecondsPerHour, microsecondsPerSecond]
  change (_ : ℤ) = _
  omega

/-- A timestamp begins with a digit. -/
theorem isoformatUtc_head (t : Instant) : ∃ c rest, (isoformatUtc t).toList = c :: rest ∧ c.isDigit := by
  have nonempty : (zeroPadded 4 (utcDate t).year).toList ≠ [] := by
    rw [toList_zeroPadded]
    exact List.append_ne_nil_of_right_ne_nil _ Nat.toDigits_ne_nil
  obtain ⟨c, others, written⟩ := List.exists_cons_of_ne_nil nonempty
  have digit : c.isDigit := isDigit_of_mem_zeroPadded (written ▸ List.mem_cons_self)
  simp only [isoformatUtc, String.toList_append, written, List.cons_append]
  exact ⟨c, _, rfl, digit⟩

/-- A timestamp is read by the positions of its digits. -/
theorem readIsoformatUtc_digits {y₁ y₂ y₃ y₄ m₁ m₂ d₁ d₂ h₁ h₂ n₁ n₂ s₁ s₂ : Char} (rest : List Char) :
    readIsoformatUtc (y₁ :: y₂ :: y₃ :: y₄ :: '-' :: m₁ :: m₂ :: '-' :: d₁ :: d₂ :: 'T' :: h₁ :: h₂ :: ':' ::
        n₁ :: n₂ :: ':' :: s₁ :: s₂ :: rest) =
      ordinalInstant (⟨Nat.ofDigitChars 10 [y₁, y₂, y₃, y₄] 0, Nat.ofDigitChars 10 [m₁, m₂] 0,
          Nat.ofDigitChars 10 [d₁, d₂] 0⟩ : CalendarDate).toOrdinal +
        (((Nat.ofDigitChars 10 [h₁, h₂] 0 : ℤ) * 60 + (Nat.ofDigitChars 10 [n₁, n₂] 0 : ℤ)) * 60 +
          (Nat.ofDigitChars 10 [s₁, s₂] 0 : ℤ)) * microsecondsPerSecond +
        (if rest[0]? = some '.' then (Nat.ofDigitChars 10 ((rest.drop 1).take 6) 0 : ℤ) else 0) := rfl

/-- The fields of a timestamp are read back, whatever follows its seconds. -/
theorem readIsoformatUtc_fields {date : CalendarDate} {hour minute second : ℤ} (rest : List Char)
    (year : 0 ≤ date.year ∧ date.year < 10000) (month : 0 ≤ date.month ∧ date.month < 100)
    (day : 0 ≤ date.day ∧ date.day < 100) (hours : 0 ≤ hour ∧ hour < 100) (minutes : 0 ≤ minute ∧ minute < 100)
    (seconds : 0 ≤ second ∧ second < 100) :
    readIsoformatUtc ((zeroPadded 4 date.year).toList ++ '-' :: ((zeroPadded 2 date.month).toList ++
        '-' :: ((zeroPadded 2 date.day).toList ++ 'T' :: ((zeroPadded 2 hour).toList ++
          ':' :: ((zeroPadded 2 minute).toList ++ ':' :: ((zeroPadded 2 second).toList ++ rest)))))) =
      ordinalInstant date.toOrdinal + ((hour * 60 + minute) * 60 + second) * microsecondsPerSecond +
        (if rest[0]? = some '.' then (Nat.ofDigitChars 10 ((rest.drop 1).take 6) 0 : ℤ) else 0) := by
  obtain ⟨y₁, y₂, y₃, y₄, yearText, yearValue⟩ := zeroPadded_four year.1 year.2
  obtain ⟨m₁, m₂, monthText, monthValue⟩ := zeroPadded_two month.1 month.2
  obtain ⟨d₁, d₂, dayText, dayValue⟩ := zeroPadded_two day.1 day.2
  obtain ⟨h₁, h₂, hourText, hourValue⟩ := zeroPadded_two hours.1 hours.2
  obtain ⟨n₁, n₂, minuteText, minuteValue⟩ := zeroPadded_two minutes.1 minutes.2
  obtain ⟨s₁, s₂, secondText, secondValue⟩ := zeroPadded_two seconds.1 seconds.2
  rw [yearText, monthText, dayText, hourText, minuteText, secondText]
  apply (readIsoformatUtc_digits rest).trans
  rw [yearValue, monthValue, dayValue, hourValue, minuteValue, secondValue]

/-- The fraction of a second is read back, written or left out. -/
theorem read_fraction {part : ℤ} (nonneg : 0 ≤ part) (fits : part < 1000000) {rest : List Char}
    (written : rest = (if part = 0 then "" else "." ++ zeroPadded 6 part).toList ++ "+00:00".toList) :
    (if rest[0]? = some '.' then (Nat.ofDigitChars 10 ((rest.drop 1).take 6) 0 : ℤ) else 0) = part := by
  subst written
  by_cases whole : part = 0
  · simp [whole]
  · obtain ⟨f₁, f₂, f₃, f₄, f₅, f₆, digits, value⟩ := zeroPadded_six nonneg fits
    rw [if_neg whole, String.toList_append, digits]
    exact value

/-- Reading a timestamp gives the instant that was written. -/
theorem readIsoformatUtc_isoformatUtc {t : Instant} (valid : IsDatetime t) :
    readIsoformatUtc (isoformatUtc t).toList = t := by
  obtain ⟨yearLower, yearUpper⟩ := valid
  obtain ⟨-, ⟨monthLower, monthUpper⟩, dayLower, dayUpper⟩ : (utcDate t).Valid := valid_ordinalToDate yearLower
  have short := daysInMonthOf_le (utcDate t).year (utcDate t).month
  have ordinal : (utcDate t).toOrdinal = epochOrdinal + t / microsecondsPerDay := toOrdinal_ordinalToDate _
  have fields := instant_of_fields t
  obtain ⟨micros, rest⟩ : ∃ micros : ℤ, micros = t % microsecondsPerDay := ⟨_, rfl⟩
  have lower : 0 ≤ micros := rest ▸ Int.emod_nonneg _ (by decide)
  have upper : micros < 86400000000 := rest ▸ Int.emod_lt_of_pos _ (by decide)
  rw [← ordinal, ← rest] at fields
  have dash : "-".toList = ['-'] := rfl
  have designator : "T".toList = ['T'] := rfl
  have colon : ":".toList = [':'] := rfl
  simp only [isoformatUtc, ← rest, String.toList_append, List.append_assoc, dash, designator, colon,
    List.singleton_append]
  have seconds : 0 ≤ micros / microsecondsPerSecond ∧ micros / microsecondsPerSecond < 86400 := by
    rw [microsecondsPerSecond]
    omega
  have fraction : 0 ≤ micros % microsecondsPerSecond ∧ micros % microsecondsPerSecond < 1000000 := by
    rw [microsecondsPerSecond]
    omega
  refine (readIsoformatUtc_fields _ ⟨by omega, by omega⟩ ⟨by omega, by omega⟩ ⟨by omega, by omega⟩
    ⟨by omega, by omega⟩ ⟨by omega, by omega⟩ ⟨by omega, by omega⟩).trans ?_
  rw [read_fraction fraction.1 fraction.2 rfl]
  exact fields

end Meterly
