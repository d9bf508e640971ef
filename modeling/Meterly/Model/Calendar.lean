import Meterly.Model.DailyDate

/-! # Dates and ordinals are the same thing

`ordinalToDate` splits an ordinal into cycles of 400, 100, 4 and 1 years and the day of the year,
and corrects an estimated month; `toOrdinal` adds up days before the year, the month and the day.
Both are the year and its day: the cycles add up to the days before the year, and within a year,
leap or not, month and day correspond to the day of the year. So the UTC day of an instant is a
calendar date exactly when the ordinals agree, across month ends and leap days alike.
-/

namespace Meterly

/-- A date of the Gregorian calendar, from year 1 on. -/
structure CalendarDate.Valid (date : CalendarDate) : Prop where
  year : 1 ≤ date.year
  month : 1 ≤ date.month ∧ date.month ≤ 12
  day : 1 ≤ date.day ∧ date.day ≤ daysInMonthOf date.year date.month

/-- Days before the first day of the year after `year`. -/
def daysBeforeYear (year : ℤ) : ℤ := year * 365 + year / 4 - year / 100 + year / 400

/-- Days before a date within its year. -/
def dayOfYear (leap : Bool) (month day : ℤ) : ℤ :=
  daysBeforeMonth month + (if month > 2 ∧ leap then 1 else 0) + day - 1

/-- The month and the day of a day of the year. -/
def monthAndDay (leap : Bool) (n : ℤ) : ℤ × ℤ :=
  let month := (n + 50) / 32
  let preceding := daysBeforeMonth month + (if month > 2 ∧ leap then 1 else 0)
  if preceding > n then (month - 1, n - (daysBeforeMonth (month - 1) + (if month - 1 > 2 ∧ leap then 1 else 0)) + 1)
  else (month, n - preceding + 1)

/-- The number of days of a month, in a leap year or not. -/
def monthLength (leap : Bool) (month : ℤ) : ℤ :=
  if month = 2 && leap then 29 else daysInMonth.getD (month - 1).toNat 0

theorem toOrdinal_eq (date : CalendarDate) :
    date.toOrdinal = daysBeforeYear (date.year - 1) + dayOfYear (isLeapYear date.year) date.month date.day + 1 := by
  simp only [CalendarDate.toOrdinal, daysBeforeYear, dayOfYear]
  omega

theorem dayOfYear_monthAndDay : ∀ leap : Bool, ∀ n : Fin 366, n < 365 ∨ leap →
    1 ≤ (monthAndDay leap n).1 ∧ (monthAndDay leap n).1 ≤ 12 ∧ 1 ≤ (monthAndDay leap n).2 ∧
      (monthAndDay leap n).2 ≤ monthLength leap (monthAndDay leap n).1 ∧
      dayOfYear leap (monthAndDay leap n).1 (monthAndDay leap n).2 = n := by
  decide +kernel

theorem monthAndDay_dayOfYear : ∀ leap : Bool, ∀ month : Fin 12, ∀ day : Fin 31,
    (day + 1 : ℤ) ≤ monthLength leap (month + 1) →
      monthAndDay leap (dayOfYear leap (month + 1) (day + 1)) = ((month + 1 : ℤ), (day + 1 : ℤ)) ∧
        0 ≤ dayOfYear leap (month + 1) (day + 1) ∧
        dayOfYear leap (month + 1) (day + 1) < 365 + (if leap then 1 else 0) := by
  decide +kernel

/-- The length of the year after `year`, in days before the years. -/
theorem daysBeforeYear_succ (year : ℤ) :
    daysBeforeYear (year + 1) = daysBeforeYear year + 365 + (if isLeapYear (year + 1) then 1 else 0) := by
  simp only [daysBeforeYear, isLeapYear, Bool.and_eq_true, Bool.or_eq_true, decide_eq_true_eq]
  split_ifs with leap
  · omega
  · omega

theorem daysBeforeYear_mono {earlier later : ℤ} (le : earlier ≤ later) :
    daysBeforeYear earlier ≤ daysBeforeYear later := by
  simp only [daysBeforeYear]
  omega

/-- The days before a year, by its cycles. -/
theorem daysBeforeYear_cycles (n400 : ℤ) {n100 n4 n1 : ℤ} (bound100 : 0 ≤ n100 ∧ n100 ≤ 3)
    (bound4 : 0 ≤ n4 ∧ n4 ≤ 24) (bound1 : 0 ≤ n1 ∧ n1 ≤ 3) :
    daysBeforeYear (400 * n400 + 100 * n100 + 4 * n4 + n1) =
      146097 * n400 + 36524 * n100 + 1461 * n4 + 365 * n1 := by
  have fours : (400 * n400 + 100 * n100 + 4 * n4 + n1) / 4 = 100 * n400 + 25 * n100 + n4 := by omega
  have centuries : (400 * n400 + 100 * n100 + 4 * n4 + n1) / 100 = 4 * n400 + n100 := by omega
  have cycles : (400 * n400 + 100 * n100 + 4 * n4 + n1) / 400 = n400 := by omega
  rw [daysBeforeYear, fours, centuries, cycles]
  ring

/-- An ordinal is the days before its year and the day of that year, and its date is found there. -/
theorem exists_ordinalToDate (ordinal : ℤ) : ∃ year day : ℤ, ordinal = daysBeforeYear year + day + 1 ∧ 0 ≤ day ∧
    day < 365 + (if isLeapYear (year + 1) then 1 else 0) ∧
    ordinalToDate ordinal = ⟨year + 1, (monthAndDay (isLeapYear (year + 1)) day).1,
      (monthAndDay (isLeapYear (year + 1)) day).2⟩ := by
  obtain ⟨n400, rest400, split400, bound400⟩ : ∃ q r, ordinal - 1 = 146097 * q + r ∧ 0 ≤ r ∧ r < 146097 :=
    ⟨(ordinal - 1) / 146097, (ordinal - 1) % 146097, by omega, by omega⟩
  obtain ⟨n100, rest100, split100, bound100⟩ : ∃ q r, rest400 = 36524 * q + r ∧ 0 ≤ r ∧ r < 36524 :=
    ⟨rest400 / 36524, rest400 % 36524, by omega, by omega⟩
  obtain ⟨n4, rest4, split4, bound4⟩ : ∃ q r, rest100 = 1461 * q + r ∧ 0 ≤ r ∧ r < 1461 :=
    ⟨rest100 / 1461, rest100 % 1461, by omega, by omega⟩
  obtain ⟨n1, day, split1, bound1⟩ : ∃ q r, rest4 = 365 * q + r ∧ 0 ≤ r ∧ r < 365 :=
    ⟨rest4 / 365, rest4 % 365, by omega, by omega⟩
  have quotient400 : (ordinal - 1) / 146097 = n400 := by omega
  have remainder400 : (ordinal - 1) % 146097 = rest400 := by omega
  have quotient100 : rest400 / 36524 = n100 := by omega
  have remainder100 : rest400 % 36524 = rest100 := by omega
  have quotient4 : rest100 / 1461 = n4 := by omega
  have remainder4 : rest100 % 1461 = rest4 := by omega
  have quotient1 : rest4 / 365 = n1 := by omega
  have remainder1 : rest4 % 365 = day := by omega
  simp only [ordinalToDate, quotient400, remainder400, quotient100, remainder100, quotient4, remainder4, quotient1,
    remainder1]
  by_cases last : n1 = 4 ∨ n100 = 4
  · -- December 31 of a leap year, where the day of the year is 365.
    have leap : isLeapYear (400 * n400 + 100 * n100 + 4 * n4 + n1 - 1 + 1) = true := by
      simp only [isLeapYear, Bool.and_eq_true, Bool.or_eq_true, decide_eq_true_eq]
      omega
    refine ⟨400 * n400 + 100 * n100 + 4 * n4 + n1 - 1, 365, ?_, by decide, ?_, ?_⟩
    · obtain ⟨rfl, rfl⟩ | ⟨rfl, rfl, rfl, rfl⟩ : n1 = 4 ∧ day = 0 ∨ n100 = 4 ∧ n4 = 0 ∧ n1 = 0 ∧ day = 0 := by omega
      · rw [show 400 * n400 + 100 * n100 + 4 * n4 + 4 - 1 = 400 * n400 + 100 * n100 + 4 * n4 + 3 by ring,
          daysBeforeYear_cycles n400 (by omega) (by omega) (by decide)]
        omega
      · rw [show 400 * n400 + 100 * 4 + 4 * 0 + 0 - 1 = 400 * n400 + 100 * 3 + 4 * 24 + 3 by ring,
          daysBeforeYear_cycles n400 (by decide) (by decide) (by decide)]
        omega
    · rw [leap]
      decide
    · rw [if_pos last, leap, CalendarDate.mk.injEq]
      exact ⟨by omega, by decide, by decide⟩
  · have leap : (n1 = 3 ∧ (n4 ≠ 24 ∨ n100 = 3)) ↔ isLeapYear (400 * n400 + 100 * n100 + 4 * n4 + n1 + 1) = true := by
      simp only [isLeapYear, Bool.and_eq_true, Bool.or_eq_true, decide_eq_true_eq]
      omega
    refine ⟨400 * n400 + 100 * n100 + 4 * n4 + n1, day, ?_, bound1.1, ?_, ?_⟩
    · rw [daysBeforeYear_cycles n400 (by omega) (by omega) (by omega)]
      omega
    · split_ifs <;> omega
    · have year : n400 * 400 + 1 + n100 * 100 + n4 * 4 + n1 = 400 * n400 + 100 * n100 + 4 * n4 + n1 + 1 := by ring
      rw [if_neg last, year]
      simp only [leap, monthAndDay]
      split_ifs <;> rfl

/-- The year and the day of the year are determined by the ordinal. -/
theorem daysBeforeYear_unique {year other day otherDay : ℤ}
    (bound : 0 ≤ day ∧ day < 365 + (if isLeapYear (year + 1) then 1 else 0))
    (otherBound : 0 ≤ otherDay ∧ otherDay < 365 + (if isLeapYear (other + 1) then 1 else 0))
    (same : daysBeforeYear year + day = daysBeforeYear other + otherDay) : year = other ∧ day = otherDay := by
  have length := daysBeforeYear_succ year
  have otherLength := daysBeforeYear_succ other
  rcases lt_trichotomy year other with earlier | rfl | later
  · have after := daysBeforeYear_mono (show year + 1 ≤ other from earlier)
    omega
  · exact ⟨rfl, by omega⟩
  · have after := daysBeforeYear_mono (show other + 1 ≤ year from later)
    omega

theorem exists_dayOfYear {leap : Bool} {day : ℤ} (lower : 0 ≤ day) (upper : day < 365 + (if leap then 1 else 0)) :
    ∃ n : Fin 366, day = n ∧ (n < 365 ∨ leap) := by
  split_ifs at upper with isLeap
  · exact ⟨⟨day.toNat, by omega⟩, (Int.toNat_of_nonneg lower).symm, .inr isLeap⟩
  · refine ⟨⟨day.toNat, by omega⟩, (Int.toNat_of_nonneg lower).symm, .inl ?_⟩
    simp only [Fin.lt_def]
    omega

theorem toOrdinal_ordinalToDate (ordinal : ℤ) : (ordinalToDate ordinal).toOrdinal = ordinal := by
  obtain ⟨year, day, rfl, lower, upper, date⟩ := exists_ordinalToDate ordinal
  obtain ⟨n, rfl, inYear⟩ := exists_dayOfYear lower upper
  obtain ⟨-, -, -, -, same⟩ := dayOfYear_monthAndDay (isLeapYear (year + 1)) n inYear
  rw [date, toOrdinal_eq, same, add_sub_cancel_right]

/-- The date of an ordinal is one of the calendar, when its year is. -/
theorem valid_ordinalToDate {ordinal : ℤ} (year : 1 ≤ (ordinalToDate ordinal).year) : (ordinalToDate ordinal).Valid := by
  obtain ⟨before, day, rfl, lower, upper, date⟩ := exists_ordinalToDate ordinal
  obtain ⟨n, rfl, inYear⟩ := exists_dayOfYear lower upper
  obtain ⟨monthLower, monthUpper, dayLower, dayUpper, -⟩ := dayOfYear_monthAndDay (isLeapYear (before + 1)) n inYear
  rw [date] at year ⊢
  exact ⟨year, ⟨monthLower, monthUpper⟩, dayLower, dayUpper⟩

theorem daysInMonthOf_le (year month : ℤ) : daysInMonthOf year month ≤ 31 := by
  rw [daysInMonthOf]
  split_ifs
  · decide
  · rcases lt_or_ge (month - 1).toNat 12 with inYear | beyond
    · have short : ∀ n : Fin 12, daysInMonth.getD n 0 ≤ 31 := by decide
      exact short ⟨(month - 1).toNat, inYear⟩
    · rw [List.getD_eq_getElem?_getD, List.getElem?_eq_none beyond]
      decide

namespace CalendarDate.Valid

variable {date : CalendarDate}

theorem monthAndDay_dayOfYear (valid : date.Valid) :
    monthAndDay (isLeapYear date.year) (dayOfYear (isLeapYear date.year) date.month date.day) = (date.month, date.day) ∧
      0 ≤ dayOfYear (isLeapYear date.year) date.month date.day ∧
      dayOfYear (isLeapYear date.year) date.month date.day < 365 + (if isLeapYear date.year then 1 else 0) := by
  obtain ⟨-, ⟨monthLower, monthUpper⟩, dayLower, dayUpper⟩ := valid
  have short := daysInMonthOf_le date.year date.month
  obtain ⟨month, sameMonth⟩ : ∃ month : Fin 12, (month + 1 : ℤ) = date.month :=
    ⟨⟨(date.month - 1).toNat, by omega⟩, by simp only; omega⟩
  have length : daysInMonthOf date.year date.month = monthLength (isLeapYear date.year) (month + 1) := by
    rw [sameMonth]
    rfl
  obtain ⟨day, sameDay⟩ : ∃ day : Fin 31, (day + 1 : ℤ) = date.day :=
    ⟨⟨(date.day - 1).toNat, by omega⟩, by simp only; omega⟩
  have inverse := Meterly.monthAndDay_dayOfYear (isLeapYear date.year) month day (by omega)
  rwa [sameMonth, sameDay] at inverse

theorem ordinalToDate_toOrdinal (valid : date.Valid) : ordinalToDate date.toOrdinal = date := by
  obtain ⟨year, day, ordinal, lower, upper, found⟩ := exists_ordinalToDate date.toOrdinal
  obtain ⟨inverse, nonneg, bounded⟩ := valid.monthAndDay_dayOfYear
  have ownYear : date.year - 1 + 1 = date.year := by ring
  rw [toOrdinal_eq] at ordinal
  obtain ⟨rfl, rfl⟩ := daysBeforeYear_unique ⟨nonneg, by rwa [ownYear]⟩ ⟨lower, upper⟩ (by omega)
  rw [found, ownYear, inverse]

/-- An instant lies on a date exactly when its day has the ordinal of the date. -/
theorem utcDate_eq_iff (valid : date.Valid) {t : Instant} :
    utcDate t = date ↔ epochOrdinal + t / microsecondsPerDay = date.toOrdinal := by
  constructor
  · rintro rfl
    exact (toOrdinal_ordinalToDate _).symm
  · intro same
    rw [utcDate, same, valid.ordinalToDate_toOrdinal]

end CalendarDate.Valid

end Meterly
