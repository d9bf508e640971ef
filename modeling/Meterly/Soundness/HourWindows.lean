import Mathlib.Order.Bounds.Basic
import Meterly.Model.IsoFormat
import Meterly.Num.Binary64
import Meterly.Soundness.DailyLog

/-! # Hour windows and the time to the next one

Arithmetic on a `datetime` raises where the reading that it comes to has no year between 1 and 9999. The
seconds up to the end of an hour are a quotient of integers, which is rounded to a `float` before its ceiling
is taken.

The floor of a datetime is the multiple of an hour at or below its instant. What is left of the hour is at
least a microsecond and at most an hour; in this range a `float` keeps fractions of a second much finer than a
microsecond, so that the ceiling is that of the exact quotient. The seconds that it gives are the first whole
number of seconds that reaches the next hour.
-/

namespace Meterly

/-! ## The code -/

namespace AwareDatetime

/-- `datetime + timedelta`, on the wall clock. -/
def add (d : AwareDatetime) (microseconds : ℤ) : Except ServiceError AwareDatetime :=
  if IsDatetime (d.wall + microseconds) then .ok { d with wall := d.wall + microseconds }
  else .error (.overflowError "date value out of range")

/-- `astimezone(timezone.utc)`, which may leave the range. -/
def astimezoneUtc (d : AwareDatetime) : Except ServiceError AwareDatetime :=
  if IsDatetime d.instant then .ok d.asUtc else .error (.overflowError "date value out of range")

end AwareDatetime

/-- `floor_to_hour_utc` -/
def floorToHourUtcInRange (timestamp : AwareDatetime) : Except ServiceError AwareDatetime := do
  let asUtc ← timestamp.astimezoneUtc
  return asUtc.replaceToHour

/-- `timedelta.total_seconds`, as a `float`. -/
def totalSecondsFloat (microseconds : ℤ) : ℚ := Binary64.round (microseconds / (1000000 : ℕ))

/-- `_seconds_until_next_hour_boundary` -/
def secondsUntilNextHourBoundaryInRange (receivedAt windowStart : AwareDatetime) : Except ServiceError ℤ := do
  let nextWindowStart ← windowStart.add microsecondsPerHour
  return max 1 ⌈totalSecondsFloat (nextWindowStart.instant - receivedAt.instant)⌉

/-! ## What it is to do -/

/-- A UTC datetime with no minutes, seconds and microseconds. -/
def AwareDatetime.IsUtcHour (d : AwareDatetime) : Prop := d.utcOffset = 0 ∧ d.wall % microsecondsPerHour = 0

/-- A timestamp is floored to the one hour boundary that it lies behind by less than an hour. -/
structure FloorsToHour (timestamp hour : AwareDatetime) : Prop where
  returned : floorToHourUtcInRange timestamp = .ok hour
  isUtcHour : hour.IsUtcHour
  within : hour.instant ≤ timestamp.instant ∧ timestamp.instant < hour.instant + microsecondsPerHour
  unique : ∀ other : AwareDatetime, other.IsUtcHour → other.instant ≤ timestamp.instant →
    timestamp.instant < other.instant + microsecondsPerHour → other = hour
  instantOnly : ∀ other : AwareDatetime, other.instant = timestamp.instant → floorToHourUtcInRange other = .ok hour
  idempotent : floorToHourUtcInRange hour = .ok hour
  monotone : ∀ later laterHour, timestamp.instant ≤ later.instant → floorToHourUtcInRange later = .ok laterHour →
    hour.instant ≤ laterHour.instant

/-- The hour of an instant after a wait of some seconds. -/
def hourAfter (t : Instant) (seconds : ℤ) : Except ServiceError AwareDatetime := do
  let later ← (AwareDatetime.ofInstant t).add (seconds * microsecondsPerSecond)
  floorToHourUtcInRange later

/-! ## The range of `datetime` -/

/-- The years of an ordinal are those of a `datetime` from its first to its last day. -/
theorem year_ordinalToDate (ordinal : ℤ) :
    (1 ≤ (ordinalToDate ordinal).year ↔ 1 ≤ ordinal) ∧
      ((ordinalToDate ordinal).year ≤ 9999 ↔ ordinal ≤ maxOrdinal) := by
  obtain ⟨year, day, rfl, lower, upper, date⟩ := exists_ordinalToDate ordinal
  have length := daysBeforeYear_succ year
  have first : daysBeforeYear 0 = 0 := rfl
  have last : daysBeforeYear 9999 = maxOrdinal := rfl
  rw [date]
  change (1 ≤ year + 1 ↔ _) ∧ (year + 1 ≤ 9999 ↔ _)
  constructor
  · constructor
    · intro begun
      have after := daysBeforeYear_mono (show 0 ≤ year by omega)
      omega
    · intro positive
      by_contra before
      have ends := daysBeforeYear_mono (show year + 1 ≤ 0 by omega)
      omega
  · constructor
    · intro within
      have ends := daysBeforeYear_mono (show year + 1 ≤ 9999 by omega)
      omega
    · intro bounded
      by_contra beyond
      have after := daysBeforeYear_mono (show 9999 ≤ year by omega)
      omega

/-- The instants of a `datetime`. -/
theorem isDatetime_iff {t : ℤ} : IsDatetime t ↔ -62135596800000000 ≤ t ∧ t < 253402300800000000 := by
  obtain ⟨first, last⟩ := year_ordinalToDate (epochOrdinal + t / microsecondsPerDay)
  rw [IsDatetime, utcDate, first, last]
  simp only [epochOrdinal, maxOrdinal, microsecondsPerDay, microsecondsPerHour, microsecondsPerSecond]
  omega

/-! ## Flooring -/

theorem floorToHourUtc_eq (d : AwareDatetime) : floorToHourUtc d = ⟨utcHour d.instant * microsecondsPerHour, 0⟩ := by
  have instant := floorToHourUtc_instant d
  rw [← instant, AwareDatetime.instant]
  exact congrArg₂ AwareDatetime.mk (sub_zero _).symm rfl

theorem floorToHourUtcInRange_eq {d : AwareDatetime} (valid : IsDatetime d.instant) :
    floorToHourUtcInRange d = .ok ⟨utcHour d.instant * microsecondsPerHour, 0⟩ := by
  rw [floorToHourUtcInRange, AwareDatetime.astimezoneUtc, if_pos valid, ← floorToHourUtc_eq]
  rfl

theorem floorToHourUtcInRange_ok {d hour : AwareDatetime} (floored : floorToHourUtcInRange d = .ok hour) :
    IsDatetime d.instant ∧ hour = ⟨utcHour d.instant * microsecondsPerHour, 0⟩ := by
  by_cases valid : IsDatetime d.instant
  · rw [floorToHourUtcInRange_eq valid] at floored
    exact ⟨valid, (Except.ok.inj floored).symm⟩
  · rw [floorToHourUtcInRange, AwareDatetime.astimezoneUtc, if_neg valid] at floored
    contradiction

/-- The hour of an instant is the one in which it lies. -/
theorem utcHour_eq_iff {t hour : ℤ} :
    utcHour t = hour ↔ hour * microsecondsPerHour ≤ t ∧ t < hour * microsecondsPerHour + microsecondsPerHour := by
  simp only [utcHour, microsecondsPerHour, microsecondsPerSecond]
  omega

theorem isDatetime_utcHour {t : ℤ} (valid : IsDatetime t) : IsDatetime (utcHour t * microsecondsPerHour) := by
  rw [isDatetime_iff] at valid ⊢
  obtain ⟨lower, upper⟩ := utcHour_eq_iff.mp (rfl : utcHour t = utcHour t)
  simp only [microsecondsPerHour, microsecondsPerSecond] at lower upper ⊢
  omega

@[simp] theorem instant_utc (wall : ℤ) : (⟨wall, 0⟩ : AwareDatetime).instant = wall := sub_zero wall

theorem utcHour_mul (hour : ℤ) : utcHour (hour * microsecondsPerHour) = hour := Int.mul_ediv_cancel _ (by decide)

/-- An hour boundary is that of its own hour. -/
theorem AwareDatetime.IsUtcHour.eq_mk {d : AwareDatetime} (isUtcHour : d.IsUtcHour) :
    d = ⟨utcHour d.instant * microsecondsPerHour, 0⟩ := by
  obtain ⟨wall, utcOffset⟩ := d
  obtain ⟨utc, whole⟩ := isUtcHour
  obtain rfl : utcOffset = 0 := utc
  rw [instant_utc, utcHour, Int.ediv_mul_cancel (Int.dvd_of_emod_eq_zero whole)]

theorem floorsToHour {timestamp : AwareDatetime} (valid : IsDatetime timestamp.instant) :
    FloorsToHour timestamp ⟨utcHour timestamp.instant * microsecondsPerHour, 0⟩ where
  returned := floorToHourUtcInRange_eq valid
  isUtcHour := ⟨rfl, Int.mul_emod_left _ _⟩
  within := by
    rw [instant_utc]
    exact utcHour_eq_iff.mp rfl
  unique other isUtcHour lower upper := by
    have boundary := isUtcHour.eq_mk
    rw [boundary, instant_utc] at lower upper
    rw [utcHour_eq_iff.mpr ⟨lower, upper⟩]
    exact boundary
  instantOnly other same := by
    rw [floorToHourUtcInRange_eq (same ▸ valid), same]
  idempotent := by
    rw [floorToHourUtcInRange_eq (by rw [instant_utc]; exact isDatetime_utcHour valid), instant_utc, utcHour_mul]
  monotone later laterHour le floored := by
    obtain ⟨-, rfl⟩ := floorToHourUtcInRange_ok floored
    rw [instant_utc, instant_utc]
    exact mul_le_mul_of_nonneg_right (Int.ediv_le_ediv (by decide) le) (by decide)

/-! ## Waiting for the next hour -/

/-- What is left of an hour has the same ceiling in seconds as a `float` and as a fraction. -/
theorem ceil_totalSecondsFloat {microseconds : ℤ} (positive : 0 < microseconds)
    (bounded : microseconds ≤ microsecondsPerHour) :
    ⌈totalSecondsFloat microseconds⌉ = ⌈totalSeconds microseconds⌉ := by
  have hour : (microseconds : ℚ) ≤ 3600000000 := by exact_mod_cast bounded
  have place : Binary64.lastPlace (microseconds / (1000000 : ℕ)) ≤ 11 - 52 := by
    refine Binary64.lastPlace_le (div_pos (by exact_mod_cast positive) (by norm_num)) ?_ (by decide)
    rw [div_lt_iff₀ (by norm_num)]
    norm_num
    linarith
  have unit : (2 : ℚ) ^ Binary64.lastPlace (microseconds / (1000000 : ℕ)) ≤ 2 ^ (11 - 52 : ℤ) :=
    zpow_le_zpow_right₀ (by norm_num) place
  refine (Binary64.ceil_round (by decide) (by omega) ?_).trans ?_
  · calc (2 : ℚ) ^ Binary64.lastPlace (microseconds / (1000000 : ℕ)) * (1000000 : ℕ)
        ≤ 2 ^ (11 - 52 : ℤ) * (1000000 : ℕ) := mul_le_mul_of_nonneg_right unit (Nat.cast_nonneg _)
      _ < 2 := by norm_num
  · rw [totalSeconds, microsecondsPerSecond]
    norm_num

/-- The ceiling of a time in seconds. -/
theorem ceil_totalSeconds_eq_iff {microseconds seconds : ℤ} : ⌈totalSeconds microseconds⌉ = seconds ↔
    (seconds - 1) * microsecondsPerSecond < microseconds ∧ microseconds ≤ seconds * microsecondsPerSecond := by
  have positive : (0 : ℚ) < microsecondsPerSecond := by decide +kernel
  rw [Int.ceil_eq_iff, totalSeconds, lt_div_iff₀ positive, div_le_iff₀ positive]
  norm_cast

/-- All instants of an hour are datetimes if its first one is. -/
theorem isDatetime_of_utcHour {t : ℤ} (valid : IsDatetime (utcHour t * microsecondsPerHour)) : IsDatetime t := by
  rw [isDatetime_iff] at valid ⊢
  obtain ⟨lower, upper⟩ := utcHour_eq_iff.mp (rfl : utcHour t = utcHour t)
  simp only [microsecondsPerHour, microsecondsPerSecond] at valid lower upper
  omega

/-- The hour after a wait is that of the instant at its end. -/
theorem hourAfter_eq_ok_iff {t seconds hour : ℤ} (valid : IsDatetime (hour * microsecondsPerHour)) :
    hourAfter t seconds = .ok ⟨hour * microsecondsPerHour, 0⟩ ↔
      utcHour (t + seconds * microsecondsPerSecond) = hour := by
  have later (inRange : IsDatetime (t + seconds * microsecondsPerSecond)) : hourAfter t seconds =
      .ok ⟨utcHour (t + seconds * microsecondsPerSecond) * microsecondsPerHour, 0⟩ := by
    have added : (AwareDatetime.ofInstant t).add (seconds * microsecondsPerSecond) =
        .ok ⟨t + seconds * microsecondsPerSecond, 0⟩ := if_pos inRange
    rw [hourAfter, added, Except.ok_bind, floorToHourUtcInRange_eq (by rwa [instant_utc]), instant_utc]
  constructor
  · intro waited
    by_cases inRange : IsDatetime (t + seconds * microsecondsPerSecond)
    · rw [later inRange] at waited
      have same := congrArg AwareDatetime.wall (Except.ok.inj waited)
      exact mul_right_cancel₀ (by decide) same
    · have failed : (AwareDatetime.ofInstant t).add (seconds * microsecondsPerSecond) =
          .error (.overflowError "date value out of range") := if_neg inRange
      rw [hourAfter, failed, Except.error_bind] at waited
      contradiction
  · rintro rfl
    exact later (isDatetime_of_utcHour valid)

/-- Within the calendar, the seconds are those of the exact quotient. -/
theorem secondsUntilNextHourBoundaryInRange_eq {t : ℤ} (next : IsDatetime ((utcHour t + 1) * microsecondsPerHour)) :
    secondsUntilNextHourBoundaryInRange (.ofInstant t) ⟨utcHour t * microsecondsPerHour, 0⟩ =
      .ok (secondsUntilNextHourBoundary t (utcHour t * microsecondsPerHour)) := by
  obtain ⟨lower, upper⟩ := utcHour_eq_iff.mp (rfl : utcHour t = utcHour t)
  have added : (⟨utcHour t * microsecondsPerHour, 0⟩ : AwareDatetime).add microsecondsPerHour =
      .ok ⟨utcHour t * microsecondsPerHour + microsecondsPerHour, 0⟩ := if_pos (by rwa [add_one_mul] at next)
  have received : (AwareDatetime.ofInstant t).instant = t := sub_zero t
  rw [secondsUntilNextHourBoundaryInRange, added, Except.ok_bind, instant_utc, received,
    ceil_totalSecondsFloat (by omega) (by omega)]
  rfl

/-- The seconds are the first whole number of them that reaches the next hour. -/
theorem secondsUntilNextHourBoundary_spec (t : ℤ) :
    1 ≤ secondsUntilNextHourBoundary t (utcHour t * microsecondsPerHour) ∧
      secondsUntilNextHourBoundary t (utcHour t * microsecondsPerHour) ≤ 3600 ∧
      IsLeast {seconds : ℤ | utcHour (t + seconds * microsecondsPerSecond) = utcHour t + 1}
        (secondsUntilNextHourBoundary t (utcHour t * microsecondsPerHour)) := by
  obtain ⟨lower, upper⟩ := utcHour_eq_iff.mp (rfl : utcHour t = utcHour t)
  obtain ⟨seconds, ceil⟩ : ∃ seconds,
      ⌈totalSeconds (utcHour t * microsecondsPerHour + microsecondsPerHour - t)⌉ = seconds := ⟨_, rfl⟩
  obtain ⟨short, long⟩ := ceil_totalSeconds_eq_iff.mp ceil
  simp only [microsecondsPerHour, microsecondsPerSecond] at lower upper short long
  have atLeastOne : 1 ≤ seconds := by omega
  rw [secondsUntilNextHourBoundary, ceil, max_eq_right atLeastOne]
  refine ⟨atLeastOne, by omega, ?_, fun other waited => ?_⟩
  · rw [Set.mem_ofPred_eq, utcHour_eq_iff]
    simp only [microsecondsPerHour, microsecondsPerSecond]
    omega
  · rw [Set.mem_ofPred_eq, utcHour_eq_iff] at waited
    simp only [microsecondsPerHour, microsecondsPerSecond] at waited
    omega

/-- Timestamps are floored to their hour, and a wait of the seconds that are returned ends in the next one. -/
theorem hour_windows_fit_retry_after :
    (∀ timestamp : AwareDatetime, IsDatetime timestamp.instant → ∃ hour, FloorsToHour timestamp hour) ∧
    ∀ (t : Instant) (window : AwareDatetime), floorToHourUtcInRange (.ofInstant t) = .ok window →
      IsDatetime (window.wall + microsecondsPerHour) →
      ∃ seconds, secondsUntilNextHourBoundaryInRange (.ofInstant t) window = .ok seconds ∧
        1 ≤ seconds ∧ seconds ≤ 3600 ∧
        IsLeast {wait | hourAfter t wait = .ok { window with wall := window.wall + microsecondsPerHour }} seconds := by
  refine ⟨fun timestamp valid => ⟨_, floorsToHour valid⟩, fun t window floored next => ?_⟩
  obtain ⟨-, rfl⟩ := floorToHourUtcInRange_ok floored
  have received : (AwareDatetime.ofInstant t).instant = t := sub_zero t
  rw [received] at next ⊢
  have following : utcHour t * microsecondsPerHour + microsecondsPerHour = (utcHour t + 1) * microsecondsPerHour :=
    (add_one_mul _ _).symm
  simp only [following] at next ⊢
  simp only [hourAfter_eq_ok_iff next]
  exact ⟨_, secondsUntilNextHourBoundaryInRange_eq next, secondsUntilNextHourBoundary_spec t⟩

/-- The last microsecond of an hour, and the first one of the next. -/
theorem hour_windows_fit_retry_after_across_boundary :
    (∃ hour, FloorsToHour ⟨1773597599999999 - 12600000000, -12600000000⟩ hour) ∧
      ∃ seconds, secondsUntilNextHourBoundaryInRange (.ofInstant 1773597600000000) ⟨1773597600000000, 0⟩ = .ok seconds ∧
        1 ≤ seconds ∧ seconds ≤ 3600 ∧
        IsLeast {wait | hourAfter 1773597600000000 wait = .ok ⟨1773597600000000 + microsecondsPerHour, 0⟩} seconds :=
  ⟨hour_windows_fit_retry_after.1 _ (by decide +kernel),
    hour_windows_fit_retry_after.2 _ _ (by decide +kernel) (by decide +kernel)⟩

/-- In the last hour of the calendar there is no next boundary to compute with. -/
theorem no_retry_after_in_last_hour :
    floorToHourUtcInRange (.ofInstant 253402299000000000) = .ok ⟨253402297200000000, 0⟩ ∧
      ¬ ∃ seconds, secondsUntilNextHourBoundaryInRange (.ofInstant 253402299000000000) ⟨253402297200000000, 0⟩ =
        .ok seconds := by
  have overflows : secondsUntilNextHourBoundaryInRange (.ofInstant 253402299000000000) ⟨253402297200000000, 0⟩ =
      .error (.overflowError "date value out of range") := by decide +kernel
  refine ⟨by decide +kernel, fun ⟨seconds, returned⟩ => ?_⟩
  exact nomatch overflows.symm.trans returned

end Meterly
