import Mathlib.Data.Int.Init
import Mathlib.Algebra.Order.Floor.Ring
import Mathlib.Data.Rat.Floor
import Mathlib.Tactic.Linarith

/-! # Instants, hour windows and ISO timestamps

A `timestamptz` is an instant with microsecond resolution, counted from the Unix epoch. A Python
aware datetime is a wall clock reading with its UTC offset; conversion to UTC keeps the instant.
Flooring to the hour is done on the UTC reading, as `time_windows.py` does. Calendar fields follow
the proleptic Gregorian arithmetic of the `datetime` module and are only used for rendering.
-/

namespace Meterly

/-- Microseconds since 1970-01-01T00:00:00+00:00. -/
abbrev Instant := ℤ

def microsecondsPerSecond : ℤ := 1000000
def microsecondsPerHour : ℤ := 3600 * microsecondsPerSecond
def microsecondsPerDay : ℤ := 24 * microsecondsPerHour

/-- A timezone-aware datetime: the wall clock reading and its offset from UTC. -/
structure AwareDatetime where
  wall : ℤ
  utcOffset : ℤ
deriving DecidableEq, Repr

namespace AwareDatetime

/-- The instant a datetime denotes, which is all a `timestamptz` column or comparison sees. -/
def instant (d : AwareDatetime) : Instant := d.wall - d.utcOffset

/-- `datetime.now(timezone.utc)` at an instant. -/
def ofInstant (t : Instant) : AwareDatetime := ⟨t, 0⟩

/-- `astimezone(timezone.utc)` -/
def asUtc (d : AwareDatetime) : AwareDatetime := ⟨d.instant, 0⟩

/-- `replace(minute=0, second=0, microsecond=0)` -/
def replaceToHour (d : AwareDatetime) : AwareDatetime :=
  { d with wall := d.wall - d.wall % microsecondsPerHour }

end AwareDatetime

/-- The start of the UTC hour of a datetime, whatever its offset. -/
def floorToHourUtc (timestamp : AwareDatetime) : AwareDatetime := timestamp.asUtc.replaceToHour

/-- `timedelta.total_seconds` -/
def totalSeconds (microseconds : ℤ) : ℚ := (microseconds : ℚ) / microsecondsPerSecond

/-- A calendar date. -/
structure CalendarDate where
  year : ℤ
  month : ℤ
  day : ℤ
deriving DecidableEq, Repr

/-- `_DAYS_IN_MONTH`, counted from January. -/
def daysInMonth : List ℤ := [31, 28, 31, 30, 31, 30, 31, 31, 30, 31, 30, 31]

/-- Days before the first of a month (1 to 12) in a year with no leap day. -/
def daysBeforeMonth (month : ℤ) : ℤ := (daysInMonth.take (month - 1).toNat).sum

/-- `_ord2ymd`: the date with a proleptic Gregorian ordinal, day 1 being 0001-01-01. -/
def ordinalToDate (ordinal : ℤ) : CalendarDate :=
  let n := ordinal - 1
  let n400 := n / 146097
  let n := n % 146097
  let n100 := n / 36524
  let n := n % 36524
  let n4 := n / 1461
  let n := n % 1461
  let n1 := n / 365
  let n := n % 365
  let year := n400 * 400 + 1 + n100 * 100 + n4 * 4 + n1
  if n1 = 4 ∨ n100 = 4 then ⟨year - 1, 12, 31⟩
  else
    let leapYear := n1 = 3 ∧ (n4 ≠ 24 ∨ n100 = 3)
    let leapDay (month : ℤ) : ℤ := if month > 2 ∧ leapYear then 1 else 0
    let month := (n + 50) / 32
    let preceding := daysBeforeMonth month + leapDay month
    if preceding > n then
      -- The estimated month is one too late.
      let preceding := daysBeforeMonth (month - 1) + leapDay (month - 1)
      ⟨year, month - 1, n - preceding + 1⟩
    else ⟨year, month, n - preceding + 1⟩

/-- The ordinal of 1970-01-01. -/
def epochOrdinal : ℤ := 719163

/-- The UTC calendar date of an instant. -/
def utcDate (t : Instant) : CalendarDate := ordinalToDate (epochOrdinal + t / microsecondsPerDay)

/-- A number in decimal, filled with zeros to a width. -/
def zeroPadded (width : ℕ) (n : ℤ) : String :=
  let digits := toString n.toNat
  String.ofList (List.replicate (width - digits.length) '0') ++ digits

/-- `datetime.isoformat` of a UTC datetime. -/
def isoformatUtc (t : Instant) : String :=
  let date := utcDate t
  let micros := t % microsecondsPerDay
  let seconds := micros / microsecondsPerSecond
  let fraction := micros % microsecondsPerSecond
  zeroPadded 4 date.year ++ "-" ++ zeroPadded 2 date.month ++ "-" ++ zeroPadded 2 date.day ++ "T" ++
    zeroPadded 2 (seconds / 3600) ++ ":" ++ zeroPadded 2 (seconds / 60 % 60) ++ ":" ++
    zeroPadded 2 (seconds % 60) ++ (if fraction = 0 then "" else "." ++ zeroPadded 6 fraction) ++ "+00:00"

end Meterly
