import Meterly.Model.Schema

/-! # The date of a daily usage query

`parse_daily_date` checks the shape with a regular expression whose `\d` is any Unicode decimal
digit and whose `$` also stands before a final newline, then parses with `date.fromisoformat`,
which takes ASCII digits only, and bounds the date by the UTC day of the request.
-/

namespace Meterly

/-- The zero of each run of ten decimal digits in Unicode 15.0. -/
def decimalZeros : List ℕ :=
  [0x30, 0x660, 0x6f0, 0x7c0, 0x966, 0x9e6, 0xa66, 0xae6, 0xb66, 0xbe6, 0xc66, 0xce6, 0xd66, 0xde6, 0xe50,
    0xed0, 0xf20, 0x1040, 0x1090, 0x17e0, 0x1810, 0x1946, 0x19d0, 0x1a80, 0x1a90, 0x1b50, 0x1bb0, 0x1c40,
    0x1c50, 0xa620, 0xa8d0, 0xa900, 0xa9d0, 0xa9f0, 0xaa50, 0xabf0, 0xff10, 0x104a0, 0x10d30, 0x11066,
    0x110f0, 0x11136, 0x111d0, 0x112f0, 0x11450, 0x114d0, 0x11650, 0x116c0, 0x11730, 0x118e0, 0x11950,
    0x11c50, 0x11d50, 0x11da0, 0x11f50, 0x16a60, 0x16ac0, 0x16b50, 0x1d7ce, 0x1d7d8, 0x1d7e2, 0x1d7ec,
    0x1d7f6, 0x1e140, 0x1e2f0, 0x1e4f0, 0x1e950, 0x1fbf0]

/-- `\d` in a `str` pattern. -/
def isDecimal (c : Char) : Bool := decimalZeros.any fun first => first ≤ c.toNat && c.toNat < first + 10

/-- `_DATE_FORMAT_PATTERN.match` -/
def matchesDateFormat (raw : String) : Bool :=
  let body := if raw.toList.getLast? = some '\n' then raw.toList.dropLast else raw.toList
  match body with
  | [y₁, y₂, y₃, y₄, '-', m₁, m₂, '-', d₁, d₂] => [y₁, y₂, y₃, y₄, m₁, m₂, d₁, d₂].all isDecimal
  | _ => false

def isLeapYear (year : ℤ) : Bool := year % 4 = 0 && (year % 100 ≠ 0 || year % 400 = 0)

/-- `_days_in_month` -/
def daysInMonthOf (year month : ℤ) : ℤ :=
  if month = 2 && isLeapYear year then 29 else daysInMonth.getD (month - 1).toNat 0

/-- `date.fromisoformat` on a string of the checked shape; `none` is its `ValueError`. -/
def dateFromIsoformat (raw : String) : Option CalendarDate :=
  match raw.toList with
  | [y₁, y₂, y₃, y₄, '-', m₁, m₂, '-', d₁, d₂] =>
    if [y₁, y₂, y₃, y₄, m₁, m₂, d₁, d₂].all Char.isDigit then
      let number (digits : List Char) : ℤ := digits.foldl (fun n c => 10 * n + (c.toNat - '0'.toNat)) 0
      let date : CalendarDate := ⟨number [y₁, y₂, y₃, y₄], number [m₁, m₂], number [d₁, d₂]⟩
      if 1 ≤ date.year ∧ 1 ≤ date.month ∧ date.month ≤ 12 ∧ 1 ≤ date.day ∧
          date.day ≤ daysInMonthOf date.year date.month then some date
      else none
    else none
  | _ => none

/-- `_ymd2ord` -/
def CalendarDate.toOrdinal (date : CalendarDate) : ℤ :=
  let years := date.year - 1
  years * 365 + years / 4 - years / 100 + years / 400 +
    daysBeforeMonth date.month + (if date.month > 2 ∧ isLeapYear date.year then 1 else 0) + date.day

/-- The ordinal of `date.max`. -/
def maxOrdinal : ℤ := 3652059

/-- `date + timedelta(days=n)`, by ordinals. -/
def addDays (ordinal days : ℤ) : Except ServiceError ℤ :=
  if 0 < ordinal + days ∧ ordinal + days ≤ maxOrdinal then .ok (ordinal + days)
  else .error (.overflowError "date value out of range")

/-- Midnight UTC of the day with an ordinal. -/
def ordinalInstant (ordinal : ℤ) : Instant := (ordinal - epochOrdinal) * microsecondsPerDay

/-- `date.isoformat` -/
def CalendarDate.isoformat (date : CalendarDate) : String :=
  zeroPadded 4 date.year ++ "-" ++ zeroPadded 2 date.month ++ "-" ++ zeroPadded 2 date.day

def maxLookbackDays : ℤ := 90
def maxLookaheadDays : ℤ := 1

/-- `HTTPException(400)` -/
def badRequest (detail : String) : ServiceError := .http ⟨400, none, detail, []⟩

/-- `day_window_for` -/
def dayWindowFor (parsedDate : CalendarDate) : Except ServiceError (Instant × Instant) := do
  let next ← addDays parsedDate.toOrdinal 1
  return (ordinalInstant parsedDate.toOrdinal, ordinalInstant next)

/-- `parse_daily_date`, on the UTC day of the instant at which it reads the clock. -/
def parseDailyDate (raw : Option String) (now : Instant) : Except ServiceError DailyDateWindow := do
  match raw with
  | none => .error (badRequest "date is required (YYYY-MM-DD)")
  | some raw =>
    if ¬ matchesDateFormat raw then .error (badRequest "date must be in YYYY-MM-DD format")
    else match dateFromIsoformat raw with
      | none => .error (badRequest "date is not a valid calendar date")
      | some parsedDate =>
        let todayUtc := epochOrdinal + now / microsecondsPerDay
        let earliest ← addDays todayUtc (-maxLookbackDays)
        let latest ← addDays todayUtc maxLookaheadDays
        if earliest ≤ parsedDate.toOrdinal ∧ parsedDate.toOrdinal ≤ latest then
          let (dayStart, dayEnd) ← dayWindowFor parsedDate
          return ⟨raw, dayStart, dayEnd⟩
        else .error (badRequest ("date must be within [" ++ (ordinalToDate earliest).isoformat ++ ", " ++
          (ordinalToDate latest).isoformat ++ "]"))

end Meterly
