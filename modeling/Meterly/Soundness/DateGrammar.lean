import Meterly.Model.IsoFormat
import Meterly.Soundness.DailyLog
import Meterly.Text.Pattern

/-! # Which strings are dates of a daily query

The pattern lets other decimal digits and a final newline pass, and `fromisoformat` takes neither: what both
accept is ten ASCII characters that name a date of the calendar. What is accepted is the ISO form of its date.
The bounds are computed from the UTC day of the request, and the window ends on the day after the date, so both
have to be dates themselves.
-/

namespace Meterly

/-- Ten ASCII characters `YYYY-MM-DD` that name a date of the Gregorian calendar. -/
structure NamesDate (raw : String) (date : CalendarDate) : Prop where
  valid : date.Valid
  written : ∃ year month day : List Char, raw.toList = year ++ ('-' :: (month ++ ('-' :: day))) ∧
    (year.length = 4 ∧ month.length = 2 ∧ day.length = 2) ∧ (∀ c ∈ year ++ (month ++ day), c.isDigit) ∧
    date = ⟨Nat.ofDigitChars 10 year 0, Nat.ofDigitChars 10 month 0, Nat.ofDigitChars 10 day 0⟩

/-- The window is that of a date. -/
structure DailyDateWindow.IsDay (window : DailyDateWindow) (date : CalendarDate) : Prop where
  dateStr : window.dateStr = date.isoformat
  onDate : utcDate window.dayStart = date
  midnight : window.dayStart % microsecondsPerDay = 0
  nextDay : window.dayEnd = window.dayStart + microsecondsPerDay

/-- `_DATE_FORMAT_PATTERN` -/
def datePattern : List (PatternPart Char) :=
  [.run isDecimal 4 4, .text ['-'], .run isDecimal 2 2, .text ['-'], .run isDecimal 2 2]

/-! ## Digits -/

theorem digit_bounds {c : Char} (digit : c.isDigit) : '0'.toNat ≤ c.toNat ∧ c.toNat < '0'.toNat + 10 := by
  obtain ⟨lower, upper⟩ := Char.isDigit_iff_toNat.mp digit
  exact ⟨lower, Nat.lt_succ_of_le upper⟩

/-- A number is read digit by digit. -/
theorem foldl_digits {digits : List Char} (all : ∀ c ∈ digits, c.isDigit) (start : ℕ) :
    digits.foldl (fun (n : ℤ) (c : Char) => 10 * n + (c.toNat - '0'.toNat)) start =
      (Nat.ofDigitChars 10 digits start : ℕ) := by
  induction digits generalizing start with
  | nil => rfl
  | cons c digits ih =>
    have digit := (digit_bounds (all c List.mem_cons_self)).1
    have next : (10 * start + (c.toNat - '0'.toNat) : ℤ) = (10 * start + (c.toNat - '0'.toNat) : ℕ) := by
      rw [Nat.cast_add, Nat.cast_mul, Nat.cast_sub digit]
      rfl
    rw [List.foldl_cons, Nat.ofDigitChars_cons, ← ih fun d member => all d (List.mem_cons_of_mem _ member), next]

/-- A number is written in one way with a fixed number of digits. -/
theorem ofDigitChars_injective {digits others : List Char} (all : ∀ c ∈ digits, c.isDigit)
    (otherAll : ∀ c ∈ others, c.isDigit) (length : digits.length = others.length)
    (same : Nat.ofDigitChars 10 digits 0 = Nat.ofDigitChars 10 others 0) : digits = others := by
  induction digits using List.reverseRecOn generalizing others with
  | nil => exact (List.length_eq_zero_iff.mp length.symm).symm
  | append_singleton digits c ih =>
    rcases others.eq_nil_or_concat with rfl | ⟨others, d, rfl⟩
    · simp at length
    · rw [List.concat_eq_append] at otherAll length same ⊢
      rw [List.length_append, List.length_append, List.length_singleton, List.length_singleton] at length
      rw [Nat.ofDigitChars_append, Nat.ofDigitChars_append, Nat.ofDigitChars_cons, Nat.ofDigitChars_cons,
        Nat.ofDigitChars_nil, Nat.ofDigitChars_nil] at same
      have bounds := digit_bounds (all c (by simp))
      have otherBounds := digit_bounds (otherAll d (by simp))
      have front := ih (fun e member => all e (List.mem_append_left _ member))
        (fun e member => otherAll e (List.mem_append_left _ member)) (by omega) (by omega)
      have back : c = d := Char.toNat_inj.mp (by omega)
      rw [front, back]

theorem ofDigitChars_lt {digits : List Char} (all : ∀ c ∈ digits, c.isDigit) :
    Nat.ofDigitChars 10 digits 0 < 10 ^ digits.length := by
  induction digits using List.reverseRecOn with
  | nil => exact Nat.one_pos
  | append_singleton digits c ih =>
    have bounds := digit_bounds (all c (by simp))
    have front := ih fun d member => all d (List.mem_append_left _ member)
    rw [Nat.ofDigitChars_append, Nat.ofDigitChars_cons, Nat.ofDigitChars_nil, List.length_append,
      List.length_singleton, pow_succ]
    omega

/-- A number that fills its field is written with the same digits. -/
theorem zeroPadded_ofDigitChars {digits : List Char} {width : ℕ} (length : digits.length = width) (positive : 0 < width)
    (all : ∀ c ∈ digits, c.isDigit) : (zeroPadded width (Nat.ofDigitChars 10 digits 0 : ℕ)).toList = digits := by
  have fits : (Nat.ofDigitChars 10 digits 0 : ℤ) < 10 ^ width := by
    rw [← length]
    exact_mod_cast ofDigitChars_lt all
  obtain ⟨filled, value⟩ := zeroPadded_spec width (Int.natCast_nonneg _) positive fits
  exact ofDigitChars_injective (fun _ => isDigit_of_mem_zeroPadded) all (filled.trans length.symm)
    (by exact_mod_cast value)

/-! ## The two parsers -/

/-- What names a date is the ISO form of the date. -/
theorem NamesDate.eq_isoformat {raw : String} {date : CalendarDate} (names : NamesDate raw date) :
    raw = date.isoformat := by
  obtain ⟨year, month, day, subject, ⟨yearLength, monthLength, dayLength⟩, digits, rfl⟩ := names.written
  simp only [List.mem_append] at digits
  apply String.ext
  rw [subject, CalendarDate.isoformat]
  simp only [String.toList_append,
    zeroPadded_ofDigitChars yearLength (by decide) fun c member => digits c (.inl member),
    zeroPadded_ofDigitChars monthLength (by decide) fun c member => digits c (.inr (.inl member)),
    zeroPadded_ofDigitChars dayLength (by decide) fun c member => digits c (.inr (.inr member))]
  simp

/-- `fromisoformat` takes what names a date, and nothing else. -/
theorem dateFromIsoformat_eq_some_iff {raw : String} {date : CalendarDate} :
    dateFromIsoformat raw = some date ↔ NamesDate raw date := by
  constructor
  · intro parsed
    have valid := valid_of_dateFromIsoformat parsed
    simp only [dateFromIsoformat] at parsed
    split at parsed
    · next y₁ y₂ y₃ y₄ m₁ m₂ d₁ d₂ subject =>
      split_ifs at parsed with digits ranges
      rw [List.all_eq_true] at digits
      obtain rfl := Option.some.inj parsed
      refine ⟨valid, [y₁, y₂, y₃, y₄], [m₁, m₂], [d₁, d₂], subject, ⟨rfl, rfl, rfl⟩, digits, ?_⟩
      rw [CalendarDate.mk.injEq]
      refine ⟨foldl_digits (fun c member => digits c ?_) 0, foldl_digits (fun c member => digits c ?_) 0,
        foldl_digits (fun c member => digits c ?_) 0⟩
      · exact List.mem_append_left [m₁, m₂, d₁, d₂] member
      · exact List.mem_append_right [y₁, y₂, y₃, y₄] (List.mem_append_left [d₁, d₂] member)
      · exact List.mem_append_right [y₁, y₂, y₃, y₄, m₁, m₂] member
    · contradiction
  · rintro ⟨valid, year, month, day, subject, ⟨yearLength, monthLength, dayLength⟩, digits, rfl⟩
    have yearDigits := fun c member => digits c (List.mem_append_left _ member)
    have monthDigits := fun c member => digits c (List.mem_append_right _ (List.mem_append_left _ member))
    have dayDigits := fun c member => digits c (List.mem_append_right _ (List.mem_append_right _ member))
    obtain ⟨y₁, y₂, y₃, y₄, rfl⟩ := List.length_eq_four.mp yearLength
    obtain ⟨m₁, m₂, rfl⟩ := List.length_eq_two.mp monthLength
    obtain ⟨d₁, d₂, rfl⟩ := List.length_eq_two.mp dayLength
    have all : [y₁, y₂, y₃, y₄, m₁, m₂, d₁, d₂].all Char.isDigit := List.all_eq_true.mpr digits
    simp only [List.cons_append, List.nil_append] at subject
    have year := foldl_digits yearDigits 0
    have month := foldl_digits monthDigits 0
    have day := foldl_digits dayDigits 0
    rw [Nat.cast_zero] at year month day
    simp only [dateFromIsoformat, subject, if_pos all, year, month, day]
    exact if_pos ⟨valid.year, valid.month.1, valid.month.2, valid.day.1, valid.day.2⟩

/-- An ASCII digit is a decimal digit. -/
theorem isDecimal_of_isDigit {c : Char} (digit : c.isDigit) : isDecimal c := by
  obtain ⟨lower, upper⟩ := digit_bounds digit
  refine List.any_eq_true.mpr ⟨'0'.toNat, List.mem_cons_self, ?_⟩
  simp only [Bool.and_eq_true, decide_eq_true_eq]
  exact ⟨lower, upper⟩

/-- The characters that a search for the date pattern finds. -/
theorem matches_datePattern_iff {subject : List Char} :
    (∃ groups, Pattern.Matches (Pattern.endAnchor '\n') datePattern groups subject) ↔
      ∃ year month day rest : List Char, subject = year ++ (['-'] ++ (month ++ (['-'] ++ (day ++ rest)))) ∧
        (year.length = 4 ∧ month.length = 2 ∧ day.length = 2) ∧ (∀ c ∈ year ++ (month ++ day), isDecimal c) ∧
        Pattern.endAnchor '\n' rest := by
  constructor
  · rintro ⟨groups, matched⟩
    obtain _ | _ | ⟨year, _, _, years, _ | ⟨_, _ | _ | ⟨month, _, _, months, behind⟩⟩⟩ := matched
    obtain _ | ⟨_, _ | _ | ⟨day, _, _, days, ⟨anchored⟩⟩⟩ := behind
    refine ⟨year, month, day, _, rfl, ⟨by omega, by omega, by omega⟩, fun c member => ?_, anchored⟩
    obtain inYear | inMonth | inDay : c ∈ year ∨ c ∈ month ∨ c ∈ day := by simpa using member
    · exact years c inYear
    · exact months c inMonth
    · exact days c inDay
  · rintro ⟨year, month, day, rest, rfl, ⟨yearLength, monthLength, dayLength⟩, decimals, anchored⟩
    refine ⟨[year, month, day], .run _ (by omega) (by omega) (fun c member => decimals c (by simp [member]))
      (.text _ (.run _ (by omega) (by omega) (fun c member => decimals c (by simp [member]))
        (.text _ (.run _ (by omega) (by omega) (fun c member => decimals c (by simp [member])) (.done anchored)))))⟩

/-- A final newline is left out. -/
theorem dropNewline_append {body rest : List Char} (last : body.getLast? ≠ some '\n')
    (anchored : Pattern.endAnchor '\n' rest) :
    (if (body ++ rest).getLast? = some '\n' then (body ++ rest).dropLast else body ++ rest) = body := by
  obtain rfl | rfl : rest = [] ∨ rest = ['\n'] := by simpa [Pattern.endAnchor] using anchored
  · rw [List.append_nil, if_neg last]
  · rw [if_pos List.getLast?_concat, List.dropLast_concat]

/-- The shape is checked as a search for the pattern checks it. -/
theorem matchesDateFormat_iff_firstMatch {raw : String} :
    matchesDateFormat raw ↔ (Pattern.firstMatch (Pattern.endAnchor '\n') datePattern raw.toList).isSome := by
  rw [Pattern.isSome_firstMatch_iff, matches_datePattern_iff]
  constructor
  · intro formatted
    simp only [matchesDateFormat] at formatted
    obtain ⟨rest, anchored, subject⟩ : ∃ rest, Pattern.endAnchor '\n' rest ∧ raw.toList =
        (if raw.toList.getLast? = some '\n' then raw.toList.dropLast else raw.toList) ++ rest := by
      split_ifs with newline
      · exact ⟨['\n'], rfl, (List.dropLast_append_getLast? _ newline).symm⟩
      · exact ⟨[], rfl, (List.append_nil _).symm⟩
    split at formatted
    · next y₁ y₂ y₃ y₄ m₁ m₂ d₁ d₂ body =>
      rw [body] at subject
      exact ⟨[y₁, y₂, y₃, y₄], [m₁, m₂], [d₁, d₂], rest, subject, ⟨rfl, rfl, rfl⟩, List.all_eq_true.mp formatted,
        anchored⟩
    · contradiction
  · rintro ⟨year, month, day, rest, subject, ⟨yearLength, monthLength, dayLength⟩, decimals, anchored⟩
    obtain ⟨y₁, y₂, y₃, y₄, rfl⟩ := List.length_eq_four.mp yearLength
    obtain ⟨m₁, m₂, rfl⟩ := List.length_eq_two.mp monthLength
    obtain ⟨d₁, d₂, rfl⟩ := List.length_eq_two.mp dayLength
    have body : raw.toList = [y₁, y₂, y₃, y₄, '-', m₁, m₂, '-', d₁, d₂] ++ rest := subject
    have last : [y₁, y₂, y₃, y₄, '-', m₁, m₂, '-', d₁, d₂].getLast? ≠ some '\n' := by
      intro newline
      obtain rfl : d₂ = '\n' := Option.some.inj newline
      exact absurd (decimals '\n' (by simp)) (by decide)
    simp only [matchesDateFormat, body, dropNewline_append last anchored]
    exact List.all_eq_true.mpr decimals

/-- The pattern takes what names a date. -/
theorem NamesDate.matchesDateFormat {raw : String} {date : CalendarDate} (names : NamesDate raw date) :
    matchesDateFormat raw := by
  obtain ⟨year, month, day, subject, lengths, digits, -⟩ := names.written
  rw [matchesDateFormat_iff_firstMatch, Pattern.isSome_firstMatch_iff, matches_datePattern_iff]
  refine ⟨year, month, day, [], ?_, lengths, fun c member => isDecimal_of_isDigit (digits c member), rfl⟩
  rw [subject, List.append_nil]
  rfl

/-! ## What is accepted -/

/-- The bounds of a request and the end of the window of an accepted date are dates. -/
def InCalendar (today ordinal : ℤ) : Prop :=
  0 < today - maxLookbackDays ∧ today + maxLookaheadDays ≤ maxOrdinal ∧
    (ordinal ≤ today + maxLookaheadDays → ordinal + 1 ≤ maxOrdinal)

/-- The date of a daily query is read exactly by its grammar, on the UTC day of an instant. -/
structure ParsesDate (raw : String) (now : Instant) : Prop where
  accepts_iff : (∃ window, parseDailyDate (some raw) now = .ok window) ↔ ∃ date, NamesDate raw date ∧
    (utcDate now).toOrdinal - 90 ≤ date.toOrdinal ∧ date.toOrdinal ≤ (utcDate now).toOrdinal + 1
  window : ∀ window date, parseDailyDate (some raw) now = .ok window → NamesDate raw date → window.IsDay date
  rejects : ∀ error, parseDailyDate (some raw) now = .error error → ∃ detail, error = badRequest detail
  disjoint : ∀ other later window otherWindow, parseDailyDate (some raw) now = .ok window →
    parseDailyDate (some other) later = .ok otherWindow → raw ≠ other →
      window.dayEnd ≤ otherWindow.dayStart ∨ otherWindow.dayEnd ≤ window.dayStart
  abut : ∀ other later window otherWindow, parseDailyDate (some raw) now = .ok window →
    parseDailyDate (some other) later = .ok otherWindow → ∀ date otherDate, NamesDate raw date →
      NamesDate other otherDate → otherDate.toOrdinal = date.toOrdinal + 1 → otherWindow.dayStart = window.dayEnd

theorem addDays_of_date {ordinal days : ℤ} (isDate : 0 < ordinal + days ∧ ordinal + days ≤ maxOrdinal) :
    addDays ordinal days = .ok (ordinal + days) := if_pos isDate

theorem addDays_of_not_date {ordinal days : ℤ} (noDate : ¬ (0 < ordinal + days ∧ ordinal + days ≤ maxOrdinal)) :
    addDays ordinal days = .error (.overflowError "date value out of range") := if_neg noDate

theorem parseDailyDate_of_not_namesDate {raw : String} (names : ∀ date, ¬ NamesDate raw date) (now : Instant) :
    ∃ detail, parseDailyDate (some raw) now = .error (badRequest detail) := by
  have unread : dateFromIsoformat raw = none :=
    Option.eq_none_iff_forall_not_mem.mpr fun date parsed => names date (dateFromIsoformat_eq_some_iff.mp parsed)
  simp only [parseDailyDate, unread]
  split_ifs <;> exact ⟨_, rfl⟩

variable {raw : String} {date : CalendarDate} {now : Instant}

theorem parseDailyDate_of_namesDate (names : NamesDate raw date) (now : Instant) :
    parseDailyDate (some raw) now = (do
      let earliest ← addDays (utcDate now).toOrdinal (-maxLookbackDays)
      let latest ← addDays (utcDate now).toOrdinal maxLookaheadDays
      if earliest ≤ date.toOrdinal ∧ date.toOrdinal ≤ latest then
        let (dayStart, dayEnd) ← dayWindowFor date
        return ⟨raw, dayStart, dayEnd⟩
      else .error (badRequest ("date must be within [" ++ (ordinalToDate earliest).isoformat ++ ", " ++
        (ordinalToDate latest).isoformat ++ "]"))) := by
  have today : (utcDate now).toOrdinal = epochOrdinal + now / microsecondsPerDay := toOrdinal_ordinalToDate _
  simp only [parseDailyDate, names.matchesDateFormat, dateFromIsoformat_eq_some_iff.mpr names, today]
  rfl

/-- Where a step leaves the calendar, its error is not one of the request. -/
theorem parseDailyDate_of_not_inCalendar (names : NamesDate raw date)
    (outside : ¬ InCalendar (utcDate now).toOrdinal date.toOrdinal) :
    parseDailyDate (some raw) now = .error (.overflowError "date value out of range") := by
  rw [parseDailyDate_of_namesDate names]
  obtain ⟨today, same⟩ : ∃ today, today = (utcDate now).toOrdinal := ⟨_, rfl⟩
  rw [← same] at outside ⊢
  by_cases earliest : 0 < today + -maxLookbackDays ∧ today + -maxLookbackDays ≤ maxOrdinal
  · by_cases latest : 0 < today + maxLookaheadDays ∧ today + maxLookaheadDays ≤ maxOrdinal
    · simp only [InCalendar, not_and, not_forall] at outside
      obtain ⟨within, last⟩ := outside (by omega) latest.2
      have lookback : maxLookbackDays = 90 := rfl
      have lookahead : maxLookaheadDays = 1 := rfl
      rw [addDays_of_date earliest, Except.ok_bind, addDays_of_date latest, Except.ok_bind, if_pos ⟨by omega, within⟩, dayWindowFor,
        addDays_of_not_date (by omega), Except.error_bind, Except.error_bind]
    · rw [addDays_of_date earliest, Except.ok_bind, addDays_of_not_date latest, Except.error_bind]
  · rw [addDays_of_not_date earliest, Except.error_bind]

/-- Otherwise a date between the bounds is accepted, and no other. -/
theorem parseDailyDate_of_inCalendar (names : NamesDate raw date)
    (inCalendar : InCalendar (utcDate now).toOrdinal date.toOrdinal) :
    parseDailyDate (some raw) now =
      if (utcDate now).toOrdinal - 90 ≤ date.toOrdinal ∧ date.toOrdinal ≤ (utcDate now).toOrdinal + 1 then
        .ok ⟨raw, ordinalInstant date.toOrdinal, ordinalInstant (date.toOrdinal + 1)⟩
      else .error (badRequest ("date must be within [" ++ (ordinalToDate ((utcDate now).toOrdinal - 90)).isoformat ++
        ", " ++ (ordinalToDate ((utcDate now).toOrdinal + 1)).isoformat ++ "]")) := by
  obtain ⟨lower, upper, ends⟩ := inCalendar
  have lookback : maxLookbackDays = 90 := rfl
  have lookahead : maxLookaheadDays = 1 := rfl
  rw [parseDailyDate_of_namesDate names, addDays_of_date ⟨by omega, by omega⟩, Except.ok_bind,
    addDays_of_date ⟨by omega, by omega⟩, Except.ok_bind]
  by_cases within : (utcDate now).toOrdinal - 90 ≤ date.toOrdinal ∧ date.toOrdinal ≤ (utcDate now).toOrdinal + 1
  · have tomorrow := ends within.2
    rw [if_pos within, if_pos (by rwa [lookback, lookahead]), dayWindowFor, addDays_of_date (by omega), Except.ok_bind]
    rfl
  · rw [if_neg within, if_neg (by rwa [lookback, lookahead])]
    rfl

theorem isDay_of_namesDate (names : NamesDate raw date) :
    (⟨raw, ordinalInstant date.toOrdinal, ordinalInstant (date.toOrdinal + 1)⟩ : DailyDateWindow).IsDay date where
  dateStr := names.eq_isoformat
  onDate := by
    rw [names.valid.utcDate_eq_iff]
    simp only [ordinalInstant]
    rw [Int.mul_ediv_cancel _ (by decide), add_sub_cancel]
  midnight := Int.mul_emod_left _ _
  nextDay := by
    simp only [ordinalInstant]
    ring

/-- What is accepted names a date, whose day is the window. -/
theorem parseDailyDate_ok {window : DailyDateWindow} (parsed : parseDailyDate (some raw) now = .ok window) :
    ∃ date, NamesDate raw date ∧
      window = ⟨raw, ordinalInstant date.toOrdinal, ordinalInstant (date.toOrdinal + 1)⟩ := by
  by_cases named : ∃ date, NamesDate raw date
  · obtain ⟨date, names⟩ := named
    by_cases inCalendar : InCalendar (utcDate now).toOrdinal date.toOrdinal
    · rw [parseDailyDate_of_inCalendar names inCalendar] at parsed
      split_ifs at parsed
      exact ⟨date, names, (Except.ok.inj parsed).symm⟩
    · rw [parseDailyDate_of_not_inCalendar names inCalendar] at parsed
      contradiction
  · obtain ⟨detail, rejected⟩ := parseDailyDate_of_not_namesDate (not_exists.mp named) now
    rw [rejected] at parsed
    contradiction

theorem NamesDate.unique {other : CalendarDate} (names : NamesDate raw date) (otherNames : NamesDate raw other) :
    date = other := by
  rw [← dateFromIsoformat_eq_some_iff] at names otherNames
  exact Option.some.inj (names.symm.trans otherNames)

/-- Different strings have windows on different days. -/
theorem windows_disjoint {other : String} {otherDate : CalendarDate} (names : NamesDate raw date)
    (otherNames : NamesDate other otherDate) (different : raw ≠ other) :
    ordinalInstant (date.toOrdinal + 1) ≤ ordinalInstant otherDate.toOrdinal ∨
      ordinalInstant (otherDate.toOrdinal + 1) ≤ ordinalInstant date.toOrdinal := by
  have ordinals : date.toOrdinal ≠ otherDate.toOrdinal := by
    intro same
    have sameDate := congrArg ordinalToDate same
    rw [names.valid.ordinalToDate_toOrdinal, otherNames.valid.ordinalToDate_toOrdinal] at sameDate
    exact different (by rw [names.eq_isoformat, otherNames.eq_isoformat, sameDate])
  simp only [ordinalInstant, microsecondsPerDay, microsecondsPerHour, microsecondsPerSecond]
  change (_ : ℤ) ≤ _ ∨ (_ : ℤ) ≤ _
  omega

/-- A daily date is read exactly by its grammar when the dates that are computed from it are in the calendar. -/
theorem daily_date_parsed_iff (raw : String) (now : Instant) :
    ParsesDate raw now ↔ ∀ date, NamesDate raw date → InCalendar (utcDate now).toOrdinal date.toOrdinal := by
  constructor
  · intro parses date names
    by_contra outside
    obtain ⟨detail, rejected⟩ := parses.rejects _ (parseDailyDate_of_not_inCalendar names outside)
    contradiction
  · intro inCalendar
    refine ⟨?_, ?_, ?_, ?_, ?_⟩
    · constructor
      · rintro ⟨window, parsed⟩
        obtain ⟨date, names, -⟩ := parseDailyDate_ok parsed
        rw [parseDailyDate_of_inCalendar names (inCalendar date names)] at parsed
        split_ifs at parsed with within
        exact ⟨date, names, within⟩
      · rintro ⟨date, names, within⟩
        rw [parseDailyDate_of_inCalendar names (inCalendar date names), if_pos within]
        exact ⟨_, rfl⟩
    · intro window date parsed names
      obtain ⟨other, otherNames, rfl⟩ := parseDailyDate_ok parsed
      rw [otherNames.unique names]
      exact isDay_of_namesDate names
    · intro error rejected
      by_cases named : ∃ date, NamesDate raw date
      · obtain ⟨date, names⟩ := named
        rw [parseDailyDate_of_inCalendar names (inCalendar date names)] at rejected
        split_ifs at rejected
        exact ⟨_, (Except.error.inj rejected).symm⟩
      · obtain ⟨detail, malformed⟩ := parseDailyDate_of_not_namesDate (not_exists.mp named) now
        exact ⟨detail, Except.error.inj (rejected.symm.trans malformed)⟩
    · intro other later window otherWindow parsed otherParsed different
      obtain ⟨date, names, rfl⟩ := parseDailyDate_ok parsed
      obtain ⟨otherDate, otherNames, rfl⟩ := parseDailyDate_ok otherParsed
      exact windows_disjoint names otherNames different
    · intro other later window otherWindow parsed otherParsed date otherDate names otherNames next
      obtain ⟨_, own, rfl⟩ := parseDailyDate_ok parsed
      obtain ⟨_, otherOwn, rfl⟩ := parseDailyDate_ok otherParsed
      rw [own.unique names, otherOwn.unique otherNames, next]

/-- On the last day of the calendar no date of a query is accepted or rejected. -/
theorem date_query_overflows_on_last_day :
    parseDailyDate (some "2026-07-11") 253402257600000000 = .error (.overflowError "date value out of range") ∧
      ¬ ParsesDate "2026-07-11" 253402257600000000 := by
  have overflows : parseDailyDate (some "2026-07-11") 253402257600000000 =
      .error (.overflowError "date value out of range") := by decide +kernel
  refine ⟨overflows, fun parses => ?_⟩
  obtain ⟨detail, rejected⟩ := parses.rejects _ overflows
  contradiction

end Meterly
