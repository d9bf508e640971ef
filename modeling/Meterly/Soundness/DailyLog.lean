import Meterly.Machine.Logged
import Meterly.Model.Calendar
import Meterly.Soundness.UsageLog

/-! # Usage by the day of receipt

The window of a day consists of whole hours, so a bucket lies in it exactly when its events were
received on that calendar date. Summing the buckets of a metric over customers and hours counts every
event of the day once; each event lies on one date.
-/

namespace Meterly

/-! ## The window of a date -/

theorem dayWindowFor_eq_ok {date : CalendarDate} {dayStart dayEnd : Instant}
    (window : dayWindowFor date = .ok (dayStart, dayEnd)) :
    dayStart = ordinalInstant date.toOrdinal ∧ dayEnd = ordinalInstant (date.toOrdinal + 1) := by
  simp only [dayWindowFor, addDays] at window
  split_ifs at window
  · obtain ⟨rfl, rfl⟩ := Prod.mk.inj (Except.ok.inj window)
    exact ⟨rfl, rfl⟩
  · contradiction

theorem valid_of_dateFromIsoformat {raw : String} {date : CalendarDate}
    (parsed : dateFromIsoformat raw = some date) : date.Valid := by
  simp only [dateFromIsoformat] at parsed
  split at parsed
  · split_ifs at parsed with digits valid
    obtain rfl := Option.some.inj parsed
    exact ⟨valid.1, ⟨valid.2.1, valid.2.2.1⟩, valid.2.2.2⟩
  · contradiction

/-- An accepted date is a date of the calendar, with its window. -/
theorem parseDailyDate_eq_ok {raw : Option String} {now : Instant} {window : DailyDateWindow}
    (parsed : parseDailyDate raw now = .ok window) : ∃ date, dateFromIsoformat window.dateStr = some date ∧
      dayWindowFor date = .ok (window.dayStart, window.dayEnd) := by
  cases raw with
  | none => contradiction
  | some raw =>
    simp only [parseDailyDate] at parsed
    split_ifs at parsed
    split at parsed
    · contradiction
    · next date valid =>
      obtain ⟨earliest, -, parsed⟩ := Except.exists_of_bind_eq_ok parsed
      obtain ⟨latest, -, parsed⟩ := Except.exists_of_bind_eq_ok parsed
      split_ifs at parsed
      obtain ⟨⟨dayStart, dayEnd⟩, ends, parsed⟩ := Except.exists_of_bind_eq_ok parsed
      obtain rfl := Except.ok.inj parsed
      exact ⟨date, valid, ends⟩

variable {s next final : State} {earlier : EventKey → Instant} {schedule : List Action} {date : CalendarDate}

/-- The day of an instant is the day of its hour. -/
theorem utcHour_div_day (t : Instant) : t / microsecondsPerDay = utcHour t / 24 := by
  rw [utcHour, Int.ediv_ediv_of_nonneg (by decide), mul_comm microsecondsPerHour]
  rfl

/-- An hour lies in the window of a day exactly when its instants lie on the date. -/
theorem hour_mem_day_iff (valid : date.Valid) (t : Instant) :
    (ordinalInstant date.toOrdinal ≤ utcHour t * microsecondsPerHour ∧
      utcHour t * microsecondsPerHour < ordinalInstant (date.toOrdinal + 1)) ↔ utcDate t = date := by
  rw [valid.utcDate_eq_iff, utcHour_div_day]
  simp only [ordinalInstant, microsecondsPerDay, microsecondsPerHour, microsecondsPerSecond]
  change ((_ : ℤ) ≤ _ ∧ (_ : ℤ) < _) ↔ _
  omega

theorem utcHour_of_day (date : CalendarDate) {hour : ℕ} :
    utcHour (ordinalInstant date.toOrdinal + hour * microsecondsPerHour) =
      24 * (date.toOrdinal - epochOrdinal) + hour := by
  simp only [ordinalInstant, utcHour, microsecondsPerDay, microsecondsPerHour, microsecondsPerSecond]
  omega

/-- The instants of a date fall in its 24 hours. -/
theorem utcDate_eq_iff_hour (valid : date.Valid) (t : Instant) :
    utcDate t = date ↔ ∃ hour < 24, utcHour t = 24 * (date.toOrdinal - epochOrdinal) + (hour : ℕ) := by
  rw [valid.utcDate_eq_iff, utcHour_div_day]
  constructor
  · intro day
    exact ⟨(utcHour t - 24 * (date.toOrdinal - epochOrdinal)).toNat, by omega, by omega⟩
  · rintro ⟨hour, bound, same⟩
    omega

/-! ## The listing of a day -/

/-- The events of a tenant for a metric that were received on a date. -/
def State.eventsOfDay (earlier : EventKey → Instant) (s : State) (apiKeyId : ℕ) (metric : String)
    (date : CalendarDate) : List (Σ _ : EventKey, EventRow) :=
  s.db.events.committed.entries.filter fun entry => entry.1.apiKeyId = apiKeyId ∧ entry.2.metric = metric ∧
    utcDate (s.receivedAt earlier entry.1) = date

/-- A listing has one entry for each metric with events, with their number, in the order of the metrics. -/
structure ListsCounts (collation : Collation) (counts : List DailyMetricCount)
    (eventsOf : String → List (Σ _ : EventKey, EventRow)) : Prop where
  ordered : counts.Pairwise fun a b => collation.cmp a.metric b.metric = .lt
  entries : ∀ metric eventCount, ⟨metric, eventCount⟩ ∈ counts ↔
    eventsOf metric ≠ [] ∧ eventCount = (eventsOf metric).length

/-- Summing the event counts of some buckets counts the events of these buckets. -/
theorem RollupIsLog.sum_eventCount (isLog : RollupIsLog s) (test : RollupKey → Bool) :
    ((s.db.usageRollup.committed.entries.filter fun entry => test entry.1).map fun entry => entry.2.eventCount).sum =
      s.db.events.committed.entries.countP fun entry => test (entry.2.rollupKey entry.1.apiKeyId) := by
  have rows := AList.entries_perm_of_lookup isLog
  rw [((rows.filter _).map _).sum_eq]
  exact sum_size_groupBy _ _ _ RollupRow.eventCount (fun _ => rfl) test

/-- A bucket is stored exactly when it has an event. -/
theorem RollupIsLog.mem_entries_iff (isLog : RollupIsLog s) (test : RollupKey → Bool) :
    (∃ entry ∈ s.db.usageRollup.committed.entries, test entry.1) ↔
      ∃ entry ∈ s.db.events.committed.entries, test (entry.2.rollupKey entry.1.apiKeyId) := by
  constructor
  · rintro ⟨⟨bucket, row⟩, stored, passes⟩
    have found : s.db.usageRollup.find bucket = some row := AList.lookup_eq_some_iff.mpr stored
    rw [isLog, lookup_backfill] at found
    split_ifs at found with empty
    obtain ⟨entry, member⟩ := List.exists_mem_of_ne_nil _ empty
    obtain ⟨present, own⟩ := List.mem_filter.mp member
    exact ⟨entry, present, by rwa [of_decide_eq_true own]⟩
  · rintro ⟨entry, present, passes⟩
    have occupied : bucketEvents s.db.events.committed (entry.2.rollupKey entry.1.apiKeyId) ≠ [] :=
      List.ne_nil_of_mem (List.mem_filter.mpr ⟨present, decide_eq_true rfl⟩)
    have found := isLog (entry.2.rollupKey entry.1.apiKeyId)
    rw [lookup_backfill, if_neg occupied] at found
    exact ⟨_, AList.lookup_eq_some_iff.mp found, passes⟩

/-- The listing of a day counts the events of that day. -/
theorem RollupIsLog.listsCounts (isLog : RollupIsLog s) (floored : WindowsFloored earlier s) (valid : date.Valid)
    (apiKeyId : ℕ) : ListsCounts s.db.collation
      (s.db.aggregateDailyEventCounts apiKeyId (ordinalInstant date.toOrdinal) (ordinalInstant (date.toOrdinal + 1)))
      fun metric => s.eventsOfDay earlier apiKeyId metric date := by
  -- The buckets of one metric in the window of the day, and their events.
  let inDay (key : RollupKey) : Bool := key.apiKeyId = apiKeyId ∧ ordinalInstant date.toOrdinal ≤ key.windowStart ∧
    key.windowStart < ordinalInstant (date.toOrdinal + 1)
  have dayEvents : ∀ metric entry, entry ∈ s.db.events.committed.entries →
      ((inDay (entry.2.rollupKey entry.1.apiKeyId) && decide (entry.2.metric = metric)) = true ↔
        entry.1.apiKeyId = apiKeyId ∧ entry.2.metric = metric ∧ utcDate (s.receivedAt earlier entry.1) = date) := by
    intro metric entry member
    have window := floored entry.1 entry.2 (AList.lookup_eq_some_iff.mpr member)
    rw [EventCreateRequest.windowStart_eq] at window
    simp only [inDay, EventRow.rollupKey, window, Bool.and_eq_true, decide_eq_true_eq, hour_mem_day_iff valid]
    tauto
  let rows := s.db.usageRollup.committed.entries.filter fun entry => inDay entry.1
  let groups := groupBy (fun entry : Σ _ : RollupKey, RollupRow => entry.1.metric)
    (fun rows => (rows.map fun entry => entry.2.eventCount).sum) rows
  have total : ∀ metric, ((rows.filter fun entry => entry.1.metric = metric).map fun entry => entry.2.eventCount).sum =
      (s.eventsOfDay earlier apiKeyId metric date).length := by
    intro metric
    rw [List.filter_filter, isLog.sum_eventCount fun key => decide (key.metric = metric) && inDay key,
      List.countP_eq_length_filter, State.eventsOfDay]
    refine congrArg List.length (List.filter_congr fun entry member => ?_)
    rw [Bool.and_comm, Bool.eq_iff_iff, decide_eq_true_eq]
    exact dayEvents metric entry member
  have occurs : ∀ metric, metric ∈ (rows.map fun entry => entry.1.metric) ↔
      s.eventsOfDay earlier apiKeyId metric date ≠ [] := by
    intro metric
    have stored := isLog.mem_entries_iff fun key => inDay key && decide (key.metric = metric)
    constructor
    · intro found
      obtain ⟨entry, member, same⟩ := List.mem_map.mp found
      obtain ⟨present, inWindow⟩ := List.mem_filter.mp member
      obtain ⟨event, logged, passes⟩ := stored.mp
        ⟨entry, present, (Bool.and_eq_true ..).mpr ⟨inWindow, decide_eq_true same⟩⟩
      exact List.ne_nil_of_mem
        (List.mem_filter.mpr ⟨logged, decide_eq_true ((dayEvents metric event logged).mp passes)⟩)
    · intro occupied
      obtain ⟨event, member⟩ := List.exists_mem_of_ne_nil _ occupied
      obtain ⟨logged, own⟩ := List.mem_filter.mp member
      obtain ⟨entry, present, passes⟩ := stored.mpr
        ⟨event, logged, (dayEvents metric event logged).mpr (of_decide_eq_true own)⟩
      obtain ⟨inWindow, same⟩ := (Bool.and_eq_true ..).mp passes
      exact List.mem_map.mpr ⟨entry, List.mem_filter.mpr ⟨present, inWindow⟩, of_decide_eq_true same⟩
  refine ⟨?_, ?_⟩
  · have distinct : (groups.entries.map fun group => (⟨group.1, group.2⟩ : DailyMetricCount)).Pairwise fun a b =>
        onColumn DailyMetricCount.metric s.db.collation.cmp a b ≠ .eq :=
      List.pairwise_map.mpr ((List.nodupKeys_iff_pairwise.mp groups.nodupKeys).imp fun differs same =>
        differs (onColumn_eq_eq.mp same))
    have ordered := orderBy_pairwise_lt distinct
    exact ordered
  · intro metric eventCount
    have found : groups.lookup metric = some eventCount ↔ (⟨metric, eventCount⟩ : DailyMetricCount) ∈
        s.db.aggregateDailyEventCounts apiKeyId (ordinalInstant date.toOrdinal)
          (ordinalInstant (date.toOrdinal + 1)) := by
      rw [AList.lookup_eq_some_iff, Database.aggregateDailyEventCounts, mem_orderBy, List.mem_map]
      constructor
      · intro member
        exact ⟨_, member, rfl⟩
      · rintro ⟨group, member, same⟩
        cases same
        exact member
    rw [← found, lookup_groupBy, total metric]
    split_ifs with listed
    · rw [Option.some.injEq, eq_comm]
      exact (and_iff_right ((occurs metric).mp listed)).symm
    · exact iff_of_false id fun claims => listed ((occurs metric).mpr claims.1)

/-- The count that a listing gives for a metric, zero where the metric has no entry. -/
def countFor (counts : List DailyMetricCount) (metric : String) : ℕ :=
  (counts.find? fun entry => entry.metric = metric).elim 0 DailyMetricCount.eventCount

theorem ListsCounts.countFor_eq {collation : Collation} {counts : List DailyMetricCount}
    {eventsOf : String → List (Σ _ : EventKey, EventRow)} (lists : ListsCounts collation counts eventsOf)
    (metric : String) : countFor counts metric = (eventsOf metric).length := by
  rw [countFor]
  cases found : counts.find? fun entry => entry.metric = metric with
  | none =>
    have absent : eventsOf metric = [] := by
      by_contra occupied
      have listed := (lists.entries metric _).mpr ⟨occupied, rfl⟩
      exact of_decide_eq_false (Bool.eq_false_iff.mpr (List.find?_eq_none.mp found _ listed)) rfl
    rw [absent]
    rfl
  | some entry =>
    have same : entry.metric = metric := by simpa only [decide_eq_true_eq] using List.find?_some found
    subst metric
    exact ((lists.entries _ _).mp (List.mem_of_find?_eq_some found)).2

/-! ## Events of a day by customer and hour, and of all days -/

/-- The events of a day, counted by customer and hour. -/
theorem length_eventsOfDay_eq_sum (valid : date.Valid) {apiKeyId : ℕ} {metric : String} {customers : Finset String}
    (covered : ∀ entry ∈ s.eventsOfDay earlier apiKeyId metric date, entry.2.customerId ∈ customers) :
    (s.eventsOfDay earlier apiKeyId metric date).length = ∑ customerId ∈ customers, ∑ hour ∈ Finset.range 24,
      (s.eventsOfHour earlier apiKeyId customerId metric (24 * (date.toOrdinal - epochOrdinal) + hour)).length := by
  rw [length_eq_sum_count (fun entry : Σ _ : EventKey, EventRow => entry.2.customerId) _ covered]
  apply Finset.sum_congr rfl
  intro customerId _
  let hourOf (entry : Σ _ : EventKey, EventRow) : ℕ :=
    (utcHour (s.receivedAt earlier entry.1) - 24 * (date.toOrdinal - epochOrdinal)).toNat
  have hours : ∀ entry ∈ (s.eventsOfDay earlier apiKeyId metric date).filter fun entry => entry.2.customerId = customerId,
      hourOf entry ∈ Finset.range 24 := by
    intro entry member
    obtain ⟨-, -, day⟩ := of_decide_eq_true (List.mem_filter.mp (List.mem_filter.mp member).1).2
    obtain ⟨hour, bound, same⟩ := (utcDate_eq_iff_hour valid _).mp day
    rw [Finset.mem_range]
    simp only [hourOf, same]
    omega
  rw [length_eq_sum_count hourOf _ hours]
  refine Finset.sum_congr rfl fun hour bound => congrArg List.length ?_
  rw [State.eventsOfDay, List.filter_filter, List.filter_filter, State.eventsOfHour]
  apply List.filter_congr
  intro entry _
  have bound := Finset.mem_range.mp bound
  rw [Bool.eq_iff_iff]
  simp only [Bool.and_eq_true, decide_eq_true_eq, utcDate_eq_iff_hour valid, hourOf]
  constructor
  · rintro ⟨⟨index, customer⟩, tenant, same, other, small, found⟩
    exact ⟨tenant, customer, same, by omega⟩
  · rintro ⟨tenant, customer, same, found⟩
    exact ⟨⟨by omega, customer⟩, tenant, same, hour, bound, found⟩

/-- The events of a tenant and a metric, counted by date. -/
theorem length_events_eq_sum {apiKeyId : ℕ} {metric : String} {dates : Finset CalendarDate}
    (covered : ∀ entry ∈ s.db.events.committed.entries, entry.1.apiKeyId = apiKeyId → entry.2.metric = metric →
      utcDate (s.receivedAt earlier entry.1) ∈ dates) :
    (s.db.events.committed.entries.filter fun entry => entry.1.apiKeyId = apiKeyId ∧ entry.2.metric = metric).length =
      ∑ date ∈ dates, (s.eventsOfDay earlier apiKeyId metric date).length := by
  rw [length_eq_sum_count (fun entry : Σ _ : EventKey, EventRow => utcDate (s.receivedAt earlier entry.1))]
  · refine Finset.sum_congr rfl fun date _ => congrArg List.length ?_
    rw [List.filter_filter, State.eventsOfDay]
    apply List.filter_congr
    intro entry _
    rw [Bool.eq_iff_iff]
    simp only [Bool.and_eq_true, decide_eq_true_eq]
    tauto
  · intro entry member
    obtain ⟨present, own⟩ := List.mem_filter.mp member
    obtain ⟨tenant, same⟩ := of_decide_eq_true own
    exact covered entry present tenant same

/-! ## The daily listing of a reachable state -/

section Runs

variable {collation : Collation} {now : Instant} {nextEventId : ℕ} {events : Rows EventKey EventRow}
  {quotas : Rows QuotaKey QuotaRow}

/-- `get_daily_usage` partitions the log. The listing of an accepted date counts the events received on
it, metric by metric, as the hourly answers of that day do together; each event lies on one date, so
the listings of all dates count every event once. What is answered is a listing of a state during the call. -/
theorem get_daily_usage_partitions_log
    (recorded : ∀ key row, events.lookup key = some row → row.windowStart = EventCreateRequest.windowStart (earlier key))
    (reached : Machine.run step (.init (.atRest collation now nextEventId (.afterMigration events quotas)))
      schedule = some final) :
    (∀ apiKeyId raw receivedAt window, parseDailyDate raw receivedAt = .ok window →
      ∃ date, dateFromIsoformat window.dateStr = some date ∧
        ListsCounts collation (GetDailyUsage.statement apiKeyId window final.db)
          (fun metric => final.eventsOfDay earlier apiKeyId metric date) ∧
        ∀ metric (customers : Finset String),
          (∀ entry ∈ final.eventsOfDay earlier apiKeyId metric date, entry.2.customerId ∈ customers) →
          countFor (GetDailyUsage.statement apiKeyId window final.db) metric =
            ∑ customerId ∈ customers, ∑ hour ∈ Finset.range 24, (final.db.usage apiKeyId
              ⟨customerId, metric, .ofInstant (window.dayStart + hour * microsecondsPerHour)⟩).eventCount) ∧
    (∀ entry ∈ final.db.events.committed.entries, ∃! date,
      entry ∈ final.eventsOfDay earlier entry.1.apiKeyId entry.2.metric date) ∧
    (∀ apiKeyId metric (dates : Finset CalendarDate) (window : CalendarDate → Instant × Instant),
      (∀ date ∈ dates, date.Valid ∧ dayWindowFor date = .ok (window date)) →
      (∀ entry ∈ final.db.events.committed.entries, entry.1.apiKeyId = apiKeyId → entry.2.metric = metric →
        utcDate (final.receivedAt earlier entry.1) ∈ dates) →
      ∑ date ∈ dates, countFor (final.db.aggregateDailyEventCounts apiKeyId (window date).1 (window date).2) metric =
        (final.db.events.committed.entries.filter fun entry =>
          entry.1.apiKeyId = apiKeyId ∧ entry.2.metric = metric).length) ∧
    ∀ reader raw receivedAt response, final.calls reader = .getDailyUsage raw receivedAt (.answered (.ok response)) →
      ∃ before after middle window, schedule = before ++ after ∧
        Machine.run step (.init (.atRest collation now nextEventId (.afterMigration events quotas))) before =
          some middle ∧ (middle.calls reader).isRunning ∧ parseDailyDate raw receivedAt = .ok window ∧
        response = ⟨window.dateStr, GetDailyUsage.statement reader.apiKeyId window middle.db⟩ := by
  have isLog := RollupIsLog.of_run reached
  have floored := WindowsFloored.of_run recorded reached
  have order : final.db.collation = collation := collation_run reached
  have lists : ∀ {date dayStart dayEnd} (apiKeyId : ℕ), date.Valid → dayWindowFor date = .ok (dayStart, dayEnd) →
      ListsCounts collation (final.db.aggregateDailyEventCounts apiKeyId dayStart dayEnd)
        (fun metric => final.eventsOfDay earlier apiKeyId metric date) := by
    intro date dayStart dayEnd apiKeyId valid window
    obtain ⟨rfl, rfl⟩ := dayWindowFor_eq_ok window
    exact order ▸ isLog.listsCounts floored valid apiKeyId
  refine ⟨?_, ?_, ?_, ?_⟩
  · intro apiKeyId raw receivedAt window parsed
    obtain ⟨date, accepted, ends⟩ := parseDailyDate_eq_ok parsed
    have valid := valid_of_dateFromIsoformat accepted
    refine ⟨date, accepted, lists apiKeyId valid ends, ?_⟩
    intro metric customers covered
    have hourly : ∀ customerId (hour : ℕ), (final.db.usage apiKeyId
        ⟨customerId, metric, .ofInstant (window.dayStart + hour * microsecondsPerHour)⟩).eventCount =
        (final.eventsOfHour earlier apiKeyId customerId metric
          (24 * (date.toOrdinal - epochOrdinal) + hour)).length := by
      intro customerId hour
      rw [(isLog.usage_reports floored _ _).count, (dayWindowFor_eq_ok ends).1, AwareDatetime.ofInstant,
        AwareDatetime.instant, sub_zero, utcHour_of_day]
    simp only [hourly]
    exact ((lists apiKeyId valid ends).countFor_eq metric).trans (length_eventsOfDay_eq_sum valid covered)
  · intro entry present
    refine ⟨utcDate (final.receivedAt earlier entry.1), ?_, ?_⟩
    · exact List.mem_filter.mpr ⟨present, decide_eq_true ⟨rfl, rfl, rfl⟩⟩
    · intro date member
      exact (of_decide_eq_true (List.mem_filter.mp member).2).2.2.symm
  · intro apiKeyId metric dates window valid covered
    rw [length_events_eq_sum covered]
    apply Finset.sum_congr rfl
    intro date member
    exact (lists apiKeyId (valid date member).1 (valid date member).2).countFor_eq metric
  · intro reader raw receivedAt response answer
    have read : (final.calls reader).hasRead := by
      rw [answer]
      rfl
    obtain ⟨before, after, middle, split, through, running, holds⟩ := readFrom_run reached read
    rw [answer] at holds
    obtain ⟨window, parsed, rfl⟩ := holds
    exact ⟨before, after, middle, window, split, through, running, parsed, rfl⟩

end Runs

/-- Two events on either side of the end of a leap day, and the listing of that day. -/
theorem get_daily_usage_partitions_log_leap_day :
    let day : ℤ := 19782 * microsecondsPerDay
    let request (name : String) (receivedAt : Instant) : Request :=
      .createEvent ⟨"c", "m", ⟨1500000, by decide, by decide⟩, name⟩ receivedAt
    let schedule := (request "a" (day + microsecondsPerDay - 1)).steps ⟨7, 0⟩ 6 ++
      (request "b" (day + microsecondsPerDay)).steps ⟨7, 1⟩ 6
    ∃ final window, Machine.run step (.init (.atRest .codePoint 0 1 (.afterMigration ∅ ∅))) schedule = some final ∧
      parseDailyDate (some "2024-02-29") (day + microsecondsPerDay) = .ok window ∧
      GetDailyUsage.statement 7 window final.db = [⟨"m", 1⟩] ∧
      (final.eventsOfDay (fun _ => 0) 7 "m" ⟨2024, 2, 29⟩).length = 1 := by
  intro day request schedule
  let window : DailyDateWindow := ⟨"2024-02-29", day, day + microsecondsPerDay⟩
  obtain ⟨final, reached, listing⟩ := Option.map_eq_some_iff.mp (show
    (Machine.run step (.init (.atRest .codePoint 0 1 (.afterMigration ∅ ∅))) schedule).map
      (fun final => GetDailyUsage.statement 7 window final.db) = some [⟨"m", 1⟩] by decide +kernel)
  have parsed : parseDailyDate (some "2024-02-29") (day + microsecondsPerDay) = .ok window := by decide +kernel
  have leapDay : dateFromIsoformat window.dateStr = some ⟨2024, 2, 29⟩ := by decide +kernel
  obtain ⟨partitions, -⟩ := get_daily_usage_partitions_log (fun _ _ found => by contradiction) reached
  obtain ⟨date, accepted, lists, -⟩ := partitions 7 _ _ window parsed
  obtain rfl := Option.some.inj (leapDay.symm.trans accepted)
  have counted := ((lists.entries "m" 1).mp (by rw [listing]; exact List.mem_singleton_self _)).2
  exact ⟨final, window, reached, parsed, listing, counted.symm⟩

end Meterly
