import Meterly.Soundness.CappedIngest
import Meterly.Soundness.ExactlyOnce
import Meterly.Soundness.RollupLog
import Meterly.Soundness.Snapshots

/-! # Usage by the hour of receipt

A row of `events` keeps the window its service call fell in, not the instant at which the call was
received. That instant is read off the answers: at most one call is answered 201 for a key, and its
clock reading is the receipt of the event. Flooring on the way in and flooring the timestamp of a
query agree, so a bucket counts exactly the events received in one UTC hour.
-/

namespace Meterly

/-! ## Flooring to the hour -/

/-- The UTC hour of an instant, counted from the epoch. -/
def utcHour (t : Instant) : ℤ := t / microsecondsPerHour

theorem floorToHourUtc_instant (d : AwareDatetime) :
    (floorToHourUtc d).instant = utcHour d.instant * microsecondsPerHour := by
  have floored : (floorToHourUtc d).instant = d.instant - d.instant % microsecondsPerHour := sub_zero _
  have split := Int.mul_ediv_add_emod d.instant microsecondsPerHour
  rw [floored, utcHour, mul_comm]
  exact sub_eq_of_eq_add split.symm

/-- Two datetimes have the same floor exactly when they denote instants of the same UTC hour. -/
theorem floorToHourUtc_instant_inj {d e : AwareDatetime} :
    (floorToHourUtc d).instant = (floorToHourUtc e).instant ↔ utcHour d.instant = utcHour e.instant := by
  have positive : microsecondsPerHour ≠ 0 := by decide
  rw [floorToHourUtc_instant, floorToHourUtc_instant, mul_left_inj' positive]

/-! ## When an event was received -/

/-- The receipt of the event that a call was answered 201 for under a key. -/
def Call.createdAt (txn : CallId) (key : EventKey) : Call → Option Instant
  | .createEvent payload receivedAt (.answered (.ok outcome)) =>
    if payload.eventKey txn.apiKeyId = key ∧ outcome.httpStatus = 201 then some receivedAt else none
  | _ => none

/-- The receipt of the event that some call was answered 201 for under a key. -/
def State.createdAt (s : State) (key : EventKey) : Option Instant :=
  s.answers.findSome? fun answer => answer.2.createdAt answer.1 key

/-- When the event under a key was received, given the receipts of the events that were there from
the start. -/
def State.receivedAt (earlier : EventKey → Instant) (s : State) (key : EventKey) : Instant :=
  (s.createdAt key).getD (earlier key)

variable {s next final : State} {a : Action} {txn : CallId} {call : Call} {db : Database}
  {schedule : List Action} {key : EventKey} {row : EventRow} {earlier : EventKey → Instant}

theorem Call.createdAt_eq_some {t : Instant} : call.createdAt txn key = some t ↔
    ∃ payload outcome, call = .createEvent payload t (.answered (.ok outcome)) ∧
      payload.eventKey txn.apiKeyId = key ∧ outcome.httpStatus = 201 := by
  constructor
  · intro created
    unfold createdAt at created
    split at created
    · next payload receivedAt outcome =>
      split_ifs at created with own
      obtain rfl := Option.some.inj created
      exact ⟨payload, outcome, rfl, own⟩
    · contradiction
  · rintro ⟨payload, outcome, rfl, own⟩
    exact if_pos own

theorem State.createdAt_record : (s.record txn call db).createdAt key =
    (s.createdAt key).or (call.createdAt txn key) := by
  rw [createdAt, createdAt, record]
  split_ifs with answered
  · rw [List.findSome?_append, List.findSome?_singleton]
  · have uncreated : call.createdAt txn key = none := by
      refine Option.eq_none_iff_forall_ne_some.mpr fun t created => answered ?_
      obtain ⟨payload, outcome, rfl, -⟩ := Call.createdAt_eq_some.mp created
      rfl
    rw [uncreated, Option.or_none]

/-- Only published events have been answered 201 for. -/
theorem State.createdAt_of_unpublished (faithful : EventsFaithful s) (answers : AnswersListed s)
    (absent : s.db.events.find key = none) : s.createdAt key = none := by
  refine List.findSome?_eq_none_iff.mpr ?_
  rintro ⟨txn, call⟩ listed
  apply Option.eq_none_iff_forall_ne_some.mpr
  intro t created
  obtain ⟨payload, outcome, rfl, rfl, -⟩ := Call.createdAt_eq_some.mp created
  obtain ⟨row, found, -⟩ := faithful txn payload t _ ((answers.listed txn _).mp listed).1
  rw [RowTable.find, found] at absent
  contradiction

/-- The answer 201 carries the new row and no replay. -/
theorem EventsFaithful.outcome_of_created (faithful : EventsFaithful s) {payload : EventCreateRequest}
    {receivedAt : Instant} {outcome : EventCreationOutcome}
    (place : s.calls txn = .createEvent payload receivedAt (.answered (.ok outcome)))
    (status : outcome.httpStatus = 201) : ∃ record, outcome = ⟨record, 201, false⟩ := by
  obtain ⟨row, -, rfl | rfl⟩ := faithful txn payload receivedAt _ place
  · exact ⟨_, rfl⟩
  · exact absurd status (show ¬ 200 = 201 by decide)

/-- The answer 201 tells the receipt. -/
theorem State.createdAt_of_answered (answers : AnswersListed s) (once : CreatedOnce s)
    (faithful : EventsFaithful s) {payload : EventCreateRequest} {receivedAt : Instant}
    {outcome : EventCreationOutcome} (place : s.calls txn = .createEvent payload receivedAt (.answered (.ok outcome)))
    (status : outcome.httpStatus = 201) : s.createdAt (payload.eventKey txn.apiKeyId) = some receivedAt := by
  obtain ⟨record, rfl⟩ := faithful.outcome_of_created place status
  cases found : s.createdAt (payload.eventKey txn.apiKeyId) with
  | none =>
    have listed := (answers.listed txn _).mpr ⟨place, rfl⟩
    have uncreated := List.findSome?_eq_none_iff.mp found _ listed
    rw [Call.createdAt_eq_some.mpr ⟨payload, _, rfl, rfl, rfl⟩] at uncreated
    contradiction
  | some t =>
    obtain ⟨⟨other, ended⟩, listed, created⟩ := List.exists_of_findSome?_eq_some found
    obtain ⟨otherPayload, otherOutcome, rfl, own, otherStatus⟩ := Call.createdAt_eq_some.mp created
    have otherPlace := ((answers.listed other _).mp listed).1
    obtain ⟨also, rfl⟩ := faithful.outcome_of_created otherPlace otherStatus
    obtain rfl := once (payload.eventKey txn.apiKeyId) txn other record also ⟨payload, receivedAt, place, rfl⟩
      ⟨otherPayload, t, otherPlace, own⟩
    rw [place] at otherPlace
    cases otherPlace
    rfl

/-- A call with no event of its own publishes none. -/
theorem Consistent.event_find_of_unheld (consistent : Consistent s)
    (moved : Moved txn s.db (s.calls txn) call db) (unheld : (s.held txn).event = none) :
    db.events.find key = s.db.events.find key := by
  cases moved with
  | commits released whole => exact consistent.events.find_commit_of_unclaimed unheld
  | reads | insertsEvent | locksQuota | takesBucket | rollsBack => rfl

/-- A published event was there before the step, or the step is the commit that answers 201 for it. -/
theorem Consistent.event_find_cases (consistent : Consistent s) (steps : Stepped s a next)
    (found : next.db.events.find key = some row) :
    s.db.events.find key = some row ∨
      ∃ txn payload receivedAt quotaState rollup,
        s.calls txn = .createEvent payload receivedAt (.incremented row quotaState rollup) ∧
          payload.eventKey txn.apiKeyId = key ∧
          next = s.record txn (.createEvent payload receivedAt (.answered (.ok ⟨row.record key, 201, false⟩)))
            (s.db.commit txn) := by
  cases steps with
  | start | interrupt | tick => exact .inl found
  | @advance txn call db moves =>
    have moved := Moved.of_advanced moves
    have unheld : (s.held txn).event = none → s.db.events.find key = some row :=
      fun unheld => (consistent.event_find_of_unheld moved unheld).symm.trans found
    simp only [State.held] at unheld
    generalize place : s.calls txn = before at moves unheld
    cases moves with
    | @createEvent payload receivedAt _ _ _ moves =>
      cases moves with
      | @commits pending quotaState rollup =>
        have holds : (s.held txn).event = some (payload.eventKey txn.apiKeyId, .write pending) := by
          rw [State.held, place]
          rfl
        by_cases own : payload.eventKey txn.apiKeyId = key
        · subst key
          have published := consistent.events.find_commit holds
          obtain rfl := Option.some.inj (published.symm.trans found)
          exact .inr ⟨txn, payload, receivedAt, quotaState, rollup, place, rfl, rfl⟩
        · exact .inl ((consistent.events.find_commit_of_key_ne holds (Ne.symm own)).symm.trans found)
      | replays => exact .inl (unheld rfl)
      | opens | draws | inserts | conflicts | seesNoQuota | seesQuota | losesQuota | locksQuota | readsTotal
        | rejects | increments | finds | findsNothing => exact .inl found
    | @upsertQuota _ phase => exact .inl (unheld (by cases phase <;> rfl))
    | @deleteQuota _ phase =>
      refine .inl (unheld ?_)
      cases phase with
      | removed found => cases found <;> rfl
      | received | begun | deleting | answered => rfl
    | listQuotas | getUsage | getDailyUsage | exportUsage => exact .inl (unheld rfl)

/-- An answer 201 for a key comes only while its event is unpublished. -/
theorem Stepped.createdAt_of_published (steps : Stepped s a next) (consistent : Consistent s)
    (found : s.db.events.find key = some row) :
    next.createdAt key = s.createdAt key := by
  rcases steps.moved with ⟨elapsed, rfl⟩ | ⟨txn, call, db, caller, moved, same⟩
  · rfl
  · have uncreated : call.createdAt txn key = none := by
      apply Option.eq_none_iff_forall_ne_some.mpr
      intro t created
      obtain ⟨payload, outcome, rfl, rfl, status⟩ := Call.createdAt_eq_some.mp created
      have place : next.calls txn = .createEvent payload t (.answered (.ok outcome)) := by
        rw [same, State.calls_record_self]
      obtain ⟨other, -⟩ | ⟨impossible, -⟩ | ⟨phase, _, -, before, moves, -⟩ | ⟨impossible, -⟩ :=
        steps.createEvent_cases place
      · exact other caller
      · cases impossible
      · cases moves with
        | commits =>
          have fresh := consistent.fresh txn (payload.eventKey txn.apiKeyId) _ (by rw [State.held, before]; rfl)
          rw [found] at fresh
          contradiction
        | replays => exact absurd status (show ¬ 200 = 201 by decide)
      · cases impossible
    rw [same, State.createdAt_record, uncreated, Option.or_none]

/-- The window of every published event is the hour of its receipt. -/
def WindowsFloored (earlier : EventKey → Instant) (s : State) : Prop :=
  ∀ key row, s.db.events.find key = some row →
    row.windowStart = EventCreateRequest.windowStart (s.receivedAt earlier key)

theorem WindowsFloored.stepped (floored : WindowsFloored earlier s) (consistent : Consistent s)
    (faithful : EventsFaithful s) (answers : AnswersListed s) (rows : RowsFaithful s) (steps : Stepped s a next) :
    WindowsFloored earlier next := by
  intro key row found
  obtain before | ⟨txn, payload, receivedAt, quotaState, rollup, place, rfl, same⟩ :=
    consistent.event_find_cases steps found
  · rw [State.receivedAt, steps.createdAt_of_published consistent before]
    exact floored key row before
  · have asked := rows txn payload receivedAt _ row place rfl
    have fresh := consistent.fresh txn (payload.eventKey txn.apiKeyId) _ (by rw [State.held, place]; rfl)
    have created : next.createdAt (payload.eventKey txn.apiKeyId) = some receivedAt := by
      rw [same, State.createdAt_record, State.createdAt_of_unpublished faithful answers fresh, Option.none_or]
      exact Call.createdAt_eq_some.mpr ⟨payload, _, rfl, rfl, rfl⟩
    rw [State.receivedAt, created, asked]
    rfl

section Runs

variable {collation : Collation} {now : Instant} {nextEventId : ℕ} {events : Rows EventKey EventRow}
  {quotas : Rows QuotaKey QuotaRow}

theorem WindowsFloored.of_run
    (recorded : ∀ key row, events.lookup key = some row → row.windowStart = EventCreateRequest.windowStart (earlier key))
    (reached : Machine.run step (.init (.atRest collation now nextEventId (.afterMigration events quotas)))
      schedule = some final) : WindowsFloored earlier final := by
  have start : WindowsFloored earlier (.init (.atRest collation now nextEventId (.afterMigration events quotas))) :=
    recorded
  refine Machine.run_induction (motive := fun _ => WindowsFloored earlier) _ start ?_ reached
  intro schedule s a next before floored steps
  obtain ⟨consistent, faithful, -⟩ := ingest_of_run before
  exact floored.stepped consistent faithful (.of_run before) (.of_run before) (stepped_of_step steps)

end Runs

/-! ## Buckets are hours of receipt -/

/-- The events of a tenant for a customer and a metric that were received in a UTC hour. -/
def State.eventsOfHour (earlier : EventKey → Instant) (s : State) (apiKeyId : ℕ) (customerId metric : String)
    (hour : ℤ) : List (Σ _ : EventKey, EventRow) :=
  s.db.events.committed.entries.filter fun entry => entry.1.apiKeyId = apiKeyId ∧
    entry.2.customerId = customerId ∧ entry.2.metric = metric ∧ utcHour (s.receivedAt earlier entry.1) = hour

theorem EventCreateRequest.windowStart_eq (t : Instant) :
    EventCreateRequest.windowStart t = utcHour t * microsecondsPerHour := by
  rw [EventCreateRequest.windowStart, floorToHourUtc_instant, AwareDatetime.ofInstant, AwareDatetime.instant, sub_zero]

theorem WindowsFloored.bucketEvents_eq (floored : WindowsFloored earlier s) (apiKeyId : ℕ)
    (customerId metric : String) (hour : ℤ) :
    bucketEvents s.db.events.committed ⟨apiKeyId, customerId, metric, hour * microsecondsPerHour⟩ =
      s.eventsOfHour earlier apiKeyId customerId metric hour := by
  apply List.filter_congr
  intro entry member
  have positive : microsecondsPerHour ≠ 0 := by decide
  have window := floored entry.1 entry.2 (AList.lookup_eq_some_iff.mpr member)
  rw [EventCreateRequest.windowStart_eq] at window
  simp only [EventRow.rollupKey, RollupKey.mk.injEq, window, mul_left_inj' positive]

/-- What `get_usage` answers on a database. -/
def Database.usage (db : Database) (apiKeyId : ℕ) (query : UsageQueryParams) : UsageResponse :=
  GetUsage.respond query () (GetUsage.statement apiKeyId query () db)

/-- A response gives the exact sum and the number of some events, and zeros only for none. -/
structure UsageResponse.Reports (response : UsageResponse) (logged : List (Σ _ : EventKey, EventRow)) : Prop where
  total : response.totalQuantity.toRat = totalMicros logged / 10 ^ 6
  count : response.eventCount = logged.length
  zero_total : response.totalQuantity.toRat = 0 ↔ logged = []
  zero_count : response.eventCount = 0 ↔ logged = []

theorem UsageResponse.Reports.of_sums {response : UsageResponse} {logged : List (Σ _ : EventKey, EventRow)}
    (total : response.totalQuantity.toRat = totalMicros logged / 10 ^ 6)
    (count : response.eventCount = logged.length) : response.Reports logged := by
  refine ⟨total, count, ?_, ?_⟩
  · rw [total, div_eq_zero_iff, or_iff_left (by positivity), Nat.cast_eq_zero, totalMicros_eq_zero]
  · rw [count, List.length_eq_zero_iff]

theorem RollupIsLog.usage_reports (isLog : RollupIsLog s) (floored : WindowsFloored earlier s) (apiKeyId : ℕ)
    (query : UsageQueryParams) : (s.db.usage apiKeyId query).Reports
      (s.eventsOfHour earlier apiKeyId query.customerId query.metric (utcHour query.window.instant)) := by
  have bucket := isLog ⟨apiKeyId, query.customerId, query.metric, GetUsage.windowStart query⟩
  rw [lookup_backfill, GetUsage.windowStart, floorToHourUtc_instant, floored.bucketEvents_eq] at bucket
  have found : GetUsage.statement apiKeyId query () s.db = s.db.usageRollup.find
      ⟨apiKeyId, query.customerId, query.metric, utcHour query.window.instant * microsecondsPerHour⟩ := by
    rw [GetUsage.statement, Database.findUsageRollup, GetUsage.windowStart, floorToHourUtc_instant]
  rw [bucket] at found
  split_ifs at found with empty
  · rw [Database.usage, found, empty]
    exact .of_sums (by simp [GetUsage.respond, Decimal.toRat, totalMicros]) rfl
  · rw [Database.usage, found]
    exact .of_sums (numericScale6_toRat _) rfl

/-- The offset of a query's timestamp does not matter, nor its place within the hour. -/
theorem Database.usage_congr (db : Database) (apiKeyId : ℕ) {query other : UsageQueryParams}
    (customer : other.customerId = query.customerId) (metric : other.metric = query.metric)
    (hour : utcHour other.window.instant = utcHour query.window.instant) :
    db.usage apiKeyId other = db.usage apiKeyId query := by
  have window : GetUsage.windowStart other = GetUsage.windowStart query := floorToHourUtc_instant_inj.mpr hour
  simp only [usage, GetUsage.respond, GetUsage.statement, window, customer, metric]

/-- The answer of `get_usage` is computed from one state during the call. -/
theorem usage_answer {db : Database} (reached : Machine.run step (.init db) schedule = some final)
    {query : UsageQueryParams} {response : UsageResponse}
    (answer : final.calls txn = .getUsage query (.answered (.ok response))) :
    During (.init db) schedule txn fun snapshot => response = snapshot.usage txn.apiKeyId query := by
  have read : (final.calls txn).hasRead := by
    rw [answer]
    rfl
  have during := readFrom_run reached read
  rwa [answer] at during

/-- A call that was answered 201 recorded what its request asked for. -/
def CreatedAsAsked (s : State) : Prop :=
  ∀ txn payload receivedAt outcome, s.calls txn = .createEvent payload receivedAt (.answered (.ok outcome)) →
    outcome.httpStatus = 201 → outcome.record.customerId = payload.customerId ∧
      outcome.record.metric = payload.metric ∧ outcome.record.quantity = payload.quantity

theorem CreatedAsAsked.stepped (asked : CreatedAsAsked s) (rows : RowsFaithful s) (steps : Stepped s a next) :
    CreatedAsAsked next := by
  intro txn payload receivedAt outcome place status
  obtain ⟨-, before⟩ | ⟨impossible, -⟩ | ⟨phase, db, -, before, moves, -⟩ | ⟨impossible, -⟩ :=
    steps.createEvent_cases place
  · exact asked txn payload receivedAt outcome before status
  · cases impossible
  · cases moves with
    | @commits row quotaState rollup =>
      have same := rows txn payload receivedAt _ row before rfl
      rw [same]
      exact ⟨rfl, rfl, rfl⟩
    | replays => exact absurd status (show ¬ 200 = 201 by decide)
  · cases impossible

theorem CreatedAsAsked.of_run {db : Database} (reached : Machine.run step (.init db) schedule = some final) :
    CreatedAsAsked final := by
  refine Machine.run_induction (motive := fun _ => CreatedAsAsked) _ (fun _ _ _ _ place _ => by contradiction) ?_ reached
  intro schedule s a next before asked steps
  exact asked.stepped (.of_run before) (stepped_of_step steps)

section Runs

variable {collation : Collation} {now : Instant} {nextEventId : ℕ} {events : Rows EventKey EventRow}
  {quotas : Rows QuotaKey QuotaRow}

/-- An event that a call was answered 201 for is among the events of the hour of its receipt. -/
theorem mem_eventsOfHour_of_created
    (reached : Machine.run step (.init (.atRest collation now nextEventId (.afterMigration events quotas)))
      schedule = some final) {payload : EventCreateRequest} {receivedAt : Instant} {outcome : EventCreationOutcome}
    (place : final.calls txn = .createEvent payload receivedAt (.answered (.ok outcome)))
    (status : outcome.httpStatus = 201) : ∃ row, row.quantity = payload.quantity ∧
      ⟨payload.eventKey txn.apiKeyId, row⟩ ∈
        final.eventsOfHour earlier txn.apiKeyId payload.customerId payload.metric (utcHour receivedAt) := by
  obtain ⟨-, faithful, once⟩ := ingest_of_run reached
  have created := State.createdAt_of_answered (.of_run reached) once faithful place status
  obtain ⟨customer, metric, quantity⟩ := CreatedAsAsked.of_run reached txn payload receivedAt outcome place status
  obtain ⟨row, found, same⟩ := faithful txn payload receivedAt _ place
  have record : outcome.record = row.record (payload.eventKey txn.apiKeyId) := by
    rcases same with rfl | rfl <;> rfl
  rw [record] at customer metric quantity
  refine ⟨row, quantity, List.mem_filter.mpr ⟨AList.lookup_eq_some_iff.mp found, ?_⟩⟩
  simp only [State.receivedAt, created, Option.getD_some, decide_eq_true_eq]
  exact ⟨rfl, customer, metric, trivial⟩

/-- `get_usage` reports the log. On every reachable state the answer to a query gives the sum and the
number of the events received in the hour of its timestamp, however that hour is written; an answered
call reports such a state during the call, and events acknowledged before the call are in it. -/
theorem get_usage_eq_log
    (recorded : ∀ key row, events.lookup key = some row → row.windowStart = EventCreateRequest.windowStart (earlier key))
    (reached : Machine.run step (.init (.atRest collation now nextEventId (.afterMigration events quotas)))
      schedule = some final) :
    (∀ apiKeyId query, (final.db.usage apiKeyId query).Reports
      (final.eventsOfHour earlier apiKeyId query.customerId query.metric (utcHour query.window.instant))) ∧
    (∀ apiKeyId query other, other.customerId = query.customerId → other.metric = query.metric →
      utcHour other.window.instant = utcHour query.window.instant →
      final.db.usage apiKeyId other = final.db.usage apiKeyId query) ∧
    (∀ reader query response, final.calls reader = .getUsage query (.answered (.ok response)) →
      ∃ before after middle, schedule = before ++ after ∧
        Machine.run step (.init (.atRest collation now nextEventId (.afterMigration events quotas))) before =
          some middle ∧ (middle.calls reader).isRunning ∧ response = middle.db.usage reader.apiKeyId query ∧
        response.Reports (middle.eventsOfHour earlier reader.apiKeyId query.customerId query.metric
          (utcHour query.window.instant))) ∧
    ∀ before after acked writer payload receivedAt outcome reader query response, schedule = before ++ after →
      Machine.run step (.init (.atRest collation now nextEventId (.afterMigration events quotas))) before =
        some acked →
      acked.calls writer = .createEvent payload receivedAt (.answered (.ok outcome)) → outcome.httpStatus = 201 →
      acked.calls reader = .idle → final.calls reader = .getUsage query (.answered (.ok response)) →
      writer.apiKeyId = reader.apiKeyId → payload.customerId = query.customerId → payload.metric = query.metric →
      utcHour receivedAt = utcHour query.window.instant →
      ∃ onward rest, ∃ middle : State, ∃ row : EventRow, after = onward ++ rest ∧
        Machine.run step acked onward = some middle ∧ row.quantity = payload.quantity ∧
        ⟨payload.eventKey writer.apiKeyId, row⟩ ∈ middle.eventsOfHour earlier reader.apiKeyId query.customerId
          query.metric (utcHour query.window.instant) ∧
        response.Reports (middle.eventsOfHour earlier reader.apiKeyId query.customerId query.metric
          (utcHour query.window.instant)) := by
  have reports : ∀ {schedule final}, Machine.run step
      (.init (.atRest collation now nextEventId (.afterMigration events quotas))) schedule = some final →
      ∀ apiKeyId query, (final.db.usage apiKeyId query).Reports
        (final.eventsOfHour earlier apiKeyId query.customerId query.metric (utcHour query.window.instant)) :=
    fun reached => (RollupIsLog.of_run reached).usage_reports (.of_run recorded reached)
  refine ⟨reports reached, fun apiKeyId query other => final.db.usage_congr apiKeyId, ?_, ?_⟩
  · intro reader query response answer
    obtain ⟨before, after, middle, split, through, running, rfl⟩ := usage_answer reached answer
    exact ⟨before, after, middle, split, through, running, rfl, reports through reader.apiKeyId query⟩
  · rintro before after acked writer payload receivedAt outcome reader query response rfl first place status idle
      answer tenant customer metric hour
    obtain ⟨onward, rest, middle, rfl, through, -, rfl⟩ := (usage_answer reached answer).after_idle first idle
    have whole := Machine.run_append_iff.mpr ⟨acked, first, through⟩
    have kept := (calls_run_of_answered (by rw [place]; rfl) through).trans place
    obtain ⟨row, quantity, logged⟩ := mem_eventsOfHour_of_created whole kept status
    rw [customer, metric, hour, tenant] at logged
    exact ⟨onward, rest, middle, row, rfl, through, quantity, by rwa [tenant], reports whole reader.apiKeyId query⟩

end Runs

/-- Two events of one hour, asked for with a timestamp whose offset is five and a half hours. -/
theorem get_usage_eq_log_half_hour_offset :
    let request (name : String) (receivedAt : Instant) : Request :=
      .createEvent ⟨"c", "m", ⟨1500000, by decide, by decide⟩, name⟩ receivedAt
    let query : UsageQueryParams := ⟨"c", "m", ⟨microsecondsPerHour * 23 / 4, microsecondsPerHour * 11 / 2⟩⟩
    let schedule := (request "a" 0).steps ⟨7, 0⟩ 6 ++ (request "b" 3599999999).steps ⟨7, 1⟩ 6 ++
      (Request.getUsage query).steps ⟨7, 2⟩ 3
    ∃ final, Machine.run step (.init (.atRest .codePoint 0 1 (.afterMigration ∅ ∅))) schedule = some final ∧
      final.db.usage 7 query = ⟨"c", "m", "1970-01-01T00:00:00+00:00", ⟨3000000, -6⟩, 2⟩ ∧
      (final.eventsOfHour (fun _ => 0) 7 "c" "m" 0).length = 2 := by
  intro request query schedule
  obtain ⟨final, reached, answer⟩ := Option.map_eq_some_iff.mp (show
    (Machine.run step (.init (.atRest .codePoint 0 1 (.afterMigration ∅ ∅))) schedule).map
      (fun final => final.db.usage 7 query) =
        some ⟨"c", "m", "1970-01-01T00:00:00+00:00", ⟨3000000, -6⟩, 2⟩ by decide +kernel)
  have reports : (final.db.usage 7 query).Reports (final.eventsOfHour (fun _ => 0) 7 "c" "m" 0) :=
    (get_usage_eq_log (fun _ _ found => by contradiction) reached).1 7 query
  exact ⟨final, reached, answer, reports.count.symm.trans (congrArg UsageResponse.eventCount answer)⟩

end Meterly
