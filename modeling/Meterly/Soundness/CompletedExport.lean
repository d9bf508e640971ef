import Mathlib.Data.Nat.Digits.Defs
import Meterly.Soundness.Snapshots

/-! # When a completed export is complete

The rows of an export are counted in one transaction and read in another, by a statement that
stops at the cap. A body that was streamed to its end holds every matching row exactly when no
more than the cap matched in the snapshot of that statement. A bucket that is committed between
the two transactions can take the number of matching rows above the cap.
-/

namespace Meterly

/-! ## The body holds the records -/

namespace ExportStream

variable {stream : ExportStream}

/-- The rows written so far. -/
def rows (stream : ExportStream) : List (List String) := stream.chunks.flatten ++ stream.buffer

@[simp] theorem rows_drain : stream.drain.rows = stream.rows := by
  simp only [rows, drain, List.flatten_append, List.flatten_singleton, List.append_nil]

@[simp] theorem rows_writeRow (cells : List String) : (stream.writeRow cells).rows = stream.rows ++ [cells] :=
  (List.append_assoc ..).symm

theorem rows_writeRecord (record : UsageRollupExportRecord) :
    (stream.writeRecord record).rows = stream.rows ++ [exportCells record] := by
  simp only [writeRecord]
  split_ifs
  · rw [rows_drain]
    exact (List.append_assoc ..).symm
  · exact (List.append_assoc ..).symm

theorem rows_foldl_writeRecord (records : List UsageRollupExportRecord) :
    (records.foldl writeRecord stream).rows = stream.rows ++ records.map exportCells := by
  induction records generalizing stream with
  | nil => exact (List.append_nil _).symm
  | cons record rest ih =>
    rw [List.foldl_cons, ih, rows_writeRecord, List.append_assoc]
    rfl

theorem flatten_chunks_flush : stream.flush.chunks.flatten = stream.rows := by
  rw [flush]
  split_ifs with empty
  · rw [rows, empty, List.append_nil]
  · rw [← rows_drain, rows]
    exact (List.append_nil _).symm

end ExportStream

/-- Every record is written once, in order, after the header. -/
theorem flatten_chunks_streamExportCsv (records : List UsageRollupExportRecord) :
    (streamExportCsv records).chunks.flatten = exportHeader :: records.map exportCells := by
  rw [streamExportCsv, ExportStream.flatten_chunks_flush, ExportStream.rows_foldl_writeRecord]
  rfl

/-- The data rows of a body are exactly the matching rows of a database. -/
def ExportBody.Complete (body : ExportBody) (db : Database) (apiKeyId : ℕ) (params : UsageExportQueryParams) : Prop :=
  ∃ rows, body.chunks.flatten = exportHeader :: rows ∧
    rows.Perm ((db.matchingRollups apiKeyId params).map fun entry => exportCells (Database.exportRecord entry))

/-- What is streamed from a snapshot is complete exactly when the cap leaves nothing out. -/
theorem complete_streamExportCsv_iff {db : Database} {apiKeyId : ℕ} {params : UsageExportQueryParams} :
    (streamExportCsv (db.streamUsageRollups apiKeyId params maxExportRows)).Complete db apiKeyId params ↔
      (db.matchingRollups apiKeyId params).length ≤ maxExportRows := by
  have body := flatten_chunks_streamExportCsv (db.streamUsageRollups apiKeyId params maxExportRows)
  constructor
  · rintro ⟨rows, same, complete⟩
    obtain rfl := (List.cons.inj (body.symm.trans same)).2
    have lengths := complete.length_eq
    simp only [Database.streamUsageRollups, List.length_map, List.length_take, length_orderBy] at lengths
    omega
  · intro small
    refine ⟨_, body, ?_⟩
    rw [Database.streamUsageRollups, List.take_of_length_le (by rwa [length_orderBy, List.length_map])]
    have listed := (orderBy_perm db.exportOrder ((db.matchingRollups apiKeyId params).map Database.exportRecord)).map exportCells
    rwa [List.map_map] at listed

/-! ## The snapshot of the streaming statement -/

variable {s next source final middle : State} {a : Action} {txn : CallId} {schedule : List Action}
  {params : UsageExportQueryParams} {records : List UsageRollupExportRecord} {body : ExportBody}

/-- The streaming statement of a call is executed in this state of the run. -/
def StreamsFrom (source : State) (schedule : List Action) (txn : CallId) (params : UsageExportQueryParams)
    (middle : State) : Prop :=
  ∃ earlier later, schedule = earlier ++ .advance txn :: later ∧ Machine.run step source earlier = some middle ∧
    middle.calls txn = .exportUsage params .streamBegun

/-- The call has read these records, and completes with nothing else. -/
def Call.Streamed (params : UsageExportQueryParams) (records : List UsageRollupExportRecord) (call : Call) : Prop :=
  call = .exportUsage params (.streaming records) ∨
    ∃ outcome, call = .exportUsage params (.answered outcome) ∧ ∀ body, outcome = .ok body → body = streamExportCsv records

theorem Call.Streamed.stepped (streamed : (s.calls txn).Streamed params records) (steps : Stepped s a next) :
    (next.calls txn).Streamed params records := by
  rcases steps.call_cases txn with ⟨-, same⟩ | ⟨request, idle, -, -⟩ | ⟨call, db, -, moves, same, -⟩ | ⟨-, same, -⟩
  · rwa [same]
  · rw [idle] at streamed
    rcases streamed with impossible | ⟨outcome, impossible, -⟩ <;> contradiction
  · rw [same]
    rcases streamed with place | ⟨outcome, place, -⟩
    · rw [place] at moves
      cases moves with
      | exportUsage moves =>
        cases moves with
        | completes => exact .inr ⟨_, rfl, fun body answer => (Except.ok.inj answer).symm⟩
    · exact absurd (show (s.calls txn).isAnswered by rw [place]; rfl) moves.not_answered
  · rw [same]
    obtain place | ⟨outcome, place, -⟩ := streamed <;> rw [place] <;>
      exact .inr ⟨_, rfl, fun body answer => by contradiction⟩

/-- What a completed export answers is what its statement returned. -/
theorem StreamsFrom.body_eq (streams : StreamsFrom source schedule txn params middle)
    (reached : Machine.run step source schedule = some final)
    (completed : final.calls txn = .exportUsage params (.answered (.ok body))) :
    body = streamExportCsv (middle.db.streamUsageRollups txn.apiKeyId params maxExportRows) := by
  obtain ⟨earlier, later, rfl, before, place⟩ := streams
  obtain ⟨_, same, onward⟩ := Machine.run_append_iff.mp reached
  obtain rfl := Option.some.inj (before.symm.trans same)
  obtain ⟨next, last, onward⟩ := Option.bind_eq_some_iff.mp onward
  have streamed : (next.calls txn).Streamed params (middle.db.streamUsageRollups txn.apiKeyId params maxExportRows) := by
    cases stepped_of_step last with
    | advance moves =>
      rw [State.calls_record_self]
      rw [place] at moves
      cases moves with
      | exportUsage moves =>
        cases moves with
        | streams => exact .inl rfl
  have ends := Machine.run_invariant (motive := fun s => (s.calls txn).Streamed params
    (middle.db.streamUsageRollups txn.apiKeyId params maxExportRows)) streamed
    (fun _ _ _ streamed steps => streamed.stepped (stepped_of_step steps)) onward
  rw [completed] at ends
  rcases ends with impossible | ⟨outcome, same, only⟩
  · cases impossible
  · cases same
    exact only body rfl

/-- A call that completes an export has executed its streaming statement. -/
theorem exists_streamsFrom {db : Database} (reached : Machine.run step (.init db) schedule = some final)
    (completed : final.calls txn = .exportUsage params (.answered (.ok body))) :
    ∃ middle, StreamsFrom (.init db) schedule txn params middle := by
  obtain ⟨earlier, a, later, middle, next, rfl, before, last, onward, unread, read⟩ :=
    Machine.exists_step_of_run (P := fun s => (s.calls txn).hasRead) (by simp [State.init, Call.hasRead]) reached
      (by rw [completed]; rfl)
  obtain ⟨request, serves⟩ : ∃ request, (next.calls txn).request = some request := by
    cases place : next.calls txn with
    | idle => rw [place] at read; contradiction
    | createEvent | upsertQuota | deleteQuota | listQuotas | getUsage | getDailyUsage | exportUsage => exact ⟨_, rfl⟩
  have served := request_run onward serves
  rw [completed] at served
  obtain rfl : Request.exportUsage params = request := Option.some.inj served
  obtain ⟨-, same⟩ | ⟨request, -, same, -⟩ | ⟨call, db, rfl, moves, rfl, -⟩ | ⟨-, same, -⟩ :=
    (stepped_of_step last).call_cases txn
  · rw [same] at read
    exact absurd read unread
  · rw [same, Request.hasRead_call] at read
    contradiction
  · refine ⟨middle, earlier, later, rfl, before, ?_⟩
    generalize middle.calls txn = phase at moves unread
    generalize next.calls txn = after at moves read serves
    cases moves with
    | exportUsage moves =>
      cases moves with
      | streams =>
        cases serves
        rfl
      | completes => exact absurd rfl unread
      | opens | counts | refuses | prepares | sendsHeader | opensStream => contradiction
    | createEvent | upsertQuota | deleteQuota | listQuotas | getUsage | getDailyUsage => cases serves
  · rw [same, Call.hasRead_interrupt] at read
    contradiction

/-- An export that is streamed to its end has executed its statement, and holds every row that matched
in the snapshot of that statement exactly when no more than the cap matched. -/
theorem completed_export_complete_iff {collation : Collation} {now : Instant} {nextEventId : ℕ} {tables : Tables}
    (reached : Machine.run step (.init (.atRest collation now nextEventId tables)) schedule = some final)
    (completed : final.calls txn = .exportUsage params (.answered (.ok body))) :
    (∃ middle, StreamsFrom (.init (.atRest collation now nextEventId tables)) schedule txn params middle) ∧
    ∀ middle, StreamsFrom (.init (.atRest collation now nextEventId tables)) schedule txn params middle →
      (body.Complete middle.db txn.apiKeyId params ↔
        (middle.db.matchingRollups txn.apiKeyId params).length ≤ maxExportRows) := by
  refine ⟨exists_streamsFrom reached completed, ?_⟩
  intro middle streams
  rw [streams.body_eq reached completed]
  exact complete_streamExportCsv_iff

/-- An event and a complete export of it. -/
theorem completed_export_complete_iff_one :
    let params : UsageExportQueryParams := ⟨some "c", none, none, none⟩
    let event : Request := .createEvent ⟨"c", "m", ⟨1500000, by decide, by decide⟩, "k"⟩ 0
    let start : State := .init (.atRest .codePoint 0 1 (.afterMigration ∅ ∅))
    let schedule := event.steps ⟨1, 0⟩ 6 ++ (Request.exportUsage params).steps ⟨1, 1⟩ 5 ++
      [.advance ⟨1, 1⟩, .advance ⟨1, 1⟩]
    ∃ final middle body, Machine.run step start schedule = some final ∧
      final.calls ⟨1, 1⟩ = .exportUsage params (.answered (.ok body)) ∧
      StreamsFrom start schedule ⟨1, 1⟩ params middle ∧ body.Complete middle.db 1 params := by
  intro params event start schedule
  obtain ⟨final, middle, body, reached, completed, streams, few⟩ : ∃ final middle body,
      Machine.run step start schedule = some final ∧
      final.calls ⟨1, 1⟩ = .exportUsage params (.answered (.ok body)) ∧
      StreamsFrom start schedule ⟨1, 1⟩ params middle ∧ (middle.db.matchingRollups 1 params).length = 1 :=
    ⟨_, _, _, rfl, rfl, ⟨_, [.advance ⟨1, 1⟩], rfl, rfl, rfl⟩, rfl⟩
  refine ⟨final, middle, body, reached, completed, streams, ?_⟩
  apply ((completed_export_complete_iff reached completed).2 middle streams).mpr
  rw [few]
  decide

/-! ## A bucket between the two transactions -/

/-- An export that finds few enough rows is ready to stream after three steps. -/
theorem run_prepare (idle : s.calls txn = .idle)
    (small : (s.db.matchingRollups txn.apiKeyId params).length ≤ maxExportRows) :
    Machine.run step s ((Request.exportUsage params).steps txn 3) =
      some (s.record txn (.exportUsage params .prepared) (s.db.commit txn)) := by
  simp only [Request.steps, List.replicate, Machine.run_cons, Machine.run_nil, step, idle, Option.bind_some,
    Request.call, State.calls_record_self, Call.advance, ExportUsage.advance, Option.map_some, Prod.map_apply,
    State.db_record, Database.countUsageRollups, not_lt.mpr small, if_false, id]
  simp only [State.record, Function.update_idem]
  rfl

theorem run_openStream (prepared : s.calls txn = .exportUsage params .prepared) :
    Machine.run step s (List.replicate 2 (.advance txn)) =
      some (s.record txn (.exportUsage params .streamBegun) s.db) := by
  simp only [List.replicate, Machine.run_cons, Machine.run_nil, step, prepared, Option.bind_some,
    State.calls_record_self, Call.advance, ExportUsage.advance, Option.map_some, Prod.map_apply, State.db_record, id]
  simp only [State.record, Function.update_idem]
  rfl

theorem run_stream (begun : s.calls txn = .exportUsage params .streamBegun) :
    Machine.run step s (List.replicate 2 (.advance txn)) = some (s.record txn (.exportUsage params (.answered (.ok
      (streamExportCsv (s.db.streamUsageRollups txn.apiKeyId params maxExportRows))))) (s.db.commit txn)) := by
  simp only [List.replicate, Machine.run_cons, Machine.run_nil, step, begun, Option.bind_some,
    State.calls_record_self, Call.advance, ExportUsage.advance, Option.map_some, Prod.map_apply, State.db_record, id]
  simp only [State.record, Function.update_idem]
  rfl

/-- A new event that meets no other transaction and no quota is answered 201, and counted in its bucket. -/
theorem run_createEvent {collation : Collation} {now : Instant} {nextEventId : ℕ} {events : Rows EventKey EventRow}
    {usageRollup : Rows RollupKey RollupRow} {payload : EventCreateRequest} (receivedAt : Instant)
    (rest : s.db = .atRest collation now nextEventId ⟨events, usageRollup, ∅⟩) (idle : s.calls txn = .idle)
    (fresh : events.lookup (payload.eventKey txn.apiKeyId) = none) :
    let key := payload.eventKey txn.apiKeyId
    let row := payload.row receivedAt now nextEventId
    let bucket := row.rollupKey txn.apiKeyId
    Machine.run step s ((Request.createEvent payload receivedAt).steps txn 6) =
      some (s.record txn (.createEvent payload receivedAt (.answered (.ok ⟨row.record key, 201, false⟩)))
        (.atRest collation now (nextEventId + 1) ⟨events.insert key row,
          usageRollup.insert bucket (Database.bump (usageRollup.lookup bucket) payload.quantity), ∅⟩)) := by
  intro key row bucket
  have find : s.db.events.find (payload.eventKey txn.apiKeyId) = none := by
    rw [rest]
    exact fresh
  have free : s.db.events.Free txn (payload.eventKey txn.apiKeyId) := by
    rw [rest]
    intro hold found
    contradiction
  have freeBucket : ∀ bucket, s.db.usageRollup.Free txn bucket := by
    rw [rest]
    intro bucket hold found
    contradiction
  have noQuota : ∀ quota, s.db.quotas.find quota = none := by
    rw [rest]
    intro quota
    rfl
  have accepted : ∀ row, ¬ CreateEvent.Rejected none row := by
    rintro row ⟨state, impossible, -⟩
    contradiction
  simp only [Request.steps, List.replicate, Machine.run_cons, Machine.run_nil, step, idle, Option.bind_some,
    Request.call, State.calls_record_self, Call.advance, CreateEvent.advance, Option.map_some, Prod.map_apply,
    State.db_record, id, Database.insertEventIfNew, Database.drawEventId, find, free, if_true, Database.quotaVersion,
    noQuota, Option.map_none, accepted, if_false, Database.incrementUsageRollup, freeBucket]
  simp only [State.record, Function.update_idem, rest, Database.commit, Database.atRest, RowTable.commit_hold_ofRows]
  rfl

/-- An idempotency key for each hour: its number in binary. -/
def hourlyKey (hour : ℕ) : String :=
  String.ofList ((Nat.digits 2 (hour + 1)).map fun digit => if digit = 0 then '0' else '1')

theorem hourlyKey_injective : Function.Injective hourlyKey := by
  have decoded : ∀ hour, (hourlyKey hour).toList.map (fun c => if c = '0' then 0 else 1) = Nat.digits 2 (hour + 1) := by
    intro hour
    rw [hourlyKey, String.toList_ofList, List.map_map]
    refine (List.map_congr_left fun digit member => ?_).trans (List.map_id _)
    have small := Nat.digits_lt_base (by decide) member
    obtain rfl | rfl : digit = 0 ∨ digit = 1 := by omega
    · rfl
    · rfl
  intro left right same
  have digits : Nat.digits 2 (left + 1) = Nat.digits 2 (right + 1) := by rw [← decoded left, same, decoded right]
  exact Nat.succ_injective (Nat.digits.injective 2 digits)

/-- The event of an hour. -/
def hourlyEvent (hour : ℕ) : Σ _ : EventKey, EventRow :=
  ⟨⟨1, hourlyKey hour⟩, hour, "c", "m", ⟨1000000, by decide, by decide⟩, hour * microsecondsPerHour,
    hour * microsecondsPerHour⟩

def hourlyBucket (hour : ℕ) : RollupKey := ⟨1, "c", "m", hour * microsecondsPerHour⟩

theorem hourlyBucket_injective : Function.Injective hourlyBucket := by
  intro left right same
  have windows : (left : ℤ) * microsecondsPerHour = right * microsecondsPerHour := congrArg RollupKey.windowStart same
  exact_mod_cast mul_right_cancel₀ (show microsecondsPerHour ≠ 0 by decide) windows

/-- One event of a tenant in each of the first hours. -/
def hourlyEvents (hours : ℕ) : Rows EventKey EventRow where
  entries := (List.range hours).map hourlyEvent
  nodupKeys := by
    rw [List.NodupKeys, List.keys, List.map_map]
    refine List.nodup_range.map fun left right same => hourlyKey_injective ?_
    exact congrArg EventKey.idempotencyKey same

theorem lookup_hourlyEvents (hours : ℕ) : (hourlyEvents hours).lookup ⟨1, hourlyKey hours⟩ = none := by
  rw [AList.lookup_eq_none, AList.mem_keys]
  intro member
  obtain ⟨entry, member, same⟩ := List.mem_map.mp member
  obtain ⟨hour, earlier, rfl⟩ := List.mem_map.mp member
  obtain rfl := hourlyKey_injective (congrArg EventKey.idempotencyKey same)
  exact absurd (List.mem_range.mp earlier) (lt_irrefl hour)

/-- Each hour has its own bucket. -/
theorem keys_backfill_hourlyEvents (hours : ℕ) :
    (backfill (hourlyEvents hours)).keys = (List.range hours).map hourlyBucket := by
  have buckets : ((hourlyEvents hours).entries.map fun entry => entry.2.rollupKey entry.1.apiKeyId) =
      (List.range hours).map hourlyBucket := List.map_map ..
  have distinct : ((List.range hours).map hourlyBucket).Nodup := List.nodup_range.map hourlyBucket_injective
  rw [AList.keys, List.keys, backfill, groupBy, List.map_map, buckets, distinct.dedup]
  exact List.map_id _

theorem lookup_backfill_hourlyEvents (hours : ℕ) :
    (backfill (hourlyEvents hours)).lookup (hourlyBucket hours) = none := by
  rw [AList.lookup_eq_none, AList.mem_keys, keys_backfill_hourlyEvents]
  intro member
  obtain ⟨hour, earlier, same⟩ := List.mem_map.mp member
  obtain rfl := hourlyBucket_injective same
  exact absurd (List.mem_range.mp earlier) (lt_irrefl hour)

/-- Without filters every row of the tenant matches. -/
theorem length_matchingRollups_of_own {db : Database} {apiKeyId : ℕ}
    (own : ∀ key ∈ db.usageRollup.committed.keys, key.apiKeyId = apiKeyId) :
    (db.matchingRollups apiKeyId ⟨none, none, none, none⟩).length = db.usageRollup.committed.keys.length := by
  have all : db.matchingRollups apiKeyId ⟨none, none, none, none⟩ = db.usageRollup.committed.entries := by
    apply List.filter_eq_self.mpr
    intro entry member
    simp only [exportFilter, exportFilterClauses, Option.toList_none, List.map_nil, List.append_nil, List.all_cons,
      List.all_nil, Bool.and_true, ExportClause.passes, decide_eq_true_eq]
    exact own entry.1 (List.mem_map_of_mem member)
  rw [all]
  exact (List.length_map _).symm

theorem windowStart_of_hour (hour : ℕ) :
    EventCreateRequest.windowStart (hour * microsecondsPerHour) = hour * microsecondsPerHour := by
  simp only [EventCreateRequest.windowStart, floorToHourUtc, AwareDatetime.ofInstant, AwareDatetime.asUtc,
    AwareDatetime.instant, AwareDatetime.replaceToHour, sub_zero, Int.mul_emod_left]

/-- The rows of a tenant with one event in each hour are counted, the first event of the next hour is
committed, and then the rows are streamed. -/
theorem run_export_over_hours (hours : ℕ) (small : hours ≤ maxExportRows) :
    let params : UsageExportQueryParams := ⟨none, none, none, none⟩
    let start : State := .init (.atRest .codePoint 0 hours (.afterMigration (hourlyEvents hours) ∅))
    let event : Request := .createEvent ⟨"c", "m", ⟨1000000, by decide, by decide⟩, hourlyKey hours⟩
      (hours * microsecondsPerHour)
    let schedule := (Request.exportUsage params).steps ⟨1, 0⟩ 3 ++ event.steps ⟨1, 1⟩ 6 ++
      List.replicate 2 (.advance ⟨1, 0⟩) ++ List.replicate 2 (.advance ⟨1, 0⟩)
    ∃ final middle, Machine.run step start schedule = some final ∧
      final.calls ⟨1, 0⟩ = .exportUsage params (.answered (.ok
        (streamExportCsv (middle.db.streamUsageRollups 1 params maxExportRows)))) ∧
      StreamsFrom start schedule ⟨1, 0⟩ params middle ∧ (middle.db.matchingRollups 1 params).length = hours + 1 := by
  intro params start event schedule
  have keys := keys_backfill_hourlyEvents hours
  have own : ∀ key ∈ (backfill (hourlyEvents hours)).keys, key.apiKeyId = 1 := by
    intro key member
    obtain ⟨hour, -, rfl⟩ := List.mem_map.mp (keys ▸ member)
    rfl
  have length : (backfill (hourlyEvents hours)).keys.length = hours := by
    rw [keys, List.length_map, List.length_range]
  have counted : (start.db.matchingRollups 1 params).length = hours :=
    (length_matchingRollups_of_own own).trans length
  have unstarted : start.calls ⟨1, 0⟩ = .idle := rfl
  have prepared := run_prepare unstarted (counted.trans_le small)
  let counting := start.record ⟨1, 0⟩ (.exportUsage params .prepared) (start.db.commit ⟨1, 0⟩)
  let payload : EventCreateRequest := ⟨"c", "m", ⟨1000000, by decide, by decide⟩, hourlyKey hours⟩
  have rest : counting.db = .atRest .codePoint 0 hours ⟨hourlyEvents hours, backfill (hourlyEvents hours), ∅⟩ := rfl
  have idle : counting.calls ⟨1, 1⟩ = .idle := rfl
  have fresh : (hourlyEvents hours).lookup (payload.eventKey 1) = none := lookup_hourlyEvents hours
  have created := run_createEvent (hours * microsecondsPerHour) rest idle fresh
  have bucket : (payload.row (hours * microsecondsPerHour) 0 hours).rollupKey 1 = hourlyBucket hours :=
    congrArg (RollupKey.mk 1 "c" "m") (windowStart_of_hour hours)
  obtain ⟨between, before, place, rollups⟩ : ∃ between, Machine.run step start
      ((Request.exportUsage params).steps ⟨1, 0⟩ 3 ++ event.steps ⟨1, 1⟩ 6) = some between ∧
      between.calls ⟨1, 0⟩ = .exportUsage params .prepared ∧
      between.db.usageRollup.committed.keys = hourlyBucket hours :: (backfill (hourlyEvents hours)).keys := by
    refine ⟨_, Machine.run_append_iff.mpr ⟨_, prepared, created⟩, rfl, ?_⟩
    have unknown : hourlyBucket hours ∉ (backfill (hourlyEvents hours)).keys :=
      AList.lookup_eq_none.mp (lookup_backfill_hourlyEvents hours)
    apply (AList.keys_insert ..).trans
    rw [bucket]
    exact congrArg (List.cons (hourlyBucket hours)) (List.erase_of_not_mem unknown)
  have opened := run_openStream place
  have begun : (between.record ⟨1, 0⟩ (.exportUsage params .streamBegun) between.db).calls ⟨1, 0⟩ =
      .exportUsage params .streamBegun := rfl
  have streamed := run_stream begun
  refine ⟨_, _, Machine.run_append_iff.mpr ⟨_, Machine.run_append_iff.mpr ⟨_, before, opened⟩, streamed⟩,
    State.calls_record_self, ⟨_, [.advance ⟨1, 0⟩], rfl, Machine.run_append_iff.mpr ⟨_, before, opened⟩, rfl⟩, ?_⟩
  have ownAll : ∀ key ∈ between.db.usageRollup.committed.keys, key.apiKeyId = 1 := by
    rw [rollups]
    exact List.forall_mem_cons.mpr ⟨rfl, own⟩
  exact (length_matchingRollups_of_own ownAll).trans (by rw [rollups, List.length_cons, length])

/-- With as many buckets as the cap allows, an export completes although a row is missing. -/
theorem export_truncated_by_new_bucket :
    let params : UsageExportQueryParams := ⟨none, none, none, none⟩
    let start : State := .init (.atRest .codePoint 0 maxExportRows (.afterMigration (hourlyEvents maxExportRows) ∅))
    let event : Request := .createEvent ⟨"c", "m", ⟨1000000, by decide, by decide⟩, hourlyKey maxExportRows⟩
      (maxExportRows * microsecondsPerHour)
    let schedule := (Request.exportUsage params).steps ⟨1, 0⟩ 3 ++ event.steps ⟨1, 1⟩ 6 ++
      List.replicate 2 (.advance ⟨1, 0⟩) ++ List.replicate 2 (.advance ⟨1, 0⟩)
    ∃ final middle body, Machine.run step start schedule = some final ∧
      final.calls ⟨1, 0⟩ = .exportUsage params (.answered (.ok body)) ∧ body.completed ∧
      StreamsFrom start schedule ⟨1, 0⟩ params middle ∧ ¬ body.Complete middle.db 1 params := by
  obtain ⟨final, middle, reached, completed, streams, matching⟩ := run_export_over_hours maxExportRows le_rfl
  refine ⟨final, middle, _, reached, completed, rfl, streams, ?_⟩
  rw [complete_streamExportCsv_iff, matching]
  exact Nat.not_succ_le_self maxExportRows

end Meterly
