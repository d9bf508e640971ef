import Meterly.Soundness.Consistency

/-! # The rollup is the log

The published rollup and the published events change together, in one commit: the new event has a
key of its own, so it adds one entry to the log, and the bucket it holds is the published one with
that entry added. Hence the rollup maintained by increments is the one that the backfill of the
migration would compute from the log.
-/

namespace Meterly

/-- The published events that count in a bucket. -/
def bucketEvents (events : Rows EventKey EventRow) (bucket : RollupKey) : List (Σ _ : EventKey, EventRow) :=
  events.entries.filter fun entry => entry.2.rollupKey entry.1.apiKeyId = bucket

/-- The exact sum of the quantities of some events. -/
def totalMicros (rows : List (Σ _ : EventKey, EventRow)) : ℕ := (rows.map fun entry => entry.2.quantity.micros).sum

theorem totalMicros_eq_zero {logged : List (Σ _ : EventKey, EventRow)} : totalMicros logged = 0 ↔ logged = [] := by
  cases logged with
  | nil => exact iff_of_true rfl rfl
  | cons entry rest =>
    have positive := entry.2.quantity.positive
    refine iff_of_false ?_ (List.cons_ne_nil _ _)
    simp only [totalMicros, List.map_cons, List.sum_cons]
    omega

theorem lookup_backfill (events : Rows EventKey EventRow) (bucket : RollupKey) :
    (backfill events).lookup bucket =
      if bucketEvents events bucket = [] then none
      else some ⟨totalMicros (bucketEvents events bucket), (bucketEvents events bucket).length⟩ := by
  have occurs : bucket ∈ events.entries.map (fun entry => entry.2.rollupKey entry.1.apiKeyId) ↔
      ¬ bucketEvents events bucket = [] := by
    simp only [bucketEvents, List.filter_eq_nil_iff, List.mem_map, decide_eq_true_eq, not_forall, not_not,
      exists_prop]
  rw [backfill, lookup_groupBy]
  by_cases empty : bucketEvents events bucket = []
  · rw [if_neg (by rw [occurs]; exact not_not_intro empty), if_pos empty]
  · rw [if_pos (occurs.mpr empty), if_neg empty]
    rfl

theorem bucketEvents_insert {events : Rows EventKey EventRow} {key : EventKey} {row : EventRow}
    (fresh : events.lookup key = none) (bucket : RollupKey) :
    bucketEvents (events.insert key row) bucket =
      if row.rollupKey key.apiKeyId = bucket then ⟨key, row⟩ :: bucketEvents events bucket
      else bucketEvents events bucket := by
  rw [bucketEvents, AList.insert_of_lookup_eq_none fresh, List.filter_cons]
  simp only [decide_eq_true_eq, bucketEvents]

/-- One new event bumps its bucket and no other. -/
theorem lookup_backfill_insert {events : Rows EventKey EventRow} {key : EventKey} {row : EventRow}
    (fresh : events.lookup key = none) (bucket : RollupKey) :
    (backfill (events.insert key row)).lookup bucket =
      if row.rollupKey key.apiKeyId = bucket then
        some (Database.bump ((backfill events).lookup bucket) row.quantity)
      else (backfill events).lookup bucket := by
  rw [lookup_backfill, lookup_backfill, bucketEvents_insert fresh]
  by_cases own : row.rollupKey key.apiKeyId = bucket
  · rw [if_pos own, if_pos own, if_neg (List.cons_ne_nil _ _)]
    cases same : bucketEvents events bucket with
    | nil => rfl
    | cons first rest =>
      rw [if_neg (List.cons_ne_nil _ _)]
      simp only [Database.bump, totalMicros, List.map_cons, List.sum_cons, List.length_cons,
        Option.some.injEq, RollupRow.mk.injEq]
      exact ⟨Nat.add_comm _ _, trivial⟩
  · rw [if_neg own, if_neg own]

/-- The published rollup answers every lookup as the backfill of the published events does. -/
def RollupIsLog (s : State) : Prop :=
  ∀ bucket, s.db.usageRollup.find bucket = (backfill s.db.events.committed).lookup bucket

/-- Events and rollup are published together. -/
theorem RollupIsLog.record {s : State} {txn : CallId} {call : Call} {db : Database} (isLog : RollupIsLog s)
    (consistent : Consistent s) (moved : Moved txn s.db (s.calls txn) call db) :
    RollupIsLog (s.record txn call db) := by
  cases moved with
  | reads | insertsEvent | locksQuota | takesBucket | rollsBack => exact isLog
  | commits released whole =>
    intro bucket
    change (s.db.usageRollup.commit txn).find bucket = (backfill (s.db.events.commit txn).committed).lookup bucket
    cases pending : (s.held txn).rollup with
    | none =>
      have unclaimed : (s.held txn).event = none :=
        Option.isSome_eq_false_iff.mp (whole.trans (congrArg Option.isSome pending)) |> Option.isNone_iff_eq_none.mp
      rw [consistent.events.committed_of_unclaimed unclaimed, consistent.rollups.find_commit_of_unclaimed pending]
      exact isLog bucket
    | some hold =>
      obtain ⟨key, effect⟩ := hold
      obtain ⟨eventKey, row, event, own, rfl, rfl⟩ := consistent.bumped txn key effect pending
      have fresh : s.db.events.committed.lookup eventKey = none := consistent.fresh txn eventKey _ event
      rw [consistent.events.committed_of_claim event, Effect.publish, lookup_backfill_insert fresh, own]
      by_cases same : row.rollupKey txn.apiKeyId = bucket
      · subst bucket
        rw [if_pos rfl, consistent.rollups.find_commit pending, Effect.result, isLog]
      · rw [if_neg same, consistent.rollups.find_commit_of_key_ne pending (Ne.symm same), isLog]

/-- Along every run from migrated tables, the rollup stays the log. -/
theorem RollupIsLog.of_run {collation : Collation} {now : Instant} {nextEventId : ℕ}
    {events : Rows EventKey EventRow} {quotas : Rows QuotaKey QuotaRow} {schedule : List Action} {final : State}
    (reached : Machine.run step (.init (.atRest collation now nextEventId (.afterMigration events quotas)))
      schedule = some final) : RollupIsLog final := by
  suffices both : Consistent final ∧ RollupIsLog final from both.2
  refine Machine.run_invariant (motive := fun s => Consistent s ∧ RollupIsLog s) ⟨.init .., fun _ => rfl⟩ ?_ reached
  rintro s a next ⟨consistent, isLog⟩ steps
  refine ⟨consistent.stepped (stepped_of_step steps), ?_⟩
  rcases (stepped_of_step steps).moved with ⟨elapsed, rfl⟩ | ⟨txn, call, db, -, moved, rfl⟩
  · exact isLog
  · exact isLog.record consistent moved

/-- In every reachable state a bucket has a rollup row exactly when it has an event, with the exact
sum and number of its events; rebuilding the rollup from the events gives the same rows. -/
theorem usage_rollup_eq_log {collation : Collation} {now : Instant} {nextEventId : ℕ}
    {events : Rows EventKey EventRow} {quotas : Rows QuotaKey QuotaRow} {schedule : List Action} {final : State}
    (reached : Machine.run step (.init (.atRest collation now nextEventId (.afterMigration events quotas)))
      schedule = some final) :
    (∀ bucket, (final.db.usageRollup.find bucket).isSome ↔
      ∃ entry ∈ final.db.events.committed.entries, entry.2.rollupKey entry.1.apiKeyId = bucket) ∧
    (∀ bucket row, final.db.usageRollup.find bucket = some row →
      row.totalQuantity = totalMicros (bucketEvents final.db.events.committed bucket) ∧
        row.eventCount = (bucketEvents final.db.events.committed bucket).length) ∧
    final.db.usageRollup.committed.entries.Perm (backfill final.db.events.committed).entries := by
  have isLog := RollupIsLog.of_run reached
  refine ⟨?_, ?_, AList.entries_perm_of_lookup isLog⟩
  · intro bucket
    rw [isLog, lookup_backfill, Option.isSome_ite']
    simp only [bucketEvents, List.filter_eq_nil_iff, decide_eq_true_eq, not_forall, not_not, exists_prop]
  · intro bucket row found
    rw [isLog, lookup_backfill] at found
    split_ifs at found
    obtain rfl := Option.some.inj found
    exact ⟨rfl, rfl⟩

/-- Two events, a quota that comes between them, and the rejection of a third event. -/
theorem usage_rollup_eq_log_two_events :
    let request (name : String) : Request := .createEvent ⟨"c", "m", ⟨1500000, by decide, by decide⟩, name⟩ 0
    let schedule := (request "a").steps ⟨7, 0⟩ 6 ++
      (Request.upsertQuota ⟨"c", "m", ⟨3, by decide, by decide⟩⟩).steps ⟨7, 1⟩ 3 ++
      (request "b").steps ⟨7, 2⟩ 8 ++ (request "d").steps ⟨7, 3⟩ 7
    ∃ final, Machine.run step (.init (.atRest .codePoint 0 1 (.afterMigration ∅ ∅))) schedule = some final ∧
      final.db.usageRollup.find ⟨7, "c", "m", 0⟩ = some ⟨3000000, 2⟩ ∧
      totalMicros (bucketEvents final.db.events.committed ⟨7, "c", "m", 0⟩) = 3000000 := by
  intro request schedule
  obtain ⟨final, reached, row⟩ := Option.map_eq_some_iff.mp (show
    (Machine.run step (.init (.atRest .codePoint 0 1 (.afterMigration ∅ ∅))) schedule).map
      (fun final => final.db.usageRollup.find ⟨7, "c", "m", 0⟩) = some (some ⟨3000000, 2⟩) by decide)
  exact ⟨final, reached, row, ((usage_rollup_eq_log reached).2.1 _ _ row).1.symm⟩

end Meterly
