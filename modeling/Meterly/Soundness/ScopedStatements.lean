import Meterly.Model.RowSecurity

/-! # The statements of the services, executed alone

Under the predicate alone, a statement on a database with no other open transaction does what the
services' statement of the same name does: it returns the rows that one reads off the database, and
leaves the tables that its commit publishes.
-/

namespace Meterly

/-- The statement as the services execute it; no result while it waits for another transaction. -/
def Statement.run (txn : CallId) (db : Database) : Statement → Option (ResultSet × Database)
  | insertEventIfNew payload windowStart =>
    (db.insertEventIfNew txn ⟨txn.apiKeyId, payload.idempotencyKey⟩
      ⟨db.nextEventId, payload.customerId, payload.metric, payload.quantity, windowStart, db.now⟩).map
        (Prod.map (fun record => .events record.toList) id)
  | findEventByIdempotencyKey idempotencyKey =>
    some (.events (db.findEventByIdempotencyKey ⟨txn.apiKeyId, idempotencyKey⟩).toList, db)
  | incrementUsageRollup customerId metric windowStart quantity =>
    (db.incrementUsageRollup txn ⟨txn.apiKeyId, customerId, metric, windowStart⟩ quantity).map
      (Prod.map (fun _ => .nothing) id)
  | upsertQuota customerId metric limitPerWindow =>
    (db.upsertQuota txn ⟨txn.apiKeyId, customerId, metric⟩ limitPerWindow).map
      (Prod.map (fun record => .quotas [record]) Prod.snd)
  | lockQuota customerId metric =>
    match db.quotaVersion ⟨txn.apiKeyId, customerId, metric⟩ with
    | none => some (.limits [], db)
    | some version => (db.lockQuota txn ⟨txn.apiKeyId, customerId, metric⟩ version).map
        (Prod.map (fun limit => .limits limit.toList) id)
  | readCurrentTotal customerId metric windowStart =>
    some (.totals ((db.findUsageRollup ⟨txn.apiKeyId, customerId, metric, windowStart⟩).map
      fun row => numericScale6 row.totalQuantity).toList, db)
  | listQuotas => some (.quotaItems (db.listQuotas txn.apiKeyId), db)
  | deleteQuota customerId metric =>
    match db.quotaVersion ⟨txn.apiKeyId, customerId, metric⟩ with
    | none => some (.customers [], db)
    | some version => (db.deleteQuota txn ⟨txn.apiKeyId, customerId, metric⟩ version).map
        (Prod.map (fun found => .customers (if found then [customerId] else [])) id)
  | findUsageRollup customerId metric windowStart =>
    some (.rollups (db.findUsageRollup ⟨txn.apiKeyId, customerId, metric, windowStart⟩).toList, db)
  | countUsageRollups params => some (.count (db.countUsageRollups txn.apiKeyId params), db)
  | streamUsageRollups params limit =>
    some (.exportRecords (db.streamUsageRollups txn.apiKeyId params limit), db)
  | aggregateDailyEventCounts dayStart dayEnd =>
    some (.dailyCounts (db.aggregateDailyEventCounts txn.apiKeyId dayStart dayEnd), db)

/-- An increment stays within the columns of its bucket. -/
def Statement.Fits (txn : CallId) (db : Database) : Statement → Prop
  | incrementUsageRollup customerId metric windowStart quantity =>
    ∀ before ∈ db.usageRollup.find ⟨txn.apiKeyId, customerId, metric, windowStart⟩,
      (Database.bump (some before) quantity).totalQuantity < 10 ^ 38 ∧
        (Database.bump (some before) quantity).eventCount < 2 ^ 63
  | _ => True

variable {txn : CallId} {current : Option String} {apiKeyIds : Finset ℕ} {collation : Collation} {now : Instant}
  {nextEventId : ℕ} {tables : Tables}

/-! ## Clauses that name a whole key -/

private theorem EventKey.names (apiKeyId : ℕ) (idempotencyKey : String) (other : EventKey) :
    (decide (other.apiKeyId = apiKeyId) && decide (other.idempotencyKey = idempotencyKey)) =
      decide (other = ⟨apiKeyId, idempotencyKey⟩) := by
  obtain ⟨otherId, otherKey⟩ := other
  simp

private theorem QuotaKey.names (apiKeyId : ℕ) (customerId metric : String) (other : QuotaKey) :
    (decide (other.apiKeyId = apiKeyId) && decide (other.customerId = customerId ∧ other.metric = metric)) =
      decide (other = ⟨apiKeyId, customerId, metric⟩) := by
  obtain ⟨otherId, otherCustomer, otherMetric⟩ := other
  simp

private theorem RollupKey.names (apiKeyId : ℕ) (customerId metric : String) (windowStart : Instant)
    (other : RollupKey) :
    (decide (other.apiKeyId = apiKeyId) &&
      decide (other.customerId = customerId ∧ other.metric = metric ∧ other.windowStart = windowStart)) =
      decide (other = ⟨apiKeyId, customerId, metric, windowStart⟩) := by
  obtain ⟨otherId, otherCustomer, otherMetric, otherWindow⟩ := other
  simp

/-- A `SELECT` under the predicate returns the rows that pass its clause. -/
theorem TenantControl.select_predicate {Key Row : Type} (isolation : RowPolicy Key Row SqlError) (test : Key → Bool)
    (entries : List (Σ _ : Key, Row)) :
    (predicate.policy isolation).select test entries = .ok (entries.filter fun entry => test entry.1) := by
  apply (RowPolicy.select_of_passes RowPolicy.passes_unrestricted _ _).trans
  simp only [Bool.true_and]

/-- One that names a whole key returns the row stored under it. -/
theorem TenantControl.select_key {Key Row : Type} [DecidableEq Key] (isolation : RowPolicy Key Row SqlError)
    {own rest : Key → Bool} {key : Key} (names : ∀ other, (own other && rest other) = decide (other = key))
    (rows : Rows Key Row) : (predicate.policy isolation).select (predicate.whereClause own rest) rows.entries =
      .ok ((rows.lookup key).toList.map (Sigma.mk key)) := by
  rw [select_predicate, ← AList.filter_entries_eq]
  simp only [whereClause, names]

/-! ## Tables at rest -/

theorem RowTable.free_ofRows {Key Row : Type} [DecidableEq Key] (rows : Rows Key Row) (txn : CallId) (key : Key) :
    (RowTable.ofRows rows : RowTable CallId Key Row).Free txn key :=
  fun _ held => nomatch held

private theorem Tables.publish_events (effect : Effect EventRow) (key : EventKey) :
    (({ Database.atRest collation now nextEventId tables with
        events := (RowTable.ofRows tables.events).hold txn key effect } : Database).commit txn).committed =
      { tables with events := effect.publish key tables.events } := by
  simp only [Database.commit, Database.committed, RowTable.commit_hold_ofRows]
  rfl

private theorem Tables.publish_usageRollup (effect : Effect RollupRow) (key : RollupKey) :
    (({ Database.atRest collation now nextEventId tables with
        usageRollup := (RowTable.ofRows tables.usageRollup).hold txn key effect } : Database).commit txn).committed =
      { tables with usageRollup := effect.publish key tables.usageRollup } := by
  simp only [Database.commit, Database.committed, RowTable.commit_hold_ofRows]
  rfl

private theorem Tables.publish_quotas (effect : Effect QuotaRow) (key : QuotaKey) :
    (({ Database.atRest collation now nextEventId tables with
        quotas := (RowTable.ofRows tables.quotas).hold txn key effect } : Database).commit txn).committed =
      { tables with quotas := effect.publish key tables.quotas } := by
  simp only [Database.commit, Database.committed, RowTable.commit_hold_ofRows]
  rfl

private theorem Executed.ok_congr {result : ResultSet} {locked : List QuotaKey} {left right : Tables}
    (same : left = right) :
    (Except.ok ⟨result, locked, left⟩ : Except SqlError Executed) = .ok ⟨result, locked, right⟩ := by
  rw [same]

namespace Statement

/-- The statement returns the rows of the services' statement of that name and leaves the tables that its
commit publishes. -/
def Matches (current : Option String) (apiKeyIds : Finset ℕ) (txn : CallId) (db : Database)
    (statement : Statement) : Prop :=
  ∃ result after locked, statement.run txn db = some (result, after) ∧
    statement.execute .predicate current apiKeyIds txn db = .ok ⟨result, locked, (after.commit txn).committed⟩

private theorem matches_insertEventIfNew (payload : EventCreateRequest) (windowStart : Instant)
    (known : txn.apiKeyId ∈ apiKeyIds) :
    (insertEventIfNew payload windowStart).Matches current apiKeyIds txn
      (.atRest collation now nextEventId tables) := by
  have referenced : ∀ table, referencesApiKey apiKeyIds table txn.apiKeyId = .ok () := fun _ => if_pos known
  have free : (Database.atRest collation now nextEventId tables).events.Free txn
    ⟨txn.apiKeyId, payload.idempotencyKey⟩ := RowTable.free_ofRows tables.events txn _
  cases found : (Database.atRest collation now nextEventId tables).events.committed.lookup
    ⟨txn.apiKeyId, payload.idempotencyKey⟩ with
  | none =>
    refine ⟨_, _, [], by simp only [run, Database.insertEventIfNew, if_pos free, RowTable.find, found]; rfl, ?_⟩
    simp only [execute, TenantControl.policy, referenced,
      RowPolicy.insertOrNothing_of_fresh RowPolicy.passes_unrestricted rfl found]
    exact Executed.ok_congr (Tables.publish_events (.write _) _).symm
  | some row =>
    refine ⟨_, _, [], by simp only [run, Database.insertEventIfNew, if_pos free, RowTable.find, found]; rfl, ?_⟩
    simp only [execute, TenantControl.policy,
      RowPolicy.insertOrNothing_of_taken RowPolicy.passes_unrestricted rfl found]
    rfl

private theorem matches_incrementUsageRollup (customerId metric : String) (windowStart : Instant) (quantity : Quantity)
    (known : txn.apiKeyId ∈ apiKeyIds)
    (fits : (incrementUsageRollup customerId metric windowStart quantity).Fits txn
      (.atRest collation now nextEventId tables)) :
    (incrementUsageRollup customerId metric windowStart quantity).Matches current apiKeyIds txn
      (.atRest collation now nextEventId tables) := by
  have referenced : ∀ table, referencesApiKey apiKeyIds table txn.apiKeyId = .ok () := fun _ => if_pos known
  have free : (Database.atRest collation now nextEventId tables).usageRollup.Free txn
    ⟨txn.apiKeyId, customerId, metric, windowStart⟩ := RowTable.free_ofRows tables.usageRollup txn _
  cases found : (Database.atRest collation now nextEventId tables).usageRollup.committed.lookup
    ⟨txn.apiKeyId, customerId, metric, windowStart⟩ with
  | none =>
    refine ⟨_, _, [], by simp only [run, Database.incrementUsageRollup, if_pos free, RowTable.find, found]; rfl, ?_⟩
    simp only [execute, TenantControl.policy, referenced,
      RowPolicy.insertOrUpdate_of_fresh RowPolicy.passes_unrestricted rfl found]
    exact Executed.ok_congr (Tables.publish_usageRollup (.write _) _).symm
  | some before =>
    refine ⟨_, _, [], by simp only [run, Database.incrementUsageRollup, if_pos free, RowTable.find, found]; rfl, ?_⟩
    have added : addToRollup quantity before = .ok (Database.bump (some before) quantity) :=
      if_pos (fits before found)
    simp only [execute, TenantControl.policy,
      RowPolicy.insertOrUpdate_of_taken RowPolicy.passes_unrestricted rfl found added]
    exact Executed.ok_congr (Tables.publish_usageRollup (.write _) _).symm

private theorem matches_upsertQuota (customerId metric : String) (limitPerWindow : LimitPerWindow)
    (known : txn.apiKeyId ∈ apiKeyIds) :
    (upsertQuota customerId metric limitPerWindow).Matches current apiKeyIds txn
      (.atRest collation now nextEventId tables) := by
  have referenced : ∀ table, referencesApiKey apiKeyIds table txn.apiKeyId = .ok () := fun _ => if_pos known
  have free : (Database.atRest collation now nextEventId tables).quotas.Free txn
    ⟨txn.apiKeyId, customerId, metric⟩ := RowTable.free_ofRows tables.quotas txn _
  cases found : (Database.atRest collation now nextEventId tables).quotas.committed.lookup
    ⟨txn.apiKeyId, customerId, metric⟩ with
  | none =>
    refine ⟨_, _, [], by simp only [run, Database.upsertQuota, if_pos free, RowTable.find, found]; rfl, ?_⟩
    simp only [execute, TenantControl.policy, referenced,
      RowPolicy.insertOrUpdate_of_fresh RowPolicy.passes_unrestricted rfl found]
    exact Executed.ok_congr (Tables.publish_quotas (.write _) _).symm
  | some before =>
    refine ⟨_, _, [], by simp only [run, Database.upsertQuota, if_pos free, RowTable.find, found]; rfl, ?_⟩
    have replaced : replaceLimit limitPerWindow before = .ok { before with limitPerWindow } := rfl
    simp only [execute, TenantControl.policy,
      RowPolicy.insertOrUpdate_of_taken RowPolicy.passes_unrestricted rfl found replaced]
    exact Executed.ok_congr (Tables.publish_quotas (.write _) _).symm

private theorem matches_lockQuota (customerId metric : String) :
    (lockQuota customerId metric).Matches current apiKeyIds txn (.atRest collation now nextEventId tables) := by
  have free : (Database.atRest collation now nextEventId tables).quotas.Free txn
    ⟨txn.apiKeyId, customerId, metric⟩ := RowTable.free_ofRows tables.quotas txn _
  cases found : (Database.atRest collation now nextEventId tables).quotas.committed.lookup
    ⟨txn.apiKeyId, customerId, metric⟩ with
  | none =>
    refine ⟨_, _, [], by simp only [run, Database.quotaVersion, RowTable.find, found]; rfl, ?_⟩
    simp only [execute, TenantControl.select_key _ (QuotaKey.names txn.apiKeyId customerId metric), found]
    rfl
  | some before =>
    refine ⟨_, _, [⟨txn.apiKeyId, customerId, metric⟩], by
      simp only [run, Database.quotaVersion, Database.lockQuota, Database.latestVersion, if_pos free, RowTable.find,
        found, Option.map_some, Option.filter_some, decide_true, if_true]; rfl, ?_⟩
    simp only [execute, TenantControl.select_key _ (QuotaKey.names txn.apiKeyId customerId metric), found]
    exact Executed.ok_congr (Tables.publish_quotas .keep _).symm

private theorem matches_deleteQuota (customerId metric : String) :
    (deleteQuota customerId metric).Matches current apiKeyIds txn (.atRest collation now nextEventId tables) := by
  have free : (Database.atRest collation now nextEventId tables).quotas.Free txn
    ⟨txn.apiKeyId, customerId, metric⟩ := RowTable.free_ofRows tables.quotas txn _
  cases found : (Database.atRest collation now nextEventId tables).quotas.committed.lookup
    ⟨txn.apiKeyId, customerId, metric⟩ with
  | none =>
    refine ⟨_, _, [], by simp only [run, Database.quotaVersion, RowTable.find, found]; rfl, ?_⟩
    simp only [execute, RowPolicy.delete,
      TenantControl.select_key _ (QuotaKey.names txn.apiKeyId customerId metric), found]
    rfl
  | some before =>
    refine ⟨_, _, [], by
      simp only [run, Database.quotaVersion, Database.deleteQuota, Database.latestVersion, if_pos free, RowTable.find,
        found, Option.map_some, Option.filter_some, decide_true, if_true]; rfl, ?_⟩
    simp only [execute, RowPolicy.delete,
      TenantControl.select_key _ (QuotaKey.names txn.apiKeyId customerId metric), found]
    exact Executed.ok_congr (Tables.publish_quotas .erase _).symm

/-- Under the predicate alone, a statement executed on tables that no transaction holds is the services'. -/
theorem execute_predicate (statement : Statement) (known : txn.apiKeyId ∈ apiKeyIds)
    (fits : statement.Fits txn (.atRest collation now nextEventId tables)) :
    statement.Matches current apiKeyIds txn (.atRest collation now nextEventId tables) := by
  cases statement with
  | insertEventIfNew payload windowStart => exact matches_insertEventIfNew payload windowStart known
  | findEventByIdempotencyKey idempotencyKey =>
    refine ⟨_, _, [], rfl, ?_⟩
    simp only [execute, TenantControl.select_key _ (EventKey.names txn.apiKeyId idempotencyKey),
      Database.findEventByIdempotencyKey, RowTable.find]
    cases (Database.atRest collation now nextEventId tables).events.committed.lookup
      ⟨txn.apiKeyId, idempotencyKey⟩ <;> rfl
  | incrementUsageRollup customerId metric windowStart quantity =>
    exact matches_incrementUsageRollup customerId metric windowStart quantity known fits
  | upsertQuota customerId metric limitPerWindow => exact matches_upsertQuota customerId metric limitPerWindow known
  | lockQuota customerId metric => exact matches_lockQuota customerId metric
  | readCurrentTotal customerId metric windowStart =>
    refine ⟨_, _, [], rfl, ?_⟩
    simp only [execute, TenantControl.select_key _ (RollupKey.names txn.apiKeyId customerId metric windowStart),
      Database.findUsageRollup, RowTable.find]
    cases (Database.atRest collation now nextEventId tables).usageRollup.committed.lookup
      ⟨txn.apiKeyId, customerId, metric, windowStart⟩ <;> rfl
  | listQuotas =>
    refine ⟨_, _, [], rfl, ?_⟩
    simp only [execute, TenantControl.select_predicate, TenantControl.whereClause, Bool.and_true]
    rfl
  | deleteQuota customerId metric => exact matches_deleteQuota customerId metric
  | findUsageRollup customerId metric windowStart =>
    refine ⟨_, _, [], rfl, ?_⟩
    simp only [execute, TenantControl.select_key _ (RollupKey.names txn.apiKeyId customerId metric windowStart),
      Database.findUsageRollup, RowTable.find]
    cases (Database.atRest collation now nextEventId tables).usageRollup.committed.lookup
      ⟨txn.apiKeyId, customerId, metric, windowStart⟩ <;> rfl
  | countUsageRollups params =>
    refine ⟨_, _, [], rfl, ?_⟩
    simp only [execute, TenantControl.select_predicate]
    rfl
  | streamUsageRollups params limit =>
    refine ⟨_, _, [], rfl, ?_⟩
    simp only [execute, TenantControl.select_predicate]
    rfl
  | aggregateDailyEventCounts dayStart dayEnd =>
    refine ⟨_, _, [], rfl, ?_⟩
    simp only [execute, TenantControl.select_predicate, TenantControl.whereClause, ← Bool.decide_and]
    rfl

end Statement

end Meterly
