import Meterly.Model.Repositories
import Meterly.Store.RowPolicy

/-! # The two tenant controls

Every statement of the repositories carries the caller's `api_key_id`: a `SELECT` or `DELETE` in its
`WHERE` clause, an `INSERT` in the row it proposes. The policies of the migrations compare the same
column with a setting of the transaction. A statement is executed here with either control or with
both, on the rows that its transaction sees. A policy without a `WITH CHECK` expression uses its
`USING` expression for that too.
-/

namespace Meterly

/-- The tables under a tenant policy. -/
inductive TenantTable where
  | events
  | usageRollup
  | quotas
deriving DecidableEq, Repr

/-- What PostgreSQL raises. -/
inductive SqlError where
  | invalidTextRepresentation
  | numericValueOutOfRange
  | rowSecurity (table : TenantTable)
  | rowSecurityUsing (table : TenantTable)
  | foreignKey (table : TenantTable)
  | inFailedTransaction
deriving DecidableEq, Repr

/-- A value of `api_keys.id`, which is a `BIGINT`. -/
structure ApiKeyId where
  value : ℕ
  bounded : value < 2 ^ 63
deriving DecidableEq, Repr

/-- Which control confines a statement to its tenant: the explicit predicate with row-level security not
applied, the predicate with it forced, or row-level security alone. -/
inductive TenantControl where
  | predicate
  | predicateAndRowSecurity
  | rowSecurity
deriving DecidableEq, Repr

/-! ## The policies -/

/-- `::bigint`, on the texts that the setting can hold: digits or nothing. -/
def castBigint (text : String) : Except SqlError ℤ :=
  match text.toInt? with
  | none => .error .invalidTextRepresentation
  | some value => if -2 ^ 63 ≤ value ∧ value < 2 ^ 63 then .ok value else .error .numericValueOutOfRange

/-- `current_setting('app.current_api_key_id', true)::bigint`, `NULL` where nothing was ever set. -/
def currentApiKeyId (current : Option String) : Except SqlError (Option ℤ) :=
  match current with
  | none => .ok none
  | some text => (castBigint text).map some

/-- `api_key_id = current_setting('app.current_api_key_id', true)::bigint`; `NULL` does not pass. -/
def tenantIsolation (current : Option String) (apiKeyId : ℕ) : Except SqlError Bool :=
  (currentApiKeyId current).map fun value => value = some (apiKeyId : ℤ)

/-- `events_tenant_isolation` -/
def eventsTenantIsolation (current : Option String) : RowPolicy EventKey EventRow SqlError :=
  fun key _ => tenantIsolation current key.apiKeyId

/-- `usage_rollup_tenant_isolation` -/
def usageRollupTenantIsolation (current : Option String) : RowPolicy RollupKey RollupRow SqlError :=
  fun key _ => tenantIsolation current key.apiKeyId

/-- `quotas_tenant_isolation` -/
def quotasTenantIsolation (current : Option String) : RowPolicy QuotaKey QuotaRow SqlError :=
  fun key _ => tenantIsolation current key.apiKeyId

namespace TenantControl

variable {Key Row : Type}

/-- A policy, where row-level security is applied. -/
def policy (control : TenantControl) (isolation : RowPolicy Key Row SqlError) : RowPolicy Key Row SqlError :=
  match control with
  | predicate => .unrestricted
  | predicateAndRowSecurity | rowSecurity => isolation

/-- A `WHERE` clause: `api_key_id = :api_key_id`, unless that conjunct is taken out, and the rest. -/
def whereClause (control : TenantControl) (own rest : Key → Bool) (key : Key) : Bool :=
  match control with
  | predicate | predicateAndRowSecurity => own key && rest key
  | rowSecurity => rest key

/-- The `WHERE` clause of the export, whose first conjunct is the tenant's. -/
def exportWhere (control : TenantControl) (apiKeyId : ℕ) (params : UsageExportQueryParams) (key : RollupKey) : Bool :=
  match control with
  | predicate | predicateAndRowSecurity => exportFilter apiKeyId params key
  | rowSecurity => (exportFilterClauses apiKeyId params).tail.all (ExportClause.passes key)

end TenantControl

/-! ## The statements -/

/-- A statement of a repository, with its parameters but for `:api_key_id`. -/
inductive Statement where
  | insertEventIfNew (payload : EventCreateRequest) (windowStart : Instant)
  | findEventByIdempotencyKey (idempotencyKey : String)
  | incrementUsageRollup (customerId metric : String) (windowStart : Instant) (quantity : Quantity)
  | upsertQuota (customerId metric : String) (limitPerWindow : LimitPerWindow)
  | lockQuota (customerId metric : String)
  | readCurrentTotal (customerId metric : String) (windowStart : Instant)
  | listQuotas
  | deleteQuota (customerId metric : String)
  | findUsageRollup (customerId metric : String) (windowStart : Instant)
  | countUsageRollups (params : UsageExportQueryParams)
  | streamUsageRollups (params : UsageExportQueryParams) (limit : ℕ)
  | aggregateDailyEventCounts (dayStart dayEnd : Instant)

/-- The rows that a statement returns. -/
inductive ResultSet where
  | nothing
  | events (rows : List EventRecord)
  | quotas (rows : List QuotaRecord)
  | limits (rows : List LimitPerWindow)
  | totals (rows : List Decimal)
  | quotaItems (rows : List QuotaListItem)
  | customers (rows : List String)
  | rollups (rows : List RollupRow)
  | count (value : ℕ)
  | exportRecords (rows : List UsageRollupExportRecord)
  | dailyCounts (rows : List DailyMetricCount)
deriving DecidableEq, Repr

/-- What a statement comes to: its rows, the rows of `quotas` it locked, and the tables after it. -/
structure Executed where
  result : ResultSet
  locked : List QuotaKey
  tables : Tables

/-- The foreign key to `api_keys`, checked after an insertion. -/
def referencesApiKey (apiKeyIds : Finset ℕ) (table : TenantTable) (apiKeyId : ℕ) : Except SqlError Unit :=
  if apiKeyId ∈ apiKeyIds then .ok () else .error (.foreignKey table)

/-- `DO UPDATE SET total_quantity = ..., event_count = ...` within `NUMERIC(38, 6)` and `BIGINT`. -/
def addToRollup (quantity : Quantity) (before : RollupRow) : Except SqlError RollupRow :=
  let after := Database.bump (some before) quantity
  if after.totalQuantity < 10 ^ 38 ∧ after.eventCount < 2 ^ 63 then .ok after else .error .numericValueOutOfRange

/-- `DO UPDATE SET limit_per_window = EXCLUDED.limit_per_window` -/
def replaceLimit (limitPerWindow : LimitPerWindow) (before : QuotaRow) : Except SqlError QuotaRow :=
  .ok { before with limitPerWindow }

/-- `SELECT metric, SUM(event_count) ... GROUP BY metric ORDER BY metric ASC` on the selected rows. -/
def dailyCounts (db : Database) (rows : List (Σ _ : RollupKey, RollupRow)) : List DailyMetricCount :=
  let groups := groupBy (fun entry : Σ _ : RollupKey, RollupRow => entry.1.metric)
    (fun rows => (rows.map fun entry => entry.2.eventCount).sum) rows
  orderBy (onColumn DailyMetricCount.metric db.collation.cmp) (groups.entries.map fun group => ⟨group.1, group.2⟩)

/-- Execute a statement for its tenant on the published rows of a database, which are those that the
transaction sees. -/
def Statement.execute (control : TenantControl) (current : Option String) (apiKeyIds : Finset ℕ) (txn : CallId)
    (db : Database) : Statement → Except SqlError Executed
  | insertEventIfNew payload windowStart => do
    let key : EventKey := ⟨txn.apiKeyId, payload.idempotencyKey⟩
    let row : EventRow :=
      ⟨db.nextEventId, payload.customerId, payload.metric, payload.quantity, windowStart, db.now⟩
    let (inserted, events) ← (control.policy (eventsTenantIsolation current)).insertOrNothing (.rowSecurity .events)
      (referencesApiKey apiKeyIds .events txn.apiKeyId) key row db.events.committed
    return ⟨.events (if inserted then [row.record key] else []), [], { db.committed with events }⟩
  | findEventByIdempotencyKey idempotencyKey => do
    let rows ← (control.policy (eventsTenantIsolation current)).select
      (control.whereClause (fun key => key.apiKeyId = txn.apiKeyId) fun key => key.idempotencyKey = idempotencyKey)
      db.events.committed.entries
    return ⟨.events (rows.map fun entry => entry.2.record entry.1), [], db.committed⟩
  | incrementUsageRollup customerId metric windowStart quantity => do
    let key : RollupKey := ⟨txn.apiKeyId, customerId, metric, windowStart⟩
    let (_, _, usageRollup) ← (control.policy (usageRollupTenantIsolation current)).insertOrUpdate
      (.rowSecurity .usageRollup) (.rowSecurityUsing .usageRollup)
      (referencesApiKey apiKeyIds .usageRollup txn.apiKeyId) key (Database.bump none quantity)
      (addToRollup quantity) db.usageRollup.committed
    return ⟨.nothing, [], { db.committed with usageRollup }⟩
  | upsertQuota customerId metric limitPerWindow => do
    let key : QuotaKey := ⟨txn.apiKeyId, customerId, metric⟩
    let (inserted, row, quotas) ← (control.policy (quotasTenantIsolation current)).insertOrUpdate
      (.rowSecurity .quotas) (.rowSecurityUsing .quotas) (referencesApiKey apiKeyIds .quotas txn.apiKeyId) key
      ⟨limitPerWindow, some txn⟩ (replaceLimit limitPerWindow) db.quotas.committed
    return ⟨.quotas [⟨customerId, metric, row.limitPerWindow, inserted⟩], [], { db.committed with quotas }⟩
  | lockQuota customerId metric => do
    let rows ← (control.policy (quotasTenantIsolation current)).select
      (control.whereClause (fun key => key.apiKeyId = txn.apiKeyId) fun key =>
        key.customerId = customerId ∧ key.metric = metric) db.quotas.committed.entries
    return ⟨.limits (rows.map fun entry => entry.2.limitPerWindow), rows.map Sigma.fst, db.committed⟩
  | readCurrentTotal customerId metric windowStart => do
    let rows ← (control.policy (usageRollupTenantIsolation current)).select
      (control.whereClause (fun key => key.apiKeyId = txn.apiKeyId) fun key =>
        key.customerId = customerId ∧ key.metric = metric ∧ key.windowStart = windowStart)
      db.usageRollup.committed.entries
    return ⟨.totals (rows.map fun entry => numericScale6 entry.2.totalQuantity), [], db.committed⟩
  | listQuotas => do
    let rows ← (control.policy (quotasTenantIsolation current)).select
      (control.whereClause (fun key => key.apiKeyId = txn.apiKeyId) fun _ => true) db.quotas.committed.entries
    return ⟨.quotaItems (orderBy db.quotaOrder (rows.map fun entry =>
      ⟨entry.1.customerId, entry.1.metric, entry.2.limitPerWindow⟩)), [], db.committed⟩
  | deleteQuota customerId metric => do
    let (removed, quotas) ← (control.policy (quotasTenantIsolation current)).delete
      (control.whereClause (fun key => key.apiKeyId = txn.apiKeyId) fun key =>
        key.customerId = customerId ∧ key.metric = metric) db.quotas.committed
    return ⟨.customers (removed.map fun entry => entry.1.customerId), [], { db.committed with quotas }⟩
  | findUsageRollup customerId metric windowStart => do
    let rows ← (control.policy (usageRollupTenantIsolation current)).select
      (control.whereClause (fun key => key.apiKeyId = txn.apiKeyId) fun key =>
        key.customerId = customerId ∧ key.metric = metric ∧ key.windowStart = windowStart)
      db.usageRollup.committed.entries
    return ⟨.rollups (rows.map Sigma.snd), [], db.committed⟩
  | countUsageRollups params => do
    let rows ← (control.policy (usageRollupTenantIsolation current)).select
      (control.exportWhere txn.apiKeyId params) db.usageRollup.committed.entries
    return ⟨.count rows.length, [], db.committed⟩
  | streamUsageRollups params limit => do
    let rows ← (control.policy (usageRollupTenantIsolation current)).select
      (control.exportWhere txn.apiKeyId params) db.usageRollup.committed.entries
    return ⟨.exportRecords ((orderBy db.exportOrder (rows.map Database.exportRecord)).take limit), [], db.committed⟩
  | aggregateDailyEventCounts dayStart dayEnd => do
    let rows ← (control.policy (usageRollupTenantIsolation current)).select
      (control.whereClause (fun key => key.apiKeyId = txn.apiKeyId) fun key =>
        dayStart ≤ key.windowStart ∧ key.windowStart < dayEnd) db.usageRollup.committed.entries
    return ⟨.dailyCounts (dailyCounts db rows), [], db.committed⟩

end Meterly
