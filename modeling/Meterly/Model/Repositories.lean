import Meterly.Model.Database

/-! # The statements of the repositories

One definition for each statement of `events_repo.py`, `quotas_repo.py` and `usage_repo.py`. A
statement that needs a row held by another open transaction has no result, and so no step, until
that transaction ends; then it acts on the row as published. `SELECT ... FOR UPDATE` and `DELETE`
first find their row in a snapshot and then lock it: they follow later versions of that row, but
not a row inserted under the same key after it was deleted.
-/

namespace Meterly

namespace Database

/-! ## `events_repo.py` -/

/-- The identity value that the insertion of an event draws, whether or not the row conflicts. -/
def drawEventId (db : Database) : ℕ × Database :=
  (db.nextEventId, { db with nextEventId := db.nextEventId + 1 })

/-- `INSERT INTO events ... ON CONFLICT (api_key_id, idempotency_key) DO NOTHING RETURNING ...` -/
def insertEventIfNew (db : Database) (txn : CallId) (key : EventKey) (row : EventRow) :
    Option (Option EventRecord × Database) :=
  if db.events.Free txn key then
    match db.events.find key with
    | some _ => some (none, db)
    | none => some (some (row.record key), { db with events := db.events.hold txn key (.write row) })
  else none

/-- `SELECT ... FROM events WHERE api_key_id = ... AND idempotency_key = ...` -/
def findEventByIdempotencyKey (db : Database) (key : EventKey) : Option EventRecord :=
  (db.events.find key).map fun row => row.record key

/-- The rollup row after one more event. -/
def bump (before : Option RollupRow) (quantity : Quantity) : RollupRow :=
  match before with
  | none => ⟨quantity.micros, 1⟩
  | some row => ⟨row.totalQuantity + quantity.micros, row.eventCount + 1⟩

/-- `INSERT INTO usage_rollup ... ON CONFLICT ... DO UPDATE`; also tells the row it wrote. -/
def incrementUsageRollup (db : Database) (txn : CallId) (key : RollupKey) (quantity : Quantity) :
    Option (RollupRow × Database) :=
  if db.usageRollup.Free txn key then
    let row := bump (db.usageRollup.find key) quantity
    some (row, { db with usageRollup := db.usageRollup.hold txn key (.write row) })
  else none

/-! ## `quotas_repo.py` -/

end Database

/-- `QuotaRecord` -/
structure QuotaRecord where
  customerId : String
  metric : String
  limitPerWindow : LimitPerWindow
  inserted : Bool
deriving DecidableEq, Repr

/-- `QuotaState` -/
structure QuotaState where
  limitPerWindow : LimitPerWindow
  currentTotal : Decimal
deriving DecidableEq, Repr

/-- `QuotaListItem` -/
structure QuotaListItem where
  customerId : String
  metric : String
  limitPerWindow : LimitPerWindow
deriving DecidableEq, Repr

/-- A column of scale 6, as the driver returns it. -/
def numericScale6 (micros : ℕ) : Decimal := ⟨micros, -6⟩

namespace Database

/-- `INSERT INTO quotas ... ON CONFLICT ... DO UPDATE ... RETURNING ..., (xmax = 0) AS inserted`; also
tells the row it wrote. -/
def upsertQuota (db : Database) (txn : CallId) (key : QuotaKey) (limitPerWindow : LimitPerWindow) :
    Option (QuotaRecord × QuotaRow × Database) :=
  if db.quotas.Free txn key then
    let row : QuotaRow := match db.quotas.find key with
      | none => ⟨limitPerWindow, some txn⟩
      | some before => { before with limitPerWindow }
    some (⟨key.customerId, key.metric, row.limitPerWindow, (db.quotas.find key).isNone⟩, row,
      { db with quotas := db.quotas.hold txn key (.write row) })
  else none

/-- The version chain that a statement's snapshot shows under a key. -/
def quotaVersion (db : Database) (key : QuotaKey) : Option (Option CallId) :=
  (db.quotas.find key).map QuotaRow.insertedBy

/-- The latest version of a row that a snapshot showed, unless it has been deleted. -/
def latestVersion (db : Database) (key : QuotaKey) (version : Option CallId) : Option QuotaRow :=
  (db.quotas.find key).filter fun row => decide (row.insertedBy = version)

theorem latestVersion_eq_some {db : Database} {key : QuotaKey} {version : Option CallId} {row : QuotaRow} :
    db.latestVersion key version = some row ↔ db.quotas.find key = some row ∧ row.insertedBy = version := by
  rw [latestVersion, Option.filter_eq_some_iff, decide_eq_true_eq]

/-- `SELECT limit_per_window FROM quotas WHERE ... FOR UPDATE`, once its snapshot showed a row. -/
def lockQuota (db : Database) (txn : CallId) (key : QuotaKey) (version : Option CallId) :
    Option (Option LimitPerWindow × Database) :=
  if db.quotas.Free txn key then
    match db.latestVersion key version with
    | none => some (none, db)
    | some row => some (some row.limitPerWindow, { db with quotas := db.quotas.hold txn key .keep })
  else none

/-- `SELECT total_quantity FROM usage_rollup WHERE ...`, with `Decimal(0)` for no row. -/
def currentTotal (db : Database) (key : RollupKey) : Decimal :=
  match db.usageRollup.find key with
  | some row => numericScale6 row.totalQuantity
  | none => ⟨0, 0⟩

/-- `DELETE FROM quotas WHERE ... RETURNING customer_id`, once its snapshot showed a row. -/
def deleteQuota (db : Database) (txn : CallId) (key : QuotaKey) (version : Option CallId) :
    Option (Bool × Database) :=
  if db.quotas.Free txn key then
    match db.latestVersion key version with
    | none => some (false, db)
    | some _ => some (true, { db with quotas := db.quotas.hold txn key .erase })
  else none

/-- `ORDER BY customer_id, metric` -/
def quotaOrder (db : Database) : QuotaListItem → QuotaListItem → Ordering :=
  compareLex (onColumn QuotaListItem.customerId db.collation.cmp) (onColumn QuotaListItem.metric db.collation.cmp)

/-- `SELECT customer_id, metric, limit_per_window FROM quotas WHERE api_key_id = ... ORDER BY ...` -/
def listQuotas (db : Database) (apiKeyId : ℕ) : List QuotaListItem :=
  orderBy db.quotaOrder ((db.quotas.committed.entries.filter fun entry => entry.1.apiKeyId = apiKeyId).map
    fun entry => ⟨entry.1.customerId, entry.1.metric, entry.2.limitPerWindow⟩)

/-! ## `usage_repo.py` -/

/-- `SELECT total_quantity, event_count FROM usage_rollup WHERE ...` -/
def findUsageRollup (db : Database) (key : RollupKey) : Option RollupRow := db.usageRollup.find key

end Database

/-- `UsageRollupExportRecord` -/
structure UsageRollupExportRecord where
  customerId : String
  metric : String
  windowStart : Instant
  totalQuantity : Decimal
deriving DecidableEq, Repr

/-- `DailyMetricCount` -/
structure DailyMetricCount where
  metric : String
  eventCount : ℕ
deriving DecidableEq, Repr

/-- One conjunct of the export's `WHERE` clause, with its bound parameter. -/
inductive ExportClause where
  | apiKeyId (value : ℕ)
  | customerId (value : String)
  | metric (value : String)
  | windowFrom (value : AwareDatetime)
  | windowTo (value : AwareDatetime)
deriving DecidableEq, Repr

/-- Whether a row of `usage_rollup` passes a conjunct. -/
def ExportClause.passes (key : RollupKey) : ExportClause → Bool
  | apiKeyId value => key.apiKeyId = value
  | customerId value => key.customerId = value
  | metric value => key.metric = value
  | windowFrom value => value.instant ≤ key.windowStart
  | windowTo value => key.windowStart ≤ value.instant

/-- `_export_filter_clause_and_params` -/
def exportFilterClauses (apiKeyId : ℕ) (params : UsageExportQueryParams) : List ExportClause :=
  .apiKeyId apiKeyId :: params.customerId.toList.map .customerId ++ params.metric.toList.map .metric ++
    params.windowFrom.toList.map .windowFrom ++ params.windowTo.toList.map .windowTo

/-- The `WHERE` clause shared by the count and the stream. -/
def exportFilter (apiKeyId : ℕ) (params : UsageExportQueryParams) (key : RollupKey) : Bool :=
  (exportFilterClauses apiKeyId params).all (ExportClause.passes key)

namespace Database

/-- The rows of `usage_rollup` that the export's filters select. -/
def matchingRollups (db : Database) (apiKeyId : ℕ) (params : UsageExportQueryParams) :
    List (Σ _ : RollupKey, RollupRow) :=
  db.usageRollup.committed.entries.filter fun entry => exportFilter apiKeyId params entry.1

/-- `SELECT count(*) FROM usage_rollup WHERE ...` -/
def countUsageRollups (db : Database) (apiKeyId : ℕ) (params : UsageExportQueryParams) : ℕ :=
  (db.matchingRollups apiKeyId params).length

/-- `ORDER BY window_start, customer_id, metric ASC` -/
def exportOrder (db : Database) : UsageRollupExportRecord → UsageRollupExportRecord → Ordering :=
  compareLex (onColumn UsageRollupExportRecord.windowStart compare)
    (compareLex (onColumn UsageRollupExportRecord.customerId db.collation.cmp)
      (onColumn UsageRollupExportRecord.metric db.collation.cmp))

/-- The exported columns of a row. -/
def exportRecord (entry : Σ _ : RollupKey, RollupRow) : UsageRollupExportRecord :=
  ⟨entry.1.customerId, entry.1.metric, entry.1.windowStart, numericScale6 entry.2.totalQuantity⟩

/-- `SELECT ... FROM usage_rollup WHERE ... ORDER BY ... LIMIT ...` -/
def streamUsageRollups (db : Database) (apiKeyId : ℕ) (params : UsageExportQueryParams) (limit : ℕ) :
    List UsageRollupExportRecord :=
  (orderBy db.exportOrder ((db.matchingRollups apiKeyId params).map exportRecord)).take limit

/-- `SELECT metric, SUM(event_count) ... GROUP BY metric ORDER BY metric ASC` over `[day_start, day_end)` -/
def aggregateDailyEventCounts (db : Database) (apiKeyId : ℕ) (dayStart dayEnd : Instant) :
    List DailyMetricCount :=
  let rows := db.usageRollup.committed.entries.filter fun entry =>
    entry.1.apiKeyId = apiKeyId ∧ dayStart ≤ entry.1.windowStart ∧ entry.1.windowStart < dayEnd
  let groups := groupBy (fun entry : Σ _ : RollupKey, RollupRow => entry.1.metric)
    (fun rows => (rows.map fun entry => entry.2.eventCount).sum) rows
  orderBy (onColumn DailyMetricCount.metric db.collation.cmp) (groups.entries.map fun group => ⟨group.1, group.2⟩)

end Database

end Meterly
