import Meterly.Model.Time

/-! # Rows, requests and errors

The columns of `events`, `usage_rollup` and `quotas` under their primary or unique keys, the
validated request bodies, and the errors a service raises. Every key starts with `api_key_id`.
A validated quantity or limit carries its range, so that a request or a row outside it does not
exist. Totals and quantities are counted in millionths, the scale of their `NUMERIC` columns.
-/

namespace Meterly

/-- One call of a service: the `api_key_id` of its principal and a number of its own. -/
structure CallId where
  apiKeyId : ℕ
  number : ℕ
deriving DecidableEq, Repr

/-- `condecimal(gt=0, le=1e12, decimal_places=6)`, in millionths. -/
structure Quantity where
  micros : ℕ
  positive : 0 < micros
  bounded : micros ≤ 10 ^ 18
deriving DecidableEq, Repr

/-- `conint(ge=1, le=10**15)` -/
structure LimitPerWindow where
  value : ℕ
  positive : 1 ≤ value
  bounded : value ≤ 10 ^ 15
deriving DecidableEq, Repr

/-- `uq_events_api_key_idempotency_key` -/
structure EventKey where
  apiKeyId : ℕ
  idempotencyKey : String
deriving DecidableEq, Repr

/-- `pk_quotas` -/
@[ext] structure QuotaKey where
  apiKeyId : ℕ
  customerId : String
  metric : String
deriving DecidableEq, Repr

/-- `pk_usage_rollup` -/
structure RollupKey where
  apiKeyId : ℕ
  customerId : String
  metric : String
  windowStart : Instant
deriving DecidableEq, Repr

/-- The quota that caps a bucket. -/
def RollupKey.quotaKey (key : RollupKey) : QuotaKey := ⟨key.apiKeyId, key.customerId, key.metric⟩

/-- A row of `events` beside its unique key. -/
structure EventRow where
  id : ℕ
  customerId : String
  metric : String
  quantity : Quantity
  windowStart : Instant
  eventTime : Instant
deriving DecidableEq, Repr

/-- The hour bucket that a tenant's event counts in. -/
def EventRow.rollupKey (apiKeyId : ℕ) (row : EventRow) : RollupKey :=
  ⟨apiKeyId, row.customerId, row.metric, row.windowStart⟩

/-- The quota that applies to a tenant's event. -/
def EventRow.quotaKey (apiKeyId : ℕ) (row : EventRow) : QuotaKey := ⟨apiKeyId, row.customerId, row.metric⟩

/-- A row of `usage_rollup` beside its primary key. -/
structure RollupRow where
  totalQuantity : ℕ
  eventCount : ℕ
deriving DecidableEq, Repr

/-- A row of `quotas` beside its primary key. An `UPDATE` continues the version chain of the call
that inserted the row; a row there from the start has no such call. -/
structure QuotaRow where
  limitPerWindow : LimitPerWindow
  insertedBy : Option CallId
deriving DecidableEq, Repr

/-- `EventRecord` -/
structure EventRecord where
  id : ℕ
  apiKeyId : ℕ
  customerId : String
  metric : String
  quantity : Quantity
  idempotencyKey : String
  windowStart : Instant
deriving DecidableEq, Repr

/-- The columns a statement returns for an event. -/
def EventRow.record (key : EventKey) (row : EventRow) : EventRecord :=
  ⟨row.id, key.apiKeyId, row.customerId, row.metric, row.quantity, key.idempotencyKey, row.windowStart⟩

/-- `EventCreateRequest` -/
structure EventCreateRequest where
  customerId : String
  metric : String
  quantity : Quantity
  idempotencyKey : String
deriving DecidableEq, Repr

/-- `QuotaPutRequest` -/
structure QuotaPutRequest where
  customerId : String
  metric : String
  limitPerWindow : LimitPerWindow
deriving DecidableEq, Repr

/-- `QuotaDeleteParams` -/
structure QuotaDeleteParams where
  customerId : String
  metric : String
deriving DecidableEq, Repr

/-- `UsageQueryParams` -/
structure UsageQueryParams where
  customerId : String
  metric : String
  window : AwareDatetime
deriving DecidableEq, Repr

/-- `UsageExportQueryParams` -/
structure UsageExportQueryParams where
  customerId : Option String
  metric : Option String
  windowFrom : Option AwareDatetime
  windowTo : Option AwareDatetime
deriving DecidableEq, Repr

/-- `DailyDateWindow`, what `parse_daily_date` leaves of a date. -/
structure DailyDateWindow where
  dateStr : String
  dayStart : Instant
  dayEnd : Instant
deriving DecidableEq, Repr

/-- `HTTPException`, with the `app_code` of `AppError` where there is one. -/
structure HttpException where
  statusCode : ℕ
  appCode : Option String
  detail : String
  headers : List (String × String)
deriving DecidableEq, Repr

/-- What a service call raises: an HTTP error, the idempotency race, an `OverflowError` of date
arithmetic, or the failure or cancellation of any of its steps. -/
inductive ServiceError where
  | http (exception : HttpException)
  | idempotencyRace (message : String)
  | overflowError (message : String)
  | interrupted
deriving DecidableEq, Repr

end Meterly
