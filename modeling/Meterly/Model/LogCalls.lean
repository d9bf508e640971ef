import Meterly.Model.Services.ExportGenerator
import Meterly.Model.System
import Meterly.Text.Json

/-! # The calls of the logger

Each call of `logger.info`, `logger.warning` and `logger.error` that serving a request can make, with
its keyword arguments in their order. `exc_info=True` stands for the exception that is being handled,
as the text of its traceback. A line is logged in the step of the statement it stands behind, or in that
of the commit.
-/

namespace Meterly

/-- A value that is logged. -/
abbrev LogValue := Json.Value

inductive LogMethod where
  | info
  | warning
  | error
deriving DecidableEq, Repr

/-- One call of the logger, with the traceback of the exception being handled under `exc_info=True`. -/
structure LogCall where
  method : LogMethod
  event : String
  fields : List (String × LogValue)
  excInfo : Option String
deriving DecidableEq, Repr

namespace LogCall

/-! ## `services` -/

/-- `event.create` of `create_event` -/
def eventCreate (userId : ℕ) (action : String) (resourceId : ℕ) (idempotentReplay : Bool) : LogCall :=
  ⟨.info, "event.create", [("userId", .int userId), ("action", .text action), ("resource_id", .int resourceId),
    ("idempotent_replay", .bool idempotentReplay)], none⟩

/-- `quota.rejected` of `create_event` -/
def quotaRejected (userId : ℕ) (customerId metric : String) : LogCall :=
  ⟨.warning, "quota.rejected", [("userId", .int userId), ("action", .text "deny"), ("customer_id", .text customerId),
    ("metric", .text metric), ("reason", .text "quota_exceeded")], none⟩

/-- `quota.upsert` of `upsert_tenant_quota` -/
def quotaUpsert (userId : ℕ) (inserted : Bool) (customerId metric : String) (limitPerWindow : LimitPerWindow) :
    LogCall :=
  ⟨.info, "quota.upsert", [("userId", .int userId), ("action", .text (if inserted then "create" else "replace")),
    ("customer_id", .text customerId), ("metric", .text metric), ("limit_per_window", .int limitPerWindow.value)], none⟩

/-- `quota.delete` of `delete_tenant_quota` -/
def quotaDelete (userId : ℕ) (customerId metric : String) : LogCall :=
  ⟨.info, "quota.delete", [("userId", .int userId), ("action", .text "delete"), ("customer_id", .text customerId),
    ("metric", .text metric)], none⟩

/-- `usage.read` of `get_usage` -/
def usageRead (userId : ℕ) (found : Bool) : LogCall :=
  ⟨.info, "usage.read", [("userId", .int userId), ("action", .text "read"), ("found", .bool found)], none⟩

/-- `usage.daily.read` of `get_daily_usage` -/
def usageDailyRead (userId : ℕ) (date : String) (metricCount : ℕ) : LogCall :=
  ⟨.info, "usage.daily.read", [("userId", .int userId), ("action", .text "read"), ("resource", .text "usage_rollup"),
    ("date", .text date), ("metricCount", .int metricCount)], none⟩

/-- `usage.export.rejected` of `prepare_export` -/
def usageExportRejected (userId : ℕ) : LogCall :=
  ⟨.warning, "usage.export.rejected", [("userId", .int userId), ("action", .text "deny"),
    ("reason", .text "row_cap_exceeded")], none⟩

/-- `usage.export` of `stream_export_csv` -/
def usageExport (line : UsageExportLine) : LogCall :=
  ⟨.info, "usage.export", [("userId", .int line.userId), ("action", .text line.action),
    ("resource", .text line.resource), ("rowCount", .int line.rowCount), ("capped", .bool line.capped),
    ("completed", .bool line.completed), ("filtered_by_customer", .bool line.filteredByCustomer),
    ("filtered_by_metric", .bool line.filteredByMetric), ("bounded_from", .bool line.boundedFrom),
    ("bounded_to", .bool line.boundedTo)], none⟩

/-! ## `auth` and `api` -/

/-- `apikey.auth` of `require_api_key`, for a request that it refuses. -/
def apiKeyDenied (reason : String) : LogCall :=
  ⟨.warning, "apikey.auth", [("userId", .null), ("action", .text "deny"), ("reason", .text reason)], none⟩

/-- `apikey.auth` of `require_api_key`, for a principal that it returns. -/
def apiKeyAllowed (userId : ℕ) (reason : String) : LogCall :=
  ⟨.info, "apikey.auth", [("userId", .int userId), ("action", .text "allow"), ("reason", .text reason)], none⟩

/-- `quota.forbidden` of `_require_admin_and_throttled` -/
def quotaForbidden (userId : ℕ) : LogCall :=
  ⟨.warning, "quota.forbidden", [("userId", .int userId), ("action", .text "deny"),
    ("reason", .text "insufficient_scope")], none⟩

/-- `ratelimit.backend_unavailable` of `Tier1EdgeThrottleMiddleware` and `enforce_tier2_rate_limit` -/
def ratelimitBackendUnavailable (endpoint tier : String) : LogCall :=
  ⟨.warning, "ratelimit.backend_unavailable", [("endpoint", .text endpoint), ("tier", .text tier)], none⟩

/-- `ratelimit.exceeded` of `Tier1EdgeThrottleMiddleware` and `enforce_tier2_rate_limit` -/
def ratelimitExceeded (userId : LogValue) (endpoint reason : String) : LogCall :=
  ⟨.warning, "ratelimit.exceeded", [("userId", userId), ("action", .text "deny"), ("endpoint", .text endpoint),
    ("reason", .text reason)], none⟩

/-- `validation.failed` of `handle_validation_error` -/
def validationFailed (requestId endpoint : String) (errorCount : ℕ) : LogCall :=
  ⟨.warning, "validation.failed", [("requestId", .text requestId), ("endpoint", .text endpoint),
    ("errorCount", .int errorCount)], none⟩

/-- `request.unhandled_error` of `handle_unexpected_error` -/
def requestUnhandledError (requestId endpoint errorType errorMessage traceback : String) : LogCall :=
  ⟨.error, "request.unhandled_error", [("requestId", .text requestId), ("endpoint", .text endpoint),
    ("error.type", .text errorType), ("error.message", .text errorMessage)], some traceback⟩

/-- `request.failed` of `RequestContextMiddleware` -/
def requestFailed (method path duration : String) : LogCall :=
  ⟨.error, "request.failed", [("operation", .text (method ++ " " ++ path)), ("duration", .float duration),
    ("method", .text method), ("endpoint", .text path)], none⟩

/-- `request.completed` of `RequestContextMiddleware` -/
def requestCompleted (method path duration : String) (statusCode : ℕ) : LogCall :=
  ⟨.info, "request.completed", [("operation", .text (method ++ " " ++ path)), ("statusCode", .int statusCode),
    ("duration", .float duration), ("method", .text method), ("endpoint", .text path)], none⟩

end LogCall

/-! ## What the writing services log -/

/-- The lines of `create_event`: behind the verdict, the increment or the lookup, all inside the transaction. -/
def CreateEvent.logged (txn : CallId) : Phase → Phase → List LogCall
  | .judging row _, .answered _ => [.quotaRejected txn.apiKeyId row.customerId row.metric]
  | .judging row _, .incremented _ _ _ => [.eventCreate txn.apiKeyId "create" row.id false]
  | .conflicted, .replayed original => [.eventCreate txn.apiKeyId "read" original.id true]
  | _, _ => []

/-- The line of `upsert_tenant_quota`, behind its transaction. -/
def UpsertQuota.logged (txn : CallId) : Phase → Phase → List LogCall
  | .written record _, .answered _ =>
    [.quotaUpsert txn.apiKeyId record.inserted record.customerId record.metric record.limitPerWindow]
  | _, _ => []

/-- The line of `delete_tenant_quota`, behind its transaction. -/
def DeleteQuota.logged (txn : CallId) (params : QuotaDeleteParams) : Phase → Phase → List LogCall
  | .removed true, .answered _ => [.quotaDelete txn.apiKeyId params.customerId params.metric]
  | _, _ => []

/-- The lines of a writing service that takes a step. -/
def Call.logged (txn : CallId) : Call → Call → List LogCall
  | createEvent _ _ before, createEvent _ _ after => CreateEvent.logged txn before after
  | upsertQuota _ before, upsertQuota _ after => UpsertQuota.logged txn before after
  | deleteQuota params before, deleteQuota _ after => DeleteQuota.logged txn params before after
  | _, _ => []

end Meterly
