import Meterly.Model.DailyDate
import Meterly.Model.Repositories
import Meterly.Model.Services.Reading

/-! # `get_usage` and `get_daily_usage` -/

namespace Meterly

/-- `UsageResponse` -/
structure UsageResponse where
  customerId : String
  metric : String
  windowStart : String
  totalQuantity : Decimal
  eventCount : ℕ
deriving DecidableEq, Repr

/-- `DailyUsageResponse` -/
structure DailyUsageResponse where
  date : String
  metrics : List DailyMetricCount
deriving DecidableEq, Repr

namespace GetUsage

/-- The window of a query, floored to its UTC hour. -/
def windowStart (query : UsageQueryParams) : Instant := (floorToHourUtc query.window).instant

abbrev Phase := Reading.Phase Unit (Option RollupRow) UsageResponse

/-- The one statement of `get_usage`. -/
def statement (apiKeyId : ℕ) (query : UsageQueryParams) (_ : Unit) (db : Database) : Option RollupRow :=
  db.findUsageRollup ⟨apiKeyId, query.customerId, query.metric, windowStart query⟩

/-- The response built from the rollup row, with zeros where there is none. -/
def respond (query : UsageQueryParams) (_ : Unit) (rollup : Option RollupRow) : UsageResponse where
  customerId := query.customerId
  metric := query.metric
  windowStart := isoformatUtc (windowStart query)
  totalQuantity := match rollup with
    | some row => numericScale6 row.totalQuantity
    | none => ⟨0, 0⟩
  eventCount := match rollup with
    | some row => row.eventCount
    | none => 0

/-- One step of `get_usage`. -/
def advance (txn : CallId) (query : UsageQueryParams) : Phase → Database → Option (Phase × Database) :=
  Reading.advance txn (.ok ()) (statement txn.apiKeyId query) (respond query)

end GetUsage

namespace GetDailyUsage

abbrev Phase := Reading.Phase DailyDateWindow (List DailyMetricCount) DailyUsageResponse

/-- The one statement of `get_daily_usage`. -/
def statement (apiKeyId : ℕ) (window : DailyDateWindow) (db : Database) : List DailyMetricCount :=
  db.aggregateDailyEventCounts apiKeyId window.dayStart window.dayEnd

def respond (window : DailyDateWindow) (records : List DailyMetricCount) : DailyUsageResponse :=
  ⟨window.dateStr, records⟩

/-- One step of `get_daily_usage`. -/
def advance (txn : CallId) (date : Option String) (receivedAt : Instant) :
    Phase → Database → Option (Phase × Database) :=
  Reading.advance txn (parseDailyDate date receivedAt) (statement txn.apiKeyId) respond

end GetDailyUsage

end Meterly
