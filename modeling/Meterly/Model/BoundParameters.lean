import Meterly.Model.RowSecurity

/-! # The text of a failed statement

SQLAlchemy writes into the text of a database error what the driver said, the statement and the values
bound to its parameters, unless the engine hides them. `get_engine` leaves `hide_parameters` at its
default. A traceback ends with the text of its error.
-/

namespace Meterly

/-- A value bound to a parameter. -/
inductive SqlValue where
  | integer (value : ℕ)
  | text (value : String)
  | quantity (value : Quantity)
  | timestamp (value : AwareDatetime)
deriving DecidableEq, Repr

/-- The customer id among the parameters of a statement, where it has one. -/
def Statement.customerId : Statement → Option String
  | insertEventIfNew payload _ => some payload.customerId
  | findEventByIdempotencyKey _ => none
  | incrementUsageRollup customerId _ _ _ => some customerId
  | upsertQuota customerId _ _ => some customerId
  | lockQuota customerId _ => some customerId
  | readCurrentTotal customerId _ _ => some customerId
  | listQuotas => none
  | deleteQuota customerId _ => some customerId
  | findUsageRollup customerId _ _ => some customerId
  | countUsageRollups params => params.customerId
  | streamUsageRollups params _ => params.customerId
  | aggregateDailyEventCounts _ _ => none

/-- The parameters behind `:api_key_id` of `_export_filter_clause_and_params`. -/
def exportParameters (params : UsageExportQueryParams) : List SqlValue :=
  params.customerId.toList.map .text ++ params.metric.toList.map .text ++ params.windowFrom.toList.map .timestamp ++
    params.windowTo.toList.map .timestamp

/-- The values bound to the parameters of a statement, in the order in which they stand in its text. -/
def Statement.bound (apiKeyId : ℕ) : Statement → List SqlValue
  | insertEventIfNew payload windowStart =>
    [.integer apiKeyId, .text payload.customerId, .text payload.metric, .quantity payload.quantity,
      .text payload.idempotencyKey, .timestamp (.ofInstant windowStart)]
  | findEventByIdempotencyKey idempotencyKey => [.integer apiKeyId, .text idempotencyKey]
  | incrementUsageRollup customerId metric windowStart quantity =>
    [.integer apiKeyId, .text customerId, .text metric, .timestamp (.ofInstant windowStart), .quantity quantity]
  | upsertQuota customerId metric limitPerWindow =>
    [.integer apiKeyId, .text customerId, .text metric, .integer limitPerWindow.value]
  | lockQuota customerId metric => [.integer apiKeyId, .text customerId, .text metric]
  | readCurrentTotal customerId metric windowStart =>
    [.integer apiKeyId, .text customerId, .text metric, .timestamp (.ofInstant windowStart)]
  | listQuotas => [.integer apiKeyId]
  | deleteQuota customerId metric => [.integer apiKeyId, .text customerId, .text metric]
  | findUsageRollup customerId metric windowStart =>
    [.integer apiKeyId, .text customerId, .text metric, .timestamp (.ofInstant windowStart)]
  | countUsageRollups params => .integer apiKeyId :: exportParameters params
  | streamUsageRollups params limit => .integer apiKeyId :: exportParameters params ++ [.integer limit]
  | aggregateDailyEventCounts dayStart dayEnd =>
    [.integer apiKeyId, .timestamp (.ofInstant dayStart), .timestamp (.ofInstant dayEnd)]

/-- `hide_parameters` of the engine that `get_engine` creates. -/
def hideParameters : Bool := false

/-- `repr` of a bound value, given those of decimals and datetimes; a validated text needs no escapes. -/
def reprValue (reprOther : SqlValue → List Char) : SqlValue → List Char
  | .integer value => (toString value).toList
  | .text value => '\'' :: value.toList ++ ['\'']
  | value => reprOther value

/-- `repr` of the tuple of the bound values. -/
def reprParameters (reprOther : SqlValue → List Char) : List SqlValue → List Char
  | [] => "()".toList
  | [value] => '(' :: reprValue reprOther value ++ ",)".toList
  | value :: rest =>
    '(' :: reprValue reprOther value ++ (rest.flatMap fun value => ", ".toList ++ reprValue reprOther value) ++ [')']

/-- What a database error holds beside the bound values: its class, its text up to them (what the driver
said, and the statement) and behind them, and the traceback around that text. -/
structure StatementError where
  errorType : String
  head : List Char
  tail : List Char
  tracebackHead : List Char
  tracebackTail : List Char
deriving DecidableEq, Repr

/-- `str` of a database error. -/
def StatementError.message (reprOther : SqlValue → List Char) (hide : Bool) (bound : List SqlValue)
    (error : StatementError) : List Char :=
  error.head ++ (if hide then "[SQL parameters hidden due to hide_parameters=True]".toList
    else "[parameters: ".toList ++ reprParameters reprOther bound ++ [']']) ++ error.tail

/-- The traceback of a database error. -/
def StatementError.traceback (reprOther : SqlValue → List Char) (hide : Bool) (bound : List SqlValue)
    (error : StatementError) : List Char :=
  error.tracebackHead ++ error.message reprOther hide bound ++ error.tracebackTail

end Meterly
