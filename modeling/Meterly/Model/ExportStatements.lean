import Meterly.Model.Repositories

/-! # The export statements as text and parameters

`_export_filter_clause_and_params` assembles the `WHERE` text and the dictionary of bound parameters
side by side, one clause for each filter that is present. Two statements share them: the count, and
the stream, which adds its `:limit` to the dictionary and reads its rows through a cursor, one
batch after the other. A fragment whose parameter is not bound, or is bound to a value of another
type, makes the statement fail.
-/

namespace Meterly

/-- The parameters that the export statements name. -/
inductive BindName where
  | apiKeyId | customerId | metric | windowFrom | windowTo | limit
deriving DecidableEq, Repr

/-- A bound value. -/
inductive BindValue where
  | integer (value : ℕ)
  | text (value : String)
  | timestamp (value : AwareDatetime)
deriving DecidableEq, Repr

/-- The dictionary of bound parameters. -/
abbrev BindParams := Rows BindName BindValue

/-- The literal fragments of the `WHERE` text, which `AND` joins. -/
inductive WhereFragment where
  /-- `api_key_id = :api_key_id` -/
  | apiKeyId
  /-- `customer_id = :customer_id` -/
  | customerId
  /-- `metric = :metric` -/
  | metric
  /-- `window_start >= :window_from` -/
  | windowFrom
  /-- `window_start <= :window_to` -/
  | windowTo
deriving DecidableEq, Repr

/-- The parameter that the text of a fragment names. -/
def WhereFragment.name : WhereFragment → BindName
  | apiKeyId => .apiKeyId
  | customerId => .customerId
  | metric => .metric
  | windowFrom => .windowFrom
  | windowTo => .windowTo

/-- Compare a row of `usage_rollup` with the value bound to a fragment's parameter. -/
def WhereFragment.compare (key : RollupKey) : WhereFragment → BindValue → Option Bool
  | apiKeyId, .integer value => some (key.apiKeyId = value)
  | customerId, .text value => some (key.customerId = value)
  | metric, .text value => some (key.metric = value)
  | windowFrom, .timestamp value => some (value.instant ≤ key.windowStart)
  | windowTo, .timestamp value => some (key.windowStart ≤ value.instant)
  | _, _ => none

/-- Whether a row passes a fragment under the bound parameters. -/
def WhereFragment.passes (params : BindParams) (key : RollupKey) (fragment : WhereFragment) : Option Bool :=
  (params.lookup fragment.name).bind (fragment.compare key)

namespace Database

end Database

end Meterly
