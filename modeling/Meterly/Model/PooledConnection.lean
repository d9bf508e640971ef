import Meterly.Machine.Run
import Meterly.Model.RowSecurity

/-! # Scoped transactions on one pooled connection

`scoped_transaction` opens a transaction and names the tenant in a setting that is local to it. The
connection goes back to the pool and serves the next transaction, of any tenant. A statement that
fails leaves its transaction failed; what other connections publish is seen by the next statement.
-/

namespace Meterly.PooledConnection

/-- An open transaction: its tenant, what `current_setting` returns in it, the tables as it sees them,
and the rows it has locked. -/
structure Transaction where
  principal : ApiKeyId
  number : ℕ
  startedAt : Instant
  current : Option String
  tables : Tables
  locked : List QuotaKey
  failed : Bool

/-- The published tables with what else a statement reads, the value of `app.current_api_key_id` in the
session, the open transaction, and what every statement so far has come to. -/
structure State where
  collation : Collation
  now : Instant
  apiKeyIds : Finset ℕ
  nextEventId : ℕ
  tables : Tables
  sessionValue : Option String
  transaction : Option Transaction
  outcomes : List (CallId × Except SqlError ResultSet)

/-- What happens on the connection, and outside it. -/
inductive Action where
  | scopedTransaction (principal : ApiKeyId) (number : ℕ)
  | execute (statement : Statement)
  | commit
  | rollback
  | elsewhere (publishes : Tables → Tables)
  | addApiKey (apiKeyId : ℕ)
  | tick (elapsed : ℕ)

/-- The call a transaction belongs to. -/
def Transaction.txn (transaction : Transaction) : CallId := ⟨transaction.principal.value, transaction.number⟩

/-- `SELECT set_config('app.current_api_key_id', :api_key_id, true)` -/
def Transaction.setLocal (transaction : Transaction) (value : String) : Transaction :=
  { transaction with current := some value }

namespace State

/-- A connection in the pool. -/
def idle (collation : Collation) (now : Instant) (apiKeyIds : Finset ℕ) (nextEventId : ℕ) (tables : Tables)
    (sessionValue : Option String) : State :=
  ⟨collation, now, apiKeyIds, nextEventId, tables, sessionValue, none, []⟩

/-- `BEGIN` -/
def begin (s : State) (principal : ApiKeyId) (number : ℕ) : Transaction :=
  ⟨principal, number, s.now, s.sessionValue, s.tables, [], false⟩

/-- The database that the statements of a transaction read. -/
def view (s : State) (transaction : Transaction) : Database :=
  .atRest s.collation transaction.startedAt s.nextEventId transaction.tables

/-- The end of a transaction: a setting local to it is gone. One that the session never had a value for is
empty from then on. -/
def close (s : State) (tables : Tables) : State :=
  { s with tables, transaction := none, sessionValue := some (s.sessionValue.getD "") }

/-- Note what a statement has come to. The identity value that an insertion draws is not given back. -/
def settle (s : State) (transaction : Transaction) (statement : Statement)
    (outcome : Except SqlError Executed) : State :=
  { s with
    nextEventId := match statement with
      | .insertEventIfNew _ _ => s.nextEventId + 1
      | _ => s.nextEventId
    transaction := some (match outcome with
      | .ok executed =>
        { transaction with tables := executed.tables, locked := transaction.locked ++ executed.locked }
      | .error _ => { transaction with failed := true })
    outcomes := s.outcomes ++ [(transaction.txn, outcome.map Executed.result)] }

end State

/-- Execute one action, if it is enabled. -/
def step (control : TenantControl) (s : State) : Action → Option State
  | .scopedTransaction principal number =>
    match s.transaction with
    | none => some { s with transaction := some ((s.begin principal number).setLocal (toString principal.value)) }
    | some _ => none
  | .execute statement => s.transaction.map fun transaction =>
    if transaction.failed then
      { s with outcomes := s.outcomes ++ [(transaction.txn, .error .inFailedTransaction)] }
    else
      s.settle transaction statement
        (statement.execute control transaction.current s.apiKeyIds transaction.txn (s.view transaction))
  | .commit => s.transaction.map fun transaction =>
    s.close (if transaction.failed then s.tables else transaction.tables)
  | .rollback => s.transaction.map fun _ => s.close s.tables
  | .elsewhere publishes => some { s with
      tables := publishes s.tables
      transaction := s.transaction.map fun transaction =>
        { transaction with tables := publishes transaction.tables } }
  | .addApiKey apiKeyId => some { s with apiKeyIds := insert apiKeyId s.apiKeyIds }
  | .tick elapsed => some { s with now := s.now + elapsed }

end Meterly.PooledConnection
