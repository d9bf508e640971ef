import Meterly.Store.RowTable
import Meterly.Store.Query
import Meterly.Num.Decimal
import Meterly.Model.Schema

/-! # The database under READ COMMITTED

Three tables shared by the open transactions, the clock that `now()` reads, the identity sequence
of `events.id` and the text order of the collation. A statement reads the published rows of its
own instant; a transaction never reads a row that it wrote itself. Commit and rollback reach all
three tables in one step. Identity values that were drawn are not given back.
-/

namespace Meterly

/-- The text order of the database: total on distinct strings. -/
structure Collation where
  cmp : String → String → Ordering
  trans : Std.TransCmp cmp
  lawfulEq : Std.LawfulEqCmp cmp

attribute [instance] Collation.trans Collation.lawfulEq

/-- The collation that orders text by code points. -/
def Collation.codePoint : Collation := ⟨compare, inferInstance, inferInstance⟩

/-- The published rows of the three tables. -/
structure Tables where
  events : Rows EventKey EventRow
  usageRollup : Rows RollupKey RollupRow
  quotas : Rows QuotaKey QuotaRow

/-- Migration `0002`: the bucket totals of all events. -/
def backfill (events : Rows EventKey EventRow) : Rows RollupKey RollupRow :=
  groupBy (fun entry => entry.2.rollupKey entry.1.apiKeyId)
    (fun rows => ⟨(rows.map fun entry => entry.2.quantity.micros).sum, rows.length⟩) events.entries

/-- The tables as the migrations leave them: the rollup derived from the events. -/
def Tables.afterMigration (events : Rows EventKey EventRow) (quotas : Rows QuotaKey QuotaRow) : Tables :=
  ⟨events, backfill events, quotas⟩

structure Database where
  collation : Collation
  now : Instant
  nextEventId : ℕ
  events : RowTable CallId EventKey EventRow
  usageRollup : RowTable CallId RollupKey RollupRow
  quotas : RowTable CallId QuotaKey QuotaRow

namespace Database

/-- A database with no open transaction. -/
def atRest (collation : Collation) (now : Instant) (nextEventId : ℕ) (tables : Tables) : Database :=
  ⟨collation, now, nextEventId, .ofRows tables.events, .ofRows tables.usageRollup, .ofRows tables.quotas⟩

/-- What a new transaction would see. -/
def committed (db : Database) : Tables :=
  ⟨db.events.committed, db.usageRollup.committed, db.quotas.committed⟩

/-- `COMMIT` -/
def commit (db : Database) (txn : CallId) : Database :=
  { db with
    events := db.events.commit txn
    usageRollup := db.usageRollup.commit txn
    quotas := db.quotas.commit txn }

/-- `ROLLBACK` -/
def rollback (db : Database) (txn : CallId) : Database :=
  { db with
    events := db.events.rollback txn
    usageRollup := db.usageRollup.rollback txn
    quotas := db.quotas.rollback txn }

@[simp] theorem committed_rollback (db : Database) (txn : CallId) :
    (db.rollback txn).committed = db.committed := rfl

@[simp] theorem committed_atRest (collation : Collation) (now : Instant) (nextEventId : ℕ) (tables : Tables) :
    (atRest collation now nextEventId tables).committed = tables := rfl

end Database

end Meterly
