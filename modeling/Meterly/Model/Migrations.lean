import Meterly.Model.RowSecurity
import Meterly.Model.System
import Meterly.Auth.ApiKey

/-! # The migrations

Each revision is a list of statements that bring the schema up, and one that takes it down again. The
application and the migration job share a role, which owns the tables: its statements pass a policy by
unless row-level security is forced. The job's connection never names a tenant. A command of the job is
one transaction, so a statement that fails leaves the database as it was. Between commands the services
run, on the schema of the last revision only.
-/

namespace Meterly

/-! ## Tables with their row-level security -/

/-- What `ALTER TABLE ... ROW LEVEL SECURITY` and `CREATE POLICY` have set for a table. -/
structure RowSecurity where
  enabled : Bool
  forced : Bool
  tenantPolicy : Bool
deriving DecidableEq, Repr

/-- A table that has just been created. -/
def RowSecurity.none : RowSecurity := ⟨false, false, false⟩

/-- Row-level security applies to the owner of the table. -/
def RowSecurity.bindsOwner (security : RowSecurity) : Bool := security.enabled && security.forced

/-- What the owner's statements are under: nothing, the policy, or a table with no policy, which passes no row. -/
def RowSecurity.ownerPolicy {Key Row : Type} (security : RowSecurity) (isolation : RowPolicy Key Row SqlError) :
    RowPolicy Key Row SqlError :=
  if security.bindsOwner then (if security.tenantPolicy then isolation else fun _ _ => .ok false) else .unrestricted

/-- A table and its row-level security. -/
structure SecuredTable (Key Row : Type) where
  rows : Rows Key Row
  security : RowSecurity

/-- A row of `api_keys` before it has a scope. -/
structure ApiKeyRow where
  id : ℕ
  keyId : String
  secretHash : String
  rateLimitPerSec : ℤ
  revokedAt : Option ℚ
deriving DecidableEq, Repr

/-- The row with a scope. -/
def ApiKeyRow.withScope (row : ApiKeyRow) (scope : Scope) : ApiKeyRecord :=
  ⟨row.id, row.keyId, row.secretHash, row.rateLimitPerSec, row.revokedAt, scope⟩

/-- The row without its scope. -/
def ApiKeyRecord.withoutScope (record : ApiKeyRecord) : ApiKeyRow :=
  ⟨record.id, record.keyId, record.secretHash, record.rateLimitPerSec, record.revokedAt⟩

/-- `api_keys`, before and after `scope` is added; `checked` where `ck_api_keys_scope` is in force. -/
inductive ApiKeysTable where
  | withoutScope (rows : List ApiKeyRow)
  | withScope (records : List ApiKeyRecord) (checked : Bool)

/-- The rows without scopes. -/
def ApiKeysTable.rows : ApiKeysTable → List ApiKeyRow
  | withoutScope rows => rows
  | withScope records _ => records.map ApiKeyRecord.withoutScope

/-- The tables that exist, and the next value of the identity of `events`. -/
structure Catalog where
  apiKeys : Option ApiKeysTable
  events : Option (SecuredTable EventKey EventRow)
  usageRollup : Option (SecuredTable RollupKey RollupRow)
  quotas : Option (SecuredTable QuotaKey QuotaRow)
  nextEventId : ℕ

/-- A database without tables. -/
def Catalog.empty : Catalog := ⟨none, none, none, none, 1⟩

/-! ## The statements of the migrations -/

/-- A statement of a migration. -/
inductive Ddl where
  | createApiKeys
  | createTenantTable (table : TenantTable)
  | dropApiKeys
  | dropTenantTable (table : TenantTable)
  | enableRowSecurity (table : TenantTable)
  | forceRowSecurity (table : TenantTable)
  | noForceRowSecurity (table : TenantTable)
  | createPolicy (table : TenantTable)
  | backfillUsageRollup
  | addScope
  | addScopeCheck
  | dropScopeCheck
  | dropScope
deriving DecidableEq, Repr

/-- Insert rows of fresh keys; a key that is taken is an error. -/
def insertAll {Key Row : Type} [DecidableEq Key] (rows : Rows Key Row) : List (Σ _ : Key, Row) → Option (Rows Key Row)
  | [] => some rows
  | entry :: rest => (insertAll rows rest).bind fun rows =>
    if entry.1 ∈ rows then none else some (rows.insert entry.1 entry.2)

/-- `SELECT ..., SUM(quantity), COUNT(*) ... GROUP BY api_key_id, customer_id, metric, window_start` -/
def aggregateEvents (entries : List (Σ _ : EventKey, EventRow)) : Rows RollupKey RollupRow :=
  groupBy (fun entry => entry.2.rollupKey entry.1.apiKeyId)
    (fun rows => ⟨(rows.map fun entry => entry.2.quantity.micros).sum, rows.length⟩) entries

namespace Catalog

/-- `ALTER TABLE`, on the row-level security of a table that exists. -/
def alter (catalog : Catalog) (table : TenantTable) (change : RowSecurity → RowSecurity) : Option Catalog :=
  match table with
  | .events => catalog.events.map fun events =>
    { catalog with events := some { events with security := change events.security } }
  | .usageRollup => catalog.usageRollup.map fun usageRollup =>
    { catalog with usageRollup := some { usageRollup with security := change usageRollup.security } }
  | .quotas => catalog.quotas.map fun quotas =>
    { catalog with quotas := some { quotas with security := change quotas.security } }

/-- The row-level security of a table that exists. -/
def security (catalog : Catalog) : TenantTable → Option RowSecurity
  | .events => catalog.events.map SecuredTable.security
  | .usageRollup => catalog.usageRollup.map SecuredTable.security
  | .quotas => catalog.quotas.map SecuredTable.security

/-- `op.create_table`: the table is new, and `api_keys`, which it references, exists. -/
def create (catalog : Catalog) (table : TenantTable) : Option Catalog :=
  if catalog.apiKeys.isNone ∨ (catalog.security table).isSome then none
  else match table with
    | .events => some { catalog with events := some ⟨∅, .none⟩, nextEventId := 1 }
    | .usageRollup => some { catalog with usageRollup := some ⟨∅, .none⟩ }
    | .quotas => some { catalog with quotas := some ⟨∅, .none⟩ }

/-- `op.drop_table` -/
def drop (catalog : Catalog) (table : TenantTable) : Option Catalog :=
  if (catalog.security table).isNone then none
  else match table with
    | .events => some { catalog with events := none }
    | .usageRollup => some { catalog with usageRollup := none }
    | .quotas => some { catalog with quotas := none }

/-- `INSERT INTO usage_rollup ... SELECT ... FROM events GROUP BY ...`, as the owner, with no tenant named: the
events that are visible, and a bucket for each group that the table admits. -/
def backfillUsageRollup (catalog : Catalog) : Option Catalog :=
  match catalog.events, catalog.usageRollup with
  | some events, some usageRollup =>
    match (events.security.ownerPolicy (eventsTenantIsolation .none)).select (fun _ => true) events.rows.entries with
    | .error _ => none
    | .ok visible =>
      let groups := (aggregateEvents visible).entries
      if groups.all fun group =>
          (usageRollup.security.ownerPolicy (usageRollupTenantIsolation .none) group.1 group.2).toOption = some true ∧
            group.2.totalQuantity < 10 ^ 38 then
        (insertAll usageRollup.rows groups).map fun rows =>
          { catalog with usageRollup := some { usageRollup with rows } }
      else none
  | _, _ => none

/-- Some table references `api_keys`. -/
def referencesApiKeys (catalog : Catalog) : Prop :=
  catalog.events.isSome ∨ catalog.usageRollup.isSome ∨ catalog.quotas.isSome

instance (catalog : Catalog) : Decidable catalog.referencesApiKeys := inferInstanceAs (Decidable (_ ∨ _))

end Catalog

/-- Execute a statement of a migration; no result where it fails. -/
def Ddl.execute (catalog : Catalog) : Ddl → Option Catalog
  | createApiKeys =>
    if catalog.apiKeys.isSome then none else some { catalog with apiKeys := some (.withoutScope []) }
  | createTenantTable table => catalog.create table
  | dropApiKeys =>
    if catalog.apiKeys.isNone ∨ catalog.referencesApiKeys then none else some { catalog with apiKeys := none }
  | dropTenantTable table => catalog.drop table
  | enableRowSecurity table => catalog.alter table fun security => { security with enabled := true }
  | forceRowSecurity table => catalog.alter table fun security => { security with forced := true }
  | noForceRowSecurity table => catalog.alter table fun security => { security with forced := false }
  | createPolicy table =>
    match catalog.security table with
    | some ⟨_, _, false⟩ => catalog.alter table fun security => { security with tenantPolicy := true }
    | _ => none
  | backfillUsageRollup => catalog.backfillUsageRollup
  -- `DEFAULT 'ingest'`
  | addScope =>
    match catalog.apiKeys with
    | some (.withoutScope rows) => some { catalog with apiKeys := some (.withScope (rows.map (·.withScope .ingest)) false) }
    | _ => none
  | addScopeCheck =>
    match catalog.apiKeys with
    | some (.withScope records false) => some { catalog with apiKeys := some (.withScope records true) }
    | _ => none
  | dropScopeCheck =>
    match catalog.apiKeys with
    | some (.withScope records true) => some { catalog with apiKeys := some (.withScope records false) }
    | _ => none
  | dropScope =>
    match catalog.apiKeys with
    | some (.withScope records _) =>
      some { catalog with apiKeys := some (.withoutScope (records.map ApiKeyRecord.withoutScope)) }
    | _ => none

/-! ## The revisions -/

/-- The files of `alembic/versions`, `0001` to `0005`. -/
inductive Revision where
  | createApiKeysAndEvents
  | createUsageRollupBackfill
  | createQuotasAndApiKeyScope
  | forceRlsUsageRollup
  | forceRlsEvents
deriving DecidableEq, Repr

namespace Revision

/-- All of them. -/
def all : List Revision :=
  [createApiKeysAndEvents, createUsageRollupBackfill, createQuotasAndApiKeyScope, forceRlsUsageRollup, forceRlsEvents]

/-- `down_revision` -/
def downRevision : Revision → Option Revision
  | createApiKeysAndEvents => none
  | createUsageRollupBackfill => some createApiKeysAndEvents
  | createQuotasAndApiKeyScope => some createUsageRollupBackfill
  | forceRlsUsageRollup => some createQuotasAndApiKeyScope
  | forceRlsEvents => some forceRlsUsageRollup

/-- `upgrade` -/
def upgrade : Revision → List Ddl
  | createApiKeysAndEvents =>
    [.createApiKeys, .createTenantTable .events, .enableRowSecurity .events, .createPolicy .events]
  | createUsageRollupBackfill =>
    [.createTenantTable .usageRollup, .backfillUsageRollup, .enableRowSecurity .usageRollup, .createPolicy .usageRollup]
  | createQuotasAndApiKeyScope =>
    [.createTenantTable .quotas, .enableRowSecurity .quotas, .forceRowSecurity .quotas, .createPolicy .quotas,
      .addScope, .addScopeCheck]
  | forceRlsUsageRollup => [.forceRowSecurity .usageRollup]
  | forceRlsEvents => [.forceRowSecurity .events]

/-- `downgrade` -/
def downgrade : Revision → List Ddl
  | createApiKeysAndEvents => [.dropTenantTable .events, .dropApiKeys]
  | createUsageRollupBackfill => [.dropTenantTable .usageRollup]
  | createQuotasAndApiKeyScope => [.dropTenantTable .quotas, .dropScopeCheck, .dropScope]
  | forceRlsUsageRollup => [.noForceRowSecurity .usageRollup]
  | forceRlsEvents => [.noForceRowSecurity .events]

/-- The revision that comes after the one applied, or first. -/
def after (applied : Option Revision) : Option Revision := all.find? fun revision => revision.downRevision = applied

/-- `get_current_head`: no revision comes after it. -/
def currentHead : Option Revision := all.find? fun revision => after (some revision) = none

end Revision

/-! ## Deployments -/

/-- The database of a deployment, with `alembic_version`. -/
structure Deployment where
  catalog : Catalog
  applied : Option Revision
  collation : Collation
  now : Instant

namespace Deployment

/-- The tables of the services, on a schema that has them all. -/
def tables (s : Deployment) : Option Tables :=
  match s.catalog.events, s.catalog.usageRollup, s.catalog.quotas with
  | some events, some usageRollup, some quotas => some ⟨events.rows, usageRollup.rows, quotas.rows⟩
  | _, _, _ => none

/-- `_current_migration_is_head` -/
def currentMigrationIsHead (s : Deployment) : Bool := s.applied = Revision.currentHead

/-- The status of `/health/ready`, over a database that answers. -/
def readiness (s : Deployment) : ℕ := if s.currentMigrationIsHead then 200 else 503

/-- The database that a run of the services leaves, once its open transactions are rolled back. -/
def afterServing (s : Deployment) (db : Database) : Deployment :=
  { s with
    now := db.now
    catalog := { s.catalog with
      events := s.catalog.events.map fun table => { table with rows := db.events.committed }
      usageRollup := s.catalog.usageRollup.map fun table => { table with rows := db.usageRollup.committed }
      quotas := s.catalog.quotas.map fun table => { table with rows := db.quotas.committed }
      nextEventId := db.nextEventId } }

/-- What happens to a deployment: `alembic upgrade +1` and `downgrade -1`, a run of the services while it is
ready, or a commit to `api_keys`. -/
inductive Action where
  | upgrade
  | downgrade
  | serve (schedule : List Meterly.Action)
  | commitKeys (records : List ApiKeyRecord)

/-- Execute one action, if it succeeds. -/
def step (s : Deployment) : Action → Option Deployment
  | .upgrade => (Revision.after s.applied).bind fun revision =>
    (revision.upgrade.foldlM Ddl.execute s.catalog).map fun catalog => { s with catalog, applied := some revision }
  | .downgrade => s.applied.bind fun revision =>
    (revision.downgrade.foldlM Ddl.execute s.catalog).map fun catalog =>
      { s with catalog, applied := revision.downRevision }
  | .serve schedule =>
    if s.readiness = 200 then
      s.tables.bind fun tables =>
        (Machine.run Meterly.step (.init (.atRest s.collation s.now s.catalog.nextEventId tables)) schedule).map
          fun final => s.afterServing final.db
    else none
  | .commitKeys records =>
    match s.catalog.apiKeys with
    | some (.withScope _ checked) =>
      some { s with catalog := { s.catalog with apiKeys := some (.withScope records checked) } }
    | _ => none

/-- A new database. -/
def fresh (collation : Collation) (now : Instant) : Deployment := ⟨.empty, none, collation, now⟩

end Deployment

end Meterly
