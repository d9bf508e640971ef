import Mathlib
import Meterly.Model.PooledConnection

/-! # The tenant controls are interchangeable

Inside a scoped transaction the setting is the tenant's own, so the policies pass exactly the rows whose
key carries the tenant. The predicate selects the same rows, and the inserts and upserts write under
such a key. So a statement comes to the same under either control, and with it every transaction on a
connection.
-/

namespace Meterly

variable {principal : ApiKeyId}

/-! ## What the policies pass -/

/-- The setting comes back from the cast as the id it was made from. -/
theorem currentApiKeyId_toString (principal : ApiKeyId) :
    currentApiKeyId (some (toString principal.value)) = .ok (some (principal.value : ℤ)) := by
  have digits : (toString principal.value).toInt? = some (principal.value : ℤ) := Int.toInt?_repr principal.value
  have range : -2 ^ 63 ≤ (principal.value : ℤ) ∧ (principal.value : ℤ) < 2 ^ 63 := by
    have bounded := principal.bounded
    omega
  simp only [currentApiKeyId, castBigint, digits, if_pos range]
  rfl

/-- In a scoped transaction a policy passes the rows of its tenant. -/
theorem tenantIsolation_toString (principal : ApiKeyId) (apiKeyId : ℕ) :
    tenantIsolation (some (toString principal.value)) apiKeyId = .ok (decide (apiKeyId = principal.value)) := by
  rw [tenantIsolation, currentApiKeyId_toString, Except.map]
  congr 1
  rw [decide_eq_decide, Option.some.injEq, Nat.cast_inj, eq_comm]

namespace TenantControl

variable {Key Row : Type} {isolation : RowPolicy Key Row SqlError} {own : Key → Bool}

/-- Under each control the policy in force passes whole keys: the tenant's, or all of them. -/
theorem policy_passes (isolates : isolation.Passes own) (control : TenantControl) :
    ∃ passes : Key → Bool, (control.policy isolation).Passes passes ∧ (∀ key, own key → passes key) ∧
      ∀ rest key, (passes key && control.whereClause own rest key) = (own key && rest key) := by
  cases control with
  | predicate => exact ⟨fun _ => true, RowPolicy.passes_unrestricted, fun _ _ => rfl, fun _ _ => Bool.true_and _⟩
  | predicateAndRowSecurity =>
    refine ⟨own, isolates, fun _ => id, fun rest key => ?_⟩
    rw [whereClause, ← Bool.and_assoc, Bool.and_self]
  | rowSecurity => exact ⟨own, isolates, fun _ => id, fun _ _ => rfl⟩

/-- A `SELECT` returns the tenant's rows that pass the rest of its clause. -/
theorem select_eq (control : TenantControl) (isolates : isolation.Passes own) (rest : Key → Bool)
    (entries : List (Σ _ : Key, Row)) :
    (control.policy isolation).select (control.whereClause own rest) entries =
      (predicate.policy isolation).select (predicate.whereClause own rest) entries := by
  obtain ⟨passes, lawful, -, same⟩ := control.policy_passes isolates
  exact RowPolicy.select_congr lawful RowPolicy.passes_unrestricted (same rest) entries

variable [DecidableEq Key]

/-- A `DELETE` removes the tenant's rows that pass the rest of its clause. -/
theorem delete_eq (control : TenantControl) (isolates : isolation.Passes own) (rest : Key → Bool)
    (rows : Rows Key Row) :
    (control.policy isolation).delete (control.whereClause own rest) rows =
      (predicate.policy isolation).delete (predicate.whereClause own rest) rows := by
  obtain ⟨passes, lawful, -, same⟩ := control.policy_passes isolates
  exact RowPolicy.delete_congr lawful RowPolicy.passes_unrestricted (same rest) rows

theorem insertOrNothing_eq (control : TenantControl) (isolates : isolation.Passes own) {key : Key} (mine : own key)
    (violation : SqlError) (constraint : Except SqlError Unit) (row : Row) (rows : Rows Key Row) :
    (control.policy isolation).insertOrNothing violation constraint key row rows =
      (predicate.policy isolation).insertOrNothing violation constraint key row rows := by
  obtain ⟨passes, lawful, covers, -⟩ := control.policy_passes isolates
  exact RowPolicy.insertOrNothing_of_passes lawful (covers key mine) violation constraint row rows

theorem insertOrUpdate_eq (control : TenantControl) (isolates : isolation.Passes own) {key : Key} (mine : own key)
    (violation hidden : SqlError) (constraint : Except SqlError Unit) (row : Row)
    (update : Row → Except SqlError Row) (rows : Rows Key Row) :
    (control.policy isolation).insertOrUpdate violation hidden constraint key row update rows =
      (predicate.policy isolation).insertOrUpdate violation hidden constraint key row update rows := by
  obtain ⟨passes, lawful, covers, -⟩ := control.policy_passes isolates
  exact RowPolicy.insertOrUpdate_of_passes lawful (covers key mine) violation hidden constraint row update rows

/-- The export's clause is the tenant's conjunct and the rest, too. -/
theorem exportWhere_eq (control : TenantControl) (apiKeyId : ℕ) (params : UsageExportQueryParams) :
    control.exportWhere apiKeyId params = control.whereClause (fun key => decide (key.apiKeyId = apiKeyId))
      fun key => (exportFilterClauses apiKeyId params).tail.all (ExportClause.passes key) := by
  cases control <;> rfl

end TenantControl

/-! ## Statements -/

/-- A statement of a scoped transaction returns the same rows, locks and leaves the same and raises the same
error under every control. -/
theorem Statement.execute_eq (statement : Statement) (control : TenantControl) (apiKeyIds : Finset ℕ)
    (number : ℕ) (db : Database) :
    statement.execute control (some (toString principal.value)) apiKeyIds ⟨principal.value, number⟩ db =
      statement.execute .predicate (some (toString principal.value)) apiKeyIds ⟨principal.value, number⟩ db := by
  have events : (eventsTenantIsolation (some (toString principal.value))).Passes
      fun key => decide (key.apiKeyId = principal.value) := fun key _ => tenantIsolation_toString principal key.apiKeyId
  have rollups : (usageRollupTenantIsolation (some (toString principal.value))).Passes
      fun key => decide (key.apiKeyId = principal.value) := fun key _ => tenantIsolation_toString principal key.apiKeyId
  have quotas : (quotasTenantIsolation (some (toString principal.value))).Passes
      fun key => decide (key.apiKeyId = principal.value) := fun key _ => tenantIsolation_toString principal key.apiKeyId
  cases statement with
  | insertEventIfNew payload windowStart =>
    have mine : decide ((⟨principal.value, payload.idempotencyKey⟩ : EventKey).apiKeyId = principal.value) = true :=
      decide_eq_true rfl
    simp only [execute, control.insertOrNothing_eq events mine]
  | findEventByIdempotencyKey idempotencyKey => simp only [execute, control.select_eq events]
  | incrementUsageRollup customerId metric windowStart quantity =>
    have mine : decide ((⟨principal.value, customerId, metric, windowStart⟩ : RollupKey).apiKeyId =
      principal.value) = true := decide_eq_true rfl
    simp only [execute, control.insertOrUpdate_eq rollups mine]
  | upsertQuota customerId metric limitPerWindow =>
    have mine : decide ((⟨principal.value, customerId, metric⟩ : QuotaKey).apiKeyId = principal.value) = true :=
      decide_eq_true rfl
    simp only [execute, control.insertOrUpdate_eq quotas mine]
  | deleteQuota customerId metric => simp only [execute, control.delete_eq quotas]
  | lockQuota | listQuotas => simp only [execute, control.select_eq quotas]
  | readCurrentTotal | findUsageRollup | aggregateDailyEventCounts =>
    simp only [execute, control.select_eq rollups]
  | countUsageRollups | streamUsageRollups =>
    simp only [execute, TenantControl.exportWhere_eq, control.select_eq rollups]

/-! ## Transactions -/

namespace PooledConnection

/-- The setting of the open transaction is that of its tenant. -/
def State.NamesTenant (s : State) : Prop :=
  ∀ transaction ∈ s.transaction, transaction.current = some (toString transaction.principal.value)

/-- A step comes to the same under every control. -/
theorem step_eq (control : TenantControl) {s : State} (names : s.NamesTenant) (a : Action) :
    step control s a = step .predicate s a := by
  cases a with
  | execute statement =>
    simp only [step]
    cases opened : s.transaction with
    | none => rfl
    | some transaction =>
      simp only [Option.map_some, names transaction opened, Transaction.txn, statement.execute_eq control]
  | scopedTransaction | commit | rollback | elsewhere | addApiKey | tick => rfl

theorem State.NamesTenant.close {s : State} (tables : Tables) : (s.close tables).NamesTenant :=
  fun _ opened => nomatch opened

/-- A transaction keeps the setting it began with, and the next one begins with its own. -/
theorem State.NamesTenant.step {control : TenantControl} {s next : State} {a : Action} (names : s.NamesTenant)
    (steps : step control s a = some next) : next.NamesTenant := by
  cases a with
  | scopedTransaction principal number =>
    simp only [PooledConnection.step] at steps
    split at steps
    · obtain rfl := Option.some.inj steps
      rintro transaction ⟨⟩
      rfl
    · contradiction
  | execute statement =>
    obtain ⟨transaction, opened, rfl⟩ := Option.map_eq_some_iff.mp steps
    have named := names transaction opened
    split_ifs with failed
    · exact names
    · rintro after ⟨⟩
      cases statement.execute control transaction.current s.apiKeyIds transaction.txn (s.view transaction) <;>
        exact named
  | commit =>
    obtain ⟨transaction, opened, rfl⟩ := Option.map_eq_some_iff.mp steps
    exact .close _
  | rollback =>
    obtain ⟨transaction, opened, rfl⟩ := Option.map_eq_some_iff.mp steps
    exact .close _
  | elsewhere publishes =>
    obtain rfl := Option.some.inj steps
    intro after opened
    obtain ⟨transaction, before, rfl⟩ := Option.map_eq_some_iff.mp opened
    exact names transaction before
  | addApiKey | tick =>
    obtain rfl := Option.some.inj steps
    exact names

/-- However a connection is used by scoped transactions of whatever tenants, every statement's rows and
error, every lock and the tables are the same whether the predicate, forced row-level security or both
confine the statements. -/
theorem tenant_controls_interchangeable (control : TenantControl) (collation : Collation) (now : Instant)
    (apiKeyIds : Finset ℕ) (nextEventId : ℕ) (tables : Tables) (sessionValue : Option String)
    (schedule : List Action) :
    Machine.run (step control) (.idle collation now apiKeyIds nextEventId tables sessionValue) schedule =
      Machine.run (step .predicate) (.idle collation now apiKeyIds nextEventId tables sessionValue) schedule :=
  Machine.run_congr (motive := State.NamesTenant) (fun _ a names => step_eq control names a)
    (fun _ _ _ names steps => names.step steps) (fun _ opened => absurd opened (Option.not_mem_none _)) schedule

end PooledConnection

end Meterly
