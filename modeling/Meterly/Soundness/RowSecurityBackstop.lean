import Meterly.Soundness.TenantControls
import Meterly.Store.ConfinedRows

/-! # Row-level security behind a wrong predicate

The policies are a backstop: they apply even if a statement misses its own `api_key_id` filter. Here the
statements of the repositories carry whatever `api_key_id` the code may have got wrong, or none at all,
in transactions that name a tenant or forget to. A tenant that no transaction names keeps its rows, and
nothing that the statements return depends on them.
-/

namespace Meterly

/-- The policies apply. -/
def TenantControl.appliesPolicy : TenantControl → Bool
  | predicate => false
  | predicateAndRowSecurity | rowSecurity => true

theorem TenantControl.policy_of_applies {Key Row : Type} {control : TenantControl} (applies : control.appliesPolicy)
    (isolation : RowPolicy Key Row SqlError) : control.policy isolation = isolation := by
  cases control with
  | predicate => contradiction
  | predicateAndRowSecurity | rowSecurity => rfl

/-- The rows of the tenants that are kept. -/
def Tables.ofTenants (keep : ℕ → Bool) (tables : Tables) : Tables :=
  ⟨tables.events.view (fun key => keep key.apiKeyId) id, tables.usageRollup.view (fun key => keep key.apiKeyId) id,
    tables.quotas.view (fun key => keep key.apiKeyId) id⟩

/-- What a statement comes to, with the rows of the tenants that are kept. -/
def Executed.ofTenants (keep : ℕ → Bool) (executed : Executed) : Executed :=
  { executed with tables := executed.tables.ofTenants keep }

/-- No row, and no count of any. -/
def ResultSet.IsEmpty : ResultSet → Prop
  | nothing => True
  | events rows => rows = []
  | quotas rows => rows = []
  | limits rows => rows = []
  | totals rows => rows = []
  | quotaItems rows => rows = []
  | customers rows => rows = []
  | rollups rows => rows = []
  | count value => value = 0
  | exportRecords rows => rows = []
  | dailyCounts rows => rows = []

variable {control : TenantControl} {current : Option String} {apiKeyIds : Finset ℕ} {txn : CallId} {db : Database}
  {keep : ℕ → Bool} {statement : Statement} {executed : Executed}

/-- The setting reaches no row of the tenants that are kept. -/
def Unreachable (current : Option String) (keep : ℕ → Bool) : Prop :=
  ∀ apiKeyId, tenantIsolation current apiKeyId = .ok true → ¬ keep apiKeyId

/-- The empty text is no number. -/
theorem toInt?_empty : "".toInt? = none := by
  apply String.toInt?_eq_none
  rw [Bool.eq_false_iff, ne_eq, String.isInt_iff]
  rintro (digits | ⟨rest, signed, -⟩)
  · simp [String.isNat_iff] at digits
  · simp [String.ext_iff] at signed

/-- A setting that was never made, or is left over from a transaction that ended, reaches no row. -/
theorem unreachable_of_unset (unset : current = none ∨ current = some "") : Unreachable current keep := by
  intro apiKeyId passes
  rcases unset with rfl | rfl
  · exact absurd (Except.ok.inj passes) Bool.false_ne_true
  · rw [tenantIsolation, currentApiKeyId, castBigint, toInt?_empty] at passes
    contradiction

theorem unreachable_of_principal {principal : ApiKeyId} (other : ¬ keep principal.value) :
    Unreachable (some (toString principal.value)) keep := by
  intro apiKeyId passes
  rw [tenantIsolation_toString, Except.ok.injEq, decide_eq_true_eq] at passes
  exact passes ▸ other

namespace Statement

/-- Rows out of reach stay as they are, and are not locked. -/
theorem ofTenants_execute (applies : control.appliesPolicy) (unreachable : Unreachable current keep)
    (executes : statement.execute control current apiKeyIds txn db = .ok executed) :
    executed.tables.ofTenants keep = db.committed.ofTenants keep ∧ ∀ key ∈ executed.locked, ¬ keep key.apiKeyId := by
  have events : (control.policy (eventsTenantIsolation current)).Spares fun key => keep key.apiKeyId := by
    rw [TenantControl.policy_of_applies applies]
    exact fun key _ => unreachable key.apiKeyId
  have rollups : (control.policy (usageRollupTenantIsolation current)).Spares fun key => keep key.apiKeyId := by
    rw [TenantControl.policy_of_applies applies]
    exact fun key _ => unreachable key.apiKeyId
  have quotas : (control.policy (quotasTenantIsolation current)).Spares fun key => keep key.apiKeyId := by
    rw [TenantControl.policy_of_applies applies]
    exact fun key _ => unreachable key.apiKeyId
  cases statement with
  | insertEventIfNew payload windowStart =>
    obtain ⟨⟨inserted, rows⟩, inserts, executes⟩ := Except.exists_of_bind_eq_ok executes
    obtain rfl := Except.ok.inj executes
    refine ⟨?_, List.forall_mem_nil _⟩
    simp only [Tables.ofTenants, events.insertOrNothing inserts]
    rfl
  | incrementUsageRollup customerId metric windowStart quantity =>
    obtain ⟨⟨inserted, row, rows⟩, upserts, executes⟩ := Except.exists_of_bind_eq_ok executes
    obtain rfl := Except.ok.inj executes
    refine ⟨?_, List.forall_mem_nil _⟩
    simp only [Tables.ofTenants, rollups.insertOrUpdate upserts]
    rfl
  | upsertQuota customerId metric limitPerWindow =>
    obtain ⟨⟨inserted, row, rows⟩, upserts, executes⟩ := Except.exists_of_bind_eq_ok executes
    obtain rfl := Except.ok.inj executes
    refine ⟨?_, List.forall_mem_nil _⟩
    simp only [Tables.ofTenants, quotas.insertOrUpdate upserts]
    rfl
  | deleteQuota customerId metric =>
    obtain ⟨⟨removed, rows⟩, deletes, executes⟩ := Except.exists_of_bind_eq_ok executes
    obtain rfl := Except.ok.inj executes
    refine ⟨?_, List.forall_mem_nil _⟩
    simp only [Tables.ofTenants, quotas.delete deletes]
    rfl
  | lockQuota customerId metric =>
    obtain ⟨rows, selects, executes⟩ := Except.exists_of_bind_eq_ok executes
    obtain rfl := Except.ok.inj executes
    refine ⟨rfl, fun key member => ?_⟩
    obtain ⟨entry, selected, rfl⟩ := List.mem_map.mp member
    exact quotas.of_select selects entry selected
  | findEventByIdempotencyKey | readCurrentTotal | listQuotas | findUsageRollup | countUsageRollups
    | streamUsageRollups | aggregateDailyEventCounts =>
    obtain ⟨rows, selects, executes⟩ := Except.exists_of_bind_eq_ok executes
    obtain rfl := Except.ok.inj executes
    exact ⟨rfl, List.forall_mem_nil _⟩

/-- With no row in reach, a statement that succeeds returns nothing. -/
theorem isEmpty_execute (applies : control.appliesPolicy) (unreachable : Unreachable current fun _ => true)
    (executes : statement.execute control current apiKeyIds txn db = .ok executed) : executed.result.IsEmpty := by
  have events : (control.policy (eventsTenantIsolation current)).Spares fun _ => true := by
    rw [TenantControl.policy_of_applies applies]
    exact fun key _ => unreachable key.apiKeyId
  have rollups : (control.policy (usageRollupTenantIsolation current)).Spares fun _ => true := by
    rw [TenantControl.policy_of_applies applies]
    exact fun key _ => unreachable key.apiKeyId
  have quotas : (control.policy (quotasTenantIsolation current)).Spares fun _ => true := by
    rw [TenantControl.policy_of_applies applies]
    exact fun key _ => unreachable key.apiKeyId
  have nothing {Key Row : Type} {policy : RowPolicy Key Row SqlError} {test : Key → Bool}
      {entries selected : List (Σ _ : Key, Row)} (spares : policy.Spares fun _ => true)
      (selects : policy.select test entries = .ok selected) : selected = [] :=
    List.eq_nil_iff_forall_not_mem.mpr fun entry member => spares.of_select selects entry member rfl
  cases statement with
  | insertEventIfNew payload windowStart =>
    obtain ⟨rows, inserts, executes⟩ := Except.exists_of_bind_eq_ok executes
    obtain ⟨⟨⟩, passed, -⟩ := Except.exists_of_bind_eq_ok inserts
    exact absurd rfl (events.of_check passed)
  | incrementUsageRollup customerId metric windowStart quantity =>
    obtain ⟨rows, upserts, executes⟩ := Except.exists_of_bind_eq_ok executes
    obtain ⟨⟨⟩, passed, -⟩ := Except.exists_of_bind_eq_ok upserts
    exact absurd rfl (rollups.of_check passed)
  | upsertQuota customerId metric limitPerWindow =>
    obtain ⟨rows, upserts, executes⟩ := Except.exists_of_bind_eq_ok executes
    obtain ⟨⟨⟩, passed, -⟩ := Except.exists_of_bind_eq_ok upserts
    exact absurd rfl (quotas.of_check passed)
  | deleteQuota customerId metric =>
    obtain ⟨⟨removed, rows⟩, deletes, executes⟩ := Except.exists_of_bind_eq_ok executes
    obtain ⟨selected, selects, deletes⟩ := Except.exists_of_bind_eq_ok deletes
    obtain ⟨rfl, rfl⟩ := Prod.mk.inj (Except.ok.inj deletes)
    obtain rfl := Except.ok.inj executes
    rw [nothing quotas selects]
    rfl
  | findEventByIdempotencyKey idempotencyKey =>
    obtain ⟨rows, selects, executes⟩ := Except.exists_of_bind_eq_ok executes
    obtain rfl := Except.ok.inj executes
    rw [nothing events selects]
    rfl
  | lockQuota customerId metric =>
    obtain ⟨rows, selects, executes⟩ := Except.exists_of_bind_eq_ok executes
    obtain rfl := Except.ok.inj executes
    rw [nothing quotas selects]
    rfl
  | listQuotas =>
    obtain ⟨rows, selects, executes⟩ := Except.exists_of_bind_eq_ok executes
    obtain rfl := Except.ok.inj executes
    rw [nothing quotas selects]
    rfl
  | streamUsageRollups params limit =>
    obtain ⟨rows, selects, executes⟩ := Except.exists_of_bind_eq_ok executes
    obtain rfl := Except.ok.inj executes
    rw [nothing rollups selects]
    exact List.take_nil
  | readCurrentTotal | findUsageRollup | countUsageRollups | aggregateDailyEventCounts =>
    obtain ⟨rows, selects, executes⟩ := Except.exists_of_bind_eq_ok executes
    obtain rfl := Except.ok.inj executes
    rw [nothing rollups selects]
    rfl

/-- What shows of the first step decides what shows of both. -/
private theorem map_bind_agree {Value Part : Type} (shown : Value → Part) {first second : Except SqlError Value}
    (same : first.map shown = second.map shown) {one other : Value → Executed}
    (agree : ∀ value value', shown value = shown value' → (one value).ofTenants keep = (other value').ofTenants keep) :
    (first >>= fun value => pure (one value)).map (Executed.ofTenants keep) =
      (second >>= fun value => pure (other value)).map (Executed.ofTenants keep) := by
  rcases Except.cases_of_map_eq same with ⟨error, rfl, rfl⟩ | ⟨value, value', rfl, rfl, shown⟩
  · rfl
  · exact congrArg Except.ok (agree value value' shown)

/-- Under the tenant's setting, a statement comes to the same on tables that agree on the rows that are kept, the
tenant's among them. -/
theorem execute_agree (applies : control.appliesPolicy) {principal : ApiKeyId} (own : keep principal.value)
    {collation : Collation} {now : Instant} {nextEventId : ℕ} {tables other : Tables}
    (same : tables.ofTenants keep = other.ofTenants keep) :
    (statement.execute control (some (toString principal.value)) apiKeyIds txn
        (.atRest collation now nextEventId tables)).map (Executed.ofTenants keep) =
      (statement.execute control (some (toString principal.value)) apiKeyIds txn
        (.atRest collation now nextEventId other)).map (Executed.ofTenants keep) := by
  obtain ⟨events, rollups, quotas⟩ := Tables.mk.inj same
  have within (apiKeyId : ℕ) (passes : decide (apiKeyId = principal.value) = true) : keep apiKeyId :=
    of_decide_eq_true passes ▸ own
  have lawfulEvents : (control.policy (eventsTenantIsolation (some (toString principal.value)))).Passes
      fun key => decide (key.apiKeyId = principal.value) := by
    rw [TenantControl.policy_of_applies applies]
    exact fun key _ => tenantIsolation_toString principal key.apiKeyId
  have lawfulRollups : (control.policy (usageRollupTenantIsolation (some (toString principal.value)))).Passes
      fun key => decide (key.apiKeyId = principal.value) := by
    rw [TenantControl.policy_of_applies applies]
    exact fun key _ => tenantIsolation_toString principal key.apiKeyId
  have lawfulQuotas : (control.policy (quotasTenantIsolation (some (toString principal.value)))).Passes
      fun key => decide (key.apiKeyId = principal.value) := by
    rw [TenantControl.policy_of_applies applies]
    exact fun key _ => tenantIsolation_toString principal key.apiKeyId
  have selectEvents := RowPolicy.select_agree lawfulEvents (fun key => within key.apiKeyId) events
  have selectRollups := RowPolicy.select_agree lawfulRollups (fun key => within key.apiKeyId) rollups
  have selectQuotas := RowPolicy.select_agree lawfulQuotas (fun key => within key.apiKeyId) quotas
  cases statement with
  | findEventByIdempotencyKey =>
    refine map_bind_agree id (congrArg _ (selectEvents _)) ?_
    rintro rows - rfl
    exact congrArg (Executed.mk _ _) same
  | lockQuota | listQuotas =>
    refine map_bind_agree id (congrArg _ (selectQuotas _)) ?_
    rintro rows - rfl
    exact congrArg (Executed.mk _ _) same
  | readCurrentTotal | findUsageRollup | countUsageRollups | streamUsageRollups | aggregateDailyEventCounts =>
    refine map_bind_agree id (congrArg _ (selectRollups _)) ?_
    rintro rows - rfl
    exact congrArg (Executed.mk _ _) same
  | insertEventIfNew payload windowStart =>
    refine map_bind_agree _ (RowPolicy.insertOrNothing_agree lawfulEvents (fun key => within key.apiKeyId) events) ?_
    rintro ⟨inserted, rows⟩ ⟨inserted', rows'⟩ shown
    obtain ⟨rfl, view⟩ := Prod.mk.inj shown
    exact congrArg (Executed.mk _ _) (Tables.mk.injEq .. ▸ ⟨view, rollups, quotas⟩)
  | incrementUsageRollup customerId metric windowStart quantity =>
    refine map_bind_agree _ (RowPolicy.insertOrUpdate_agree lawfulRollups (fun key => within key.apiKeyId) rollups) ?_
    rintro ⟨inserted, row, rows⟩ ⟨inserted', row', rows'⟩ shown
    simp only [Prod.map_apply, id_eq, Prod.mk.injEq] at shown
    obtain ⟨rfl, rfl, view⟩ := shown
    exact congrArg (Executed.mk _ _) (Tables.mk.injEq .. ▸ ⟨events, view, quotas⟩)
  | upsertQuota customerId metric limitPerWindow =>
    refine map_bind_agree _ (RowPolicy.insertOrUpdate_agree lawfulQuotas (fun key => within key.apiKeyId) quotas) ?_
    rintro ⟨inserted, row, rows⟩ ⟨inserted', row', rows'⟩ shown
    simp only [Prod.map_apply, id_eq, Prod.mk.injEq] at shown
    obtain ⟨rfl, rfl, view⟩ := shown
    exact congrArg (Executed.mk _ _) (Tables.mk.injEq .. ▸ ⟨events, rollups, view⟩)
  | deleteQuota customerId metric =>
    refine map_bind_agree _ (RowPolicy.delete_agree lawfulQuotas (fun key => within key.apiKeyId) quotas _) ?_
    rintro ⟨removed, rows⟩ ⟨removed', rows'⟩ shown
    obtain ⟨rfl, view⟩ := Prod.mk.inj shown
    exact congrArg (Executed.mk _ _) (Tables.mk.injEq .. ▸ ⟨events, rollups, view⟩)

end Statement

end Meterly
