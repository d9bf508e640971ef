import Meterly.Model.Migrations
import Meterly.Soundness.RollupLog

/-! # Migrations keep the log

Up and down in any order, with runs of the services on the last revision, the schema is that of the
applied revision and the rollup is the log. The backfill runs as the owner of `events` without a tenant,
so it counts on the policy of `events` not being forced yet: the downgrades take that back before they
drop the rollup.
-/

namespace Meterly

/-! ## What the statements do -/

theorem insertAll_empty {Key Row : Type} [DecidableEq Key] (source : Rows Key Row) :
    insertAll ∅ source.entries = some source := by
  have built : ∀ entries : List (Σ _ : Key, Row), ∀ distinct : entries.NodupKeys,
      insertAll ∅ entries = some ⟨entries, distinct⟩ := by
    intro entries distinct
    induction entries with
    | nil => rfl
    | cons entry rest ih =>
      obtain ⟨fresh, others⟩ := List.nodupKeys_cons.mp distinct
      have absent : entry.1 ∉ (⟨rest, others⟩ : Rows Key Row) := fresh
      rw [insertAll, ih others, Option.bind_some, if_neg absent]
      exact congrArg some (AList.ext (AList.entries_insert_of_notMem absent))
  exact built source.entries source.nodupKeys

theorem aggregateEvents_entries (events : Rows EventKey EventRow) : aggregateEvents events.entries = backfill events := rfl

/-- The backfill sees every event as long as the owner of `events` is not under its policy. -/
theorem Catalog.backfillUsageRollup_eq {catalog : Catalog} {events : SecuredTable EventKey EventRow}
    {usageRollup : SecuredTable RollupKey RollupRow} (log : catalog.events = some events)
    (buckets : catalog.usageRollup = some usageRollup) (new : usageRollup.rows = ∅)
    (unbound : events.security.bindsOwner = false) (free : usageRollup.security.bindsOwner = false) :
    catalog.backfillUsageRollup = if ∀ group ∈ (backfill events.rows).entries, group.2.totalQuantity < 10 ^ 38 then
      some { catalog with usageRollup := some { usageRollup with rows := backfill events.rows } } else none := by
  have visible : (events.security.ownerPolicy (eventsTenantIsolation none)).select (fun _ => true) events.rows.entries =
      .ok events.rows.entries := by
    rw [RowSecurity.ownerPolicy, unbound, if_neg Bool.false_ne_true,
      RowPolicy.select_of_passes RowPolicy.passes_unrestricted]
    exact congrArg Except.ok (List.filter_eq_self.mpr fun _ _ => rfl)
  have admitted (group : Σ _ : RollupKey, RollupRow) :
      (usageRollup.security.ownerPolicy (usageRollupTenantIsolation none) group.1 group.2).toOption = some true := by
    rw [RowSecurity.ownerPolicy, free, if_neg Bool.false_ne_true]
    rfl
  simp only [Catalog.backfillUsageRollup, log, buckets, visible, aggregateEvents_entries, admitted, true_and, new,
    insertAll_empty, List.all_eq_true, decide_eq_true_eq, Option.map_some]

/-- A deployment is ready on the last revision. -/
theorem Deployment.readiness_eq_200_iff {s : Deployment} : s.readiness = 200 ↔ s.applied = some .forceRlsEvents := by
  have head : Revision.currentHead = some .forceRlsEvents := rfl
  rw [readiness, currentMigrationIsHead, head]
  split_ifs with ready
  · exact iff_of_true rfl (of_decide_eq_true ready)
  · exact iff_of_false (by decide) fun applied => ready (decide_eq_true applied)

/-! ## The schema of a revision -/

/-- The rollup answers every lookup as the backfill of the events does. -/
def IsLog (events : Rows EventKey EventRow) (usageRollup : Rows RollupKey RollupRow) : Prop :=
  ∀ bucket, usageRollup.lookup bucket = (backfill events).lookup bucket

/-- Under its policy, which the owner passes by. -/
def RowSecurity.unforced : RowSecurity := ⟨true, false, true⟩

/-- Under its policy, the owner too. -/
def RowSecurity.forcedPolicy : RowSecurity := ⟨true, true, true⟩

/-- The tables that a revision has, and that the rollup, where there is one, is the log. -/
inductive Migrated : Option Revision → Catalog → Prop
  | base {nextEventId : ℕ} : Migrated none ⟨none, none, none, none, nextEventId⟩
  | createApiKeysAndEvents {rows : List ApiKeyRow} {events : Rows EventKey EventRow} {nextEventId : ℕ} :
      Migrated (some .createApiKeysAndEvents)
        ⟨some (.withoutScope rows), some ⟨events, .unforced⟩, none, none, nextEventId⟩
  | createUsageRollupBackfill {rows : List ApiKeyRow} {events : Rows EventKey EventRow}
      {usageRollup : Rows RollupKey RollupRow} {nextEventId : ℕ} (isLog : IsLog events usageRollup) :
      Migrated (some .createUsageRollupBackfill)
        ⟨some (.withoutScope rows), some ⟨events, .unforced⟩, some ⟨usageRollup, .unforced⟩, none, nextEventId⟩
  | createQuotasAndApiKeyScope {records : List ApiKeyRecord} {events : Rows EventKey EventRow}
      {usageRollup : Rows RollupKey RollupRow} {quotas : Rows QuotaKey QuotaRow} {nextEventId : ℕ}
      (isLog : IsLog events usageRollup) :
      Migrated (some .createQuotasAndApiKeyScope)
        ⟨some (.withScope records true), some ⟨events, .unforced⟩, some ⟨usageRollup, .unforced⟩,
          some ⟨quotas, .forcedPolicy⟩, nextEventId⟩
  | forceRlsUsageRollup {records : List ApiKeyRecord} {events : Rows EventKey EventRow}
      {usageRollup : Rows RollupKey RollupRow} {quotas : Rows QuotaKey QuotaRow} {nextEventId : ℕ}
      (isLog : IsLog events usageRollup) :
      Migrated (some .forceRlsUsageRollup)
        ⟨some (.withScope records true), some ⟨events, .unforced⟩, some ⟨usageRollup, .forcedPolicy⟩,
          some ⟨quotas, .forcedPolicy⟩, nextEventId⟩
  | forceRlsEvents {records : List ApiKeyRecord} {events : Rows EventKey EventRow}
      {usageRollup : Rows RollupKey RollupRow} {quotas : Rows QuotaKey QuotaRow} {nextEventId : ℕ}
      (isLog : IsLog events usageRollup) :
      Migrated (some .forceRlsEvents)
        ⟨some (.withScope records true), some ⟨events, .forcedPolicy⟩, some ⟨usageRollup, .forcedPolicy⟩,
          some ⟨quotas, .forcedPolicy⟩, nextEventId⟩

variable {applied : Option Revision} {revision : Revision} {catalog next : Catalog}

namespace Migrated

/-- An upgrade leaves the schema of the next revision. -/
theorem upgrade (migrated : Migrated applied catalog) (follows : Revision.after applied = some revision)
    (upgrades : revision.upgrade.foldlM Ddl.execute catalog = some next) : Migrated (some revision) next := by
  cases migrated with
  | base =>
    obtain rfl : Revision.createApiKeysAndEvents = revision := Option.some.inj follows
    obtain rfl := Option.some.inj upgrades
    exact .createApiKeysAndEvents
  | @createApiKeysAndEvents rows events nextEventId =>
    obtain rfl : Revision.createUsageRollupBackfill = revision := Option.some.inj follows
    -- Once the table is created, the backfill may find a sum that the column does not hold.
    obtain ⟨filled, fills, upgrades⟩ := Option.bind_eq_some_iff.mp upgrades
    rw [Ddl.execute, Catalog.backfillUsageRollup_eq rfl rfl rfl rfl rfl] at fills
    split_ifs at fills
    obtain rfl := Option.some.inj fills
    obtain rfl := Option.some.inj upgrades
    exact .createUsageRollupBackfill fun _ => rfl
  | createUsageRollupBackfill isLog =>
    obtain rfl : Revision.createQuotasAndApiKeyScope = revision := Option.some.inj follows
    obtain rfl := Option.some.inj upgrades
    exact .createQuotasAndApiKeyScope isLog
  | createQuotasAndApiKeyScope isLog =>
    obtain rfl : Revision.forceRlsUsageRollup = revision := Option.some.inj follows
    obtain rfl := Option.some.inj upgrades
    exact .forceRlsUsageRollup isLog
  | forceRlsUsageRollup isLog =>
    obtain rfl : Revision.forceRlsEvents = revision := Option.some.inj follows
    obtain rfl := Option.some.inj upgrades
    exact .forceRlsEvents isLog
  | forceRlsEvents => contradiction

/-- A downgrade leaves the schema of the revision before. -/
theorem downgrade (migrated : Migrated (some revision) catalog)
    (downgrades : revision.downgrade.foldlM Ddl.execute catalog = some next) : Migrated revision.downRevision next := by
  cases migrated with
  | createApiKeysAndEvents =>
    obtain rfl := Option.some.inj downgrades
    exact .base
  | createUsageRollupBackfill =>
    obtain rfl := Option.some.inj downgrades
    exact .createApiKeysAndEvents
  | createQuotasAndApiKeyScope isLog =>
    obtain rfl := Option.some.inj downgrades
    exact .createUsageRollupBackfill isLog
  | forceRlsUsageRollup isLog =>
    obtain rfl := Option.some.inj downgrades
    exact .createQuotasAndApiKeyScope isLog
  | forceRlsEvents isLog =>
    obtain rfl := Option.some.inj downgrades
    exact .forceRlsUsageRollup isLog

/-- A run of the services on the last revision keeps the log. -/
theorem serve {s : Deployment} (migrated : Migrated s.applied s.catalog) (ready : s.readiness = 200) {tables : Tables}
    (served : s.tables = some tables) {schedule : List Action} {final : State}
    (runs : Machine.run step (.init (.atRest s.collation s.now s.catalog.nextEventId tables)) schedule = some final) :
    Migrated s.applied (s.afterServing final.db).catalog := by
  obtain ⟨catalog, applied, collation, now⟩ := s
  obtain rfl : applied = some .forceRlsEvents := Deployment.readiness_eq_200_iff.mp ready
  cases migrated with
  | @forceRlsEvents records events usageRollup quotas nextEventId isLog =>
    obtain rfl := Option.some.inj served
    have start : RollupIsLog (.init (.atRest collation now nextEventId ⟨events, usageRollup, quotas⟩)) := isLog
    have both : Consistent final ∧ RollupIsLog final := by
      refine Machine.run_invariant (motive := fun s => Consistent s ∧ RollupIsLog s) ⟨.init .., start⟩ ?_ runs
      rintro s a next ⟨consistent, isLog⟩ steps
      refine ⟨consistent.stepped (stepped_of_step steps), ?_⟩
      rcases (stepped_of_step steps).moved with ⟨elapsed, rfl⟩ | ⟨txn, call, db, -, moved, rfl⟩
      · exact isLog
      · exact isLog.record consistent moved
    exact .forceRlsEvents both.2

/-- No action of a deployment leaves the schema of a revision or the log. -/
theorem step {s next : Deployment} {a : Deployment.Action} (migrated : Migrated s.applied s.catalog)
    (steps : Deployment.step s a = some next) : Migrated next.applied next.catalog := by
  cases a with
  | upgrade =>
    obtain ⟨revision, follows, steps⟩ := Option.bind_eq_some_iff.mp steps
    obtain ⟨catalog, upgrades, rfl⟩ := Option.map_eq_some_iff.mp steps
    exact migrated.upgrade follows upgrades
  | downgrade =>
    obtain ⟨revision, applied, steps⟩ := Option.bind_eq_some_iff.mp steps
    obtain ⟨catalog, downgrades, rfl⟩ := Option.map_eq_some_iff.mp steps
    rw [applied] at migrated
    exact migrated.downgrade downgrades
  | serve schedule =>
    simp only [Deployment.step] at steps
    split_ifs at steps with ready
    obtain ⟨tables, served, steps⟩ := Option.bind_eq_some_iff.mp steps
    obtain ⟨final, runs, rfl⟩ := Option.map_eq_some_iff.mp steps
    exact migrated.serve ready served runs
  | commitKeys records =>
    obtain ⟨catalog, applied, collation, now⟩ := s
    cases migrated with
    | base | createApiKeysAndEvents | createUsageRollupBackfill => contradiction
    | createQuotasAndApiKeyScope isLog =>
      obtain rfl := Option.some.inj steps
      exact .createQuotasAndApiKeyScope isLog
    | forceRlsUsageRollup isLog =>
      obtain rfl := Option.some.inj steps
      exact .forceRlsUsageRollup isLog
    | forceRlsEvents isLog =>
      obtain rfl := Option.some.inj steps
      exact .forceRlsEvents isLog

theorem of_run {collation : Collation} {now : Instant} {final : Deployment} {schedule : List Deployment.Action}
    (reached : Machine.run Deployment.step (.fresh collation now) schedule = some final) :
    Migrated final.applied final.catalog :=
  Machine.run_invariant (motive := fun s => Migrated s.applied s.catalog) .base
    (fun _ _ _ migrated steps => migrated.step steps) reached

end Migrated

namespace Deployment

variable {collation : Collation} {now : Instant} {s final : Deployment} {schedule : List Action}

/-- However a deployment is taken up and down its revisions, served from and given keys: wherever it has both
tables, the rollup is what the backfill of the events would give; and it is ready exactly when all three tables
are there with their tenant policies in force for the role that owns them. -/
theorem log_kept_and_ready_when_policies_bind
    (reached : Machine.run step (.fresh collation now) schedule = some final) :
    (∀ events usageRollup, final.catalog.events = some events → final.catalog.usageRollup = some usageRollup →
      usageRollup.rows.entries.Perm (backfill events.rows).entries) ∧
    (final.readiness = 200 ↔
      ∀ table, ∃ security ∈ final.catalog.security table, security.bindsOwner ∧ security.tenantPolicy) := by
  have migrated := Migrated.of_run reached
  obtain ⟨catalog, applied, collation, now⟩ := final
  constructor
  · intro events usageRollup log buckets
    cases migrated with
    | base | createApiKeysAndEvents => contradiction
    | createUsageRollupBackfill isLog | createQuotasAndApiKeyScope isLog | forceRlsUsageRollup isLog
      | forceRlsEvents isLog =>
      obtain rfl := Option.some.inj log
      obtain rfl := Option.some.inj buckets
      exact AList.entries_perm_of_lookup isLog
  · rw [readiness_eq_200_iff]
    cases migrated with
    | forceRlsEvents isLog =>
      refine iff_of_true rfl fun table => ?_
      cases table <;> exact ⟨_, rfl, rfl, rfl⟩
    | base =>
      refine iff_of_false nofun fun bound => ?_
      obtain ⟨security, exists_, -⟩ := bound .events
      contradiction
    | createApiKeysAndEvents | createUsageRollupBackfill | createQuotasAndApiKeyScope | forceRlsUsageRollup =>
      refine iff_of_false nofun fun bound => ?_
      obtain ⟨security, exists_, binds, -⟩ := bound .events
      obtain rfl := Option.some.inj exists_
      contradiction

/-- Up to the last revision, one event, down to the first revision and up again: the rollup is derived anew. -/
theorem log_kept_and_ready_when_policies_bind_derived_anew :
    let request : Request := .createEvent ⟨"c", "m", ⟨1500000, by decide, by decide⟩, "a"⟩ 0
    let schedule : List Action := List.replicate 5 .upgrade ++ [.serve (request.steps ⟨7, 0⟩ 6)] ++
      List.replicate 4 .downgrade ++ List.replicate 4 .upgrade
    ∃ final events usageRollup, Machine.run step (.fresh .codePoint 0) schedule = some final ∧ final.readiness = 200 ∧
      final.catalog.events = some events ∧ events.rows.entries.length = 1 ∧ final.catalog.usageRollup = some usageRollup ∧
      usageRollup.rows.entries.Perm (backfill events.rows).entries := by
  intro request schedule
  have runs : (Machine.run step (.fresh .codePoint 0) schedule).map (fun final => (decide (final.readiness = 200),
      final.catalog.events.map fun events => events.rows.entries.length, final.catalog.usageRollup.isSome)) =
      some (true, some 1, true) := by decide +kernel
  obtain ⟨final, reached, facts⟩ := Option.map_eq_some_iff.mp runs
  obtain ⟨ready, facts⟩ := Prod.mk.inj facts
  obtain ⟨logged, derived⟩ := Prod.mk.inj facts
  obtain ⟨events, log, one⟩ := Option.map_eq_some_iff.mp logged
  obtain ⟨usageRollup, buckets⟩ := Option.isSome_iff_exists.mp derived
  exact ⟨final, events, usageRollup, reached, of_decide_eq_true ready, log, one, buckets,
    (log_kept_and_ready_when_policies_bind reached).1 events usageRollup log buckets⟩

/-! ## Down and up again -/

/-- What a revision brings back when it is taken down and up again: the first loses its tables' rows, the second
derives the rollup anew, the third loses the quotas and sets each scope to its default, and the last two change
nothing. -/
def Restored : Revision → Catalog → Catalog → Prop
  | .createApiKeysAndEvents, _, again =>
    again.apiKeys.map ApiKeysTable.rows = some [] ∧ again.events.map SecuredTable.rows = some ∅
  | .createUsageRollupBackfill, catalog, again =>
    again.apiKeys = catalog.apiKeys ∧ again.events = catalog.events ∧
    ∃ before after, catalog.usageRollup = some before ∧ again.usageRollup = some after ∧
      after.rows.entries.Perm before.rows.entries
  | .createQuotasAndApiKeyScope, catalog, again =>
    again.events = catalog.events ∧ again.usageRollup = catalog.usageRollup ∧
    again.quotas.map SecuredTable.rows = some ∅ ∧
    ∃ rows, catalog.apiKeys.map ApiKeysTable.rows = some rows ∧
      again.apiKeys = some (.withScope (rows.map (·.withScope .ingest)) true)
  | .forceRlsUsageRollup, catalog, again | .forceRlsEvents, catalog, again => again = catalog

/-- Where the totals fit, the second revision brings up the rollup that the events give. -/
theorem upgrade_createUsageRollupBackfill {apiKeys : ApiKeysTable} {events : Rows EventKey EventRow} {nextEventId : ℕ}
    (fits : ∀ group ∈ (backfill events).entries, group.2.totalQuantity < 10 ^ 38) :
    Revision.createUsageRollupBackfill.upgrade.foldlM Ddl.execute
        ⟨some apiKeys, some ⟨events, .unforced⟩, none, none, nextEventId⟩ =
      some ⟨some apiKeys, some ⟨events, .unforced⟩, some ⟨backfill events, .unforced⟩, none, nextEventId⟩ := by
  have fills : Ddl.execute ⟨some apiKeys, some ⟨events, .unforced⟩, some ⟨∅, .none⟩, none, nextEventId⟩
      .backfillUsageRollup =
        some ⟨some apiKeys, some ⟨events, .unforced⟩, some ⟨backfill events, .none⟩, none, nextEventId⟩ := by
    rw [Ddl.execute, Catalog.backfillUsageRollup_eq rfl rfl rfl rfl rfl, if_pos fits]
  exact congrArg (fun filled => filled.bind fun catalog =>
    [Ddl.enableRowSecurity .usageRollup, .createPolicy .usageRollup].foldlM Ddl.execute catalog) fills

/-- In every reachable deployment the applied revision can be taken down and, as long as the totals of the events
fit the rollup's column, up again: the schema is the same, the events survive unless their own table was
dropped, and so do the keys but for their scopes. -/
theorem downgrade_upgrade (reached : Machine.run step (.fresh collation now) schedule = some s) {revision : Revision}
    (applied : s.applied = some revision)
    (fits : ∀ events ∈ s.catalog.events, ∀ group ∈ (backfill events.rows).entries, group.2.totalQuantity < 10 ^ 38) :
    ∃ lower again, step s .downgrade = some lower ∧ lower.applied = revision.downRevision ∧
      step lower .upgrade = some again ∧ again.applied = s.applied ∧
      (∀ table, again.catalog.security table = s.catalog.security table) ∧ Restored revision s.catalog again.catalog := by
  have migrated := Migrated.of_run reached
  obtain ⟨catalog, applied', collation, now⟩ := s
  obtain rfl : applied' = some revision := applied
  cases migrated with
  | createApiKeysAndEvents =>
    exact ⟨_, _, rfl, rfl, rfl, rfl, fun table => by cases table <;> rfl, rfl, rfl⟩
  | @createUsageRollupBackfill rows events usageRollup nextEventId isLog =>
    have upgrades : Revision.createUsageRollupBackfill.upgrade.foldlM Ddl.execute
        ⟨some (.withoutScope rows), some ⟨events, .unforced⟩, none, none, nextEventId⟩ =
      some ⟨some (.withoutScope rows), some ⟨events, .unforced⟩, some ⟨backfill events, .unforced⟩, none, nextEventId⟩ :=
      upgrade_createUsageRollupBackfill (fits _ rfl)
    refine ⟨_, _, rfl, rfl, congrArg (Option.map _) upgrades, rfl, fun table => by cases table <;> rfl, rfl, rfl, _, _, rfl,
      rfl, ?_⟩
    exact AList.entries_perm_of_lookup fun bucket => (isLog bucket).symm
  | createQuotasAndApiKeyScope isLog =>
    exact ⟨_, _, rfl, rfl, rfl, rfl, fun table => by cases table <;> rfl, rfl, rfl, rfl, _, rfl, rfl⟩
  | forceRlsUsageRollup isLog => exact ⟨_, _, rfl, rfl, rfl, rfl, fun table => by cases table <;> rfl, rfl⟩
  | forceRlsEvents isLog => exact ⟨_, _, rfl, rfl, rfl, rfl, fun table => by cases table <;> rfl, rfl⟩

/-- With one event recorded, the second revision goes down and up again. -/
theorem downgrade_upgrade_one_event :
    let request : Request := .createEvent ⟨"c", "m", ⟨1500000, by decide, by decide⟩, "a"⟩ 0
    let schedule : List Action := List.replicate 5 .upgrade ++ [.serve (request.steps ⟨7, 0⟩ 6)] ++
      List.replicate 3 .downgrade
    ∃ s lower again, Machine.run step (.fresh .codePoint 0) schedule = some s ∧ step s .downgrade = some lower ∧
      step lower .upgrade = some again ∧ Restored .createUsageRollupBackfill s.catalog again.catalog := by
  intro request schedule
  have runs : (Machine.run step (.fresh .codePoint 0) schedule).map (fun s => (s.applied, s.catalog.events.map fun events =>
      decide (∀ group ∈ (backfill events.rows).entries, group.2.totalQuantity < 10 ^ 38))) =
      some (some .createUsageRollupBackfill, some true) := by decide +kernel
  obtain ⟨s, reached, facts⟩ := Option.map_eq_some_iff.mp runs
  obtain ⟨applied, logged⟩ := Prod.mk.inj facts
  obtain ⟨lower, again, downgrades, -, upgrades, -, -, restored⟩ := downgrade_upgrade reached applied (by
    intro events log
    rw [Option.mem_def.mp log, Option.map_some, Option.some.injEq] at logged
    exact of_decide_eq_true logged)
  exact ⟨s, lower, again, reached, downgrades, upgrades, restored⟩

end Deployment

end Meterly
