import Meterly.Soundness.Consistency
import Meterly.Soundness.TenantView

/-! # Tenants do not interfere

A step of one tenant's call shows to no other tenant: it changes only rows under its own keys and
only its own call. So a run without the calls of the other tenants looks the same to a tenant as
the run with them, apart from the numbers drawn from the shared sequence.
-/

namespace Meterly

variable {s next final : State} {a : Action} {txn : CallId} {call : Call} {db : Database} {tenant : ℕ}
  {schedule : List Action}

/-- The action belongs to a call of the tenant, or is the clock's. -/
def Action.isOf (tenant : ℕ) (a : Action) : Bool := a.caller.all fun txn => txn.apiKeyId = tenant

/-! ## A tenant's own steps -/

@[simp] theorem CreateEvent.Phase.forgetId_forgetId (phase : CreateEvent.Phase) :
    phase.forgetId.forgetId = phase.forgetId := by
  cases phase with
  | answered outcome => cases outcome <;> rfl
  | received | begun | inserting | inserted | lockingQuota | quotaLocked | judging | incremented | conflicted
    | replayed => rfl

@[simp] theorem Call.forgetId_forgetId (call : Call) : call.forgetId.forgetId = call.forgetId := by
  cases call with
  | createEvent payload receivedAt phase => exact congrArg (createEvent payload receivedAt) phase.forgetId_forgetId
  | idle | upsertQuota | deleteQuota | listQuotas | getUsage | getDailyUsage | exportUsage => rfl

@[simp] theorem Call.isAnswered_forgetId (call : Call) : call.forgetId.isAnswered = call.isAnswered := by
  cases call with
  | createEvent payload receivedAt phase => cases phase <;> rfl
  | idle | upsertQuota | deleteQuota | listQuotas | getUsage | getDailyUsage | exportUsage => rfl

@[simp] theorem Call.isRunning_forgetId (call : Call) : call.forgetId.isRunning = call.isRunning := by
  cases call with
  | createEvent payload receivedAt phase => cases phase <;> rfl
  | idle | upsertQuota | deleteQuota | listQuotas | getUsage | getDailyUsage | exportUsage => rfl

@[simp] theorem Call.interrupt_forgetId (call : Call) : call.forgetId.interrupt = call.interrupt := by
  cases call <;> rfl

@[simp] theorem Call.forgetId_interrupt (call : Call) : call.interrupt.forgetId = call.interrupt := by
  cases call <;> rfl

@[simp] theorem Request.forgetId_call (request : Request) : request.call.forgetId = request.call := by
  cases request <;> rfl

namespace State

@[simp] theorem db_tenantView : (s.tenantView tenant).db = s.db.tenantView tenant := rfl

theorem calls_tenantView (own : txn.apiKeyId = tenant) : (s.tenantView tenant).calls txn = (s.calls txn).forgetId :=
  if_pos own

theorem calls_tenantView_of_other (other : txn.apiKeyId ≠ tenant) : (s.tenantView tenant).calls txn = .idle :=
  if_neg other

/-- Two states that a tenant sees alike. -/
theorem tenantView_ext {s t : State} (db : s.db.tenantView tenant = t.db.tenantView tenant)
    (calls : ∀ txn : CallId, txn.apiKeyId = tenant → (s.calls txn).forgetId = (t.calls txn).forgetId)
    (answers : (s.tenantView tenant).answers = (t.tenantView tenant).answers) : s.tenantView tenant = t.tenantView tenant := by
  have sameCalls : (s.tenantView tenant).calls = (t.tenantView tenant).calls := by
    funext txn
    by_cases own : txn.apiKeyId = tenant
    · rw [calls_tenantView own, calls_tenantView own, calls txn own]
    · rw [calls_tenantView_of_other own, calls_tenantView_of_other own]
  exact State.mk.injEq .. ▸ ⟨db, sameCalls, answers⟩

@[simp] theorem tenantView_tenantView : (s.tenantView tenant).tenantView tenant = s.tenantView tenant := by
  refine tenantView_ext Database.tenantView_tenantView (fun txn own => ?_) ?_
  · rw [calls_tenantView own, Call.forgetId_forgetId]
  · have again : Prod.map id Call.forgetId ∘ Prod.map id Call.forgetId = (Prod.map id Call.forgetId : CallId × Call → _) :=
      funext fun answer => Prod.ext rfl answer.2.forgetId_forgetId
    simp only [tenantView, List.filter_map, List.map_map, again, List.filter_filter, Function.comp_def, Prod.map_fst,
      id, Bool.and_self]

/-- What the tenant sees of its own call depends on what it saw before. -/
theorem tenantView_record {other : Call} {after : Database} (own : txn.apiKeyId = tenant)
    (sameCall : call.forgetId = other.forgetId) (sameDb : db.tenantView tenant = after.tenantView tenant) :
    (s.record txn call db).tenantView tenant = ((s.tenantView tenant).record txn other after).tenantView tenant := by
  refine tenantView_ext sameDb (fun mine owned => ?_) ?_
  · by_cases same : mine = txn
    · subst mine
      rw [calls_record_self, calls_record_self, sameCall]
    · rw [calls_record_of_ne same, calls_record_of_ne same, calls_tenantView owned, Call.forgetId_forgetId]
  · have again : (s.tenantView tenant).answers = ((s.tenantView tenant).tenantView tenant).answers := by
      rw [tenantView_tenantView]
    have ended : call.isAnswered = other.isAnswered := by
      rw [← Call.isAnswered_forgetId, sameCall, Call.isAnswered_forgetId]
    have listed : decide (txn.apiKeyId = tenant) = true := decide_eq_true own
    simp only [tenantView, record, ended] at again ⊢
    split_ifs
    · simp only [List.filter_append, List.map_append, ← again, List.filter_cons, listed, if_true, List.filter_nil,
        List.map_cons, Prod.map_apply, sameCall, List.map_nil]
    · exact again

/-- A tenant sees nothing of what the call of another does. -/
theorem tenantView_record_of_other (other : txn.apiKeyId ≠ tenant) (same : db.tenantView tenant = s.db.tenantView tenant) :
    (s.record txn call db).tenantView tenant = s.tenantView tenant := by
  refine tenantView_ext same (fun mine own => ?_) ?_
  · rw [calls_record_of_ne]
    rintro rfl
    exact other own
  · simp only [tenantView, record]
    split_ifs
    · rw [List.filter_append, List.filter_cons_of_neg (by simpa using other), List.filter_nil, List.append_nil]
    · rfl

end State

private theorem map_eq_map_of {α β γ δ : Type*} {left : Option α} {right : Option β} {p : α → γ} {q : β → γ}
    {f : α → δ} {g : β → δ} (same : left.map p = right.map q) (factors : ∀ a b, p a = q b → f a = g b) :
    left.map f = right.map g := by
  cases left with
  | none =>
    cases right with
    | none => rfl
    | some b => contradiction
  | some a =>
    cases right with
    | none => contradiction
    | some b => exact congrArg some (factors a b (Option.some.inj same))

/-- A step of a tenant can be taken on what the tenant sees. -/
theorem step_tenantView (own : a.isOf tenant) :
    (step s a).map (State.tenantView tenant) = (step (s.tenantView tenant) a).map (State.tenantView tenant) := by
  cases a with
  | start txn request =>
    have own : txn.apiKeyId = tenant := of_decide_eq_true own
    simp only [step, State.calls_tenantView own]
    cases s.calls txn with
    | idle => exact congrArg some (State.tenantView_record own rfl Database.tenantView_tenantView.symm)
    | createEvent | upsertQuota | deleteQuota | listQuotas | getUsage | getDailyUsage | exportUsage => rfl
  | advance txn =>
    have own : txn.apiKeyId = tenant := of_decide_eq_true own
    simp only [step, State.calls_tenantView own, State.db_tenantView, Option.map_map]
    apply map_eq_map_of (Call.advance_tenantView own (s.calls txn))
    intro next after looks
    obtain ⟨sameCall, sameDb⟩ := Prod.mk.inj looks
    exact State.tenantView_record own sameCall sameDb
  | interrupt txn =>
    have own : txn.apiKeyId = tenant := of_decide_eq_true own
    simp only [step, State.calls_tenantView own, Call.isRunning_forgetId, Call.interrupt_forgetId]
    split_ifs
    · refine congrArg some (State.tenantView_record own rfl ?_)
      rw [State.db_tenantView, Database.tenantView_rollback, Database.tenantView_rollback, Database.tenantView_tenantView]
    · rfl
  | tick elapsed =>
    simp only [step, Option.map_some, Option.some.injEq]
    refine State.tenantView_ext ?_ (fun txn own => ?_) ?_
    · exact congrArg (fun seen : Database => { seen with now := s.db.now + elapsed }) Database.tenantView_tenantView.symm
    · exact ((congrArg Call.forgetId (State.calls_tenantView own)).trans (s.calls txn).forgetId_forgetId).symm
    · change (s.tenantView tenant).answers = ((s.tenantView tenant).tenantView tenant).answers
      rw [State.tenantView_tenantView]

/-! ## The steps of others -/

/-- A call holds rows of its own tenant. -/
theorem Call.held_own (call : Call) (txn : CallId) :
    (∀ hold ∈ (call.held txn).event, hold.1.apiKeyId = txn.apiKeyId) ∧
      (∀ hold ∈ (call.held txn).rollup, hold.1.apiKeyId = txn.apiKeyId) ∧
      ∀ hold ∈ (call.held txn).quota, hold.1.apiKeyId = txn.apiKeyId := by
  cases call with
  | createEvent payload receivedAt phase =>
    cases phase with
    | inserted row | lockingQuota row version | quotaLocked row limit =>
      simp [held, CreateEvent.Phase.held, EventCreateRequest.eventKey, EventRow.quotaKey]
    | judging row quotaState | incremented row quotaState =>
      cases quotaState <;> simp [held, CreateEvent.Phase.held, EventCreateRequest.eventKey, EventRow.quotaKey, EventRow.rollupKey]
    | received | begun | inserting | conflicted | replayed | answered => simp [held, CreateEvent.Phase.held]
  | upsertQuota payload phase => cases phase <;> simp [held, UpsertQuota.Phase.held, QuotaPutRequest.quotaKey]
  | deleteQuota params phase =>
    cases phase with
    | removed found => cases found <;> simp [held, DeleteQuota.Phase.held, QuotaDeleteParams.quotaKey]
    | received | begun | deleting | answered => simp [held, DeleteQuota.Phase.held]
  | idle | listQuotas | getUsage | getDailyUsage | exportUsage => simp [held]

/-- No step of a call changes a row of another tenant. -/
theorem Consistent.find_of_other (consistent : Consistent s) (moved : Moved txn s.db (s.calls txn) call db) :
    (∀ key, key.apiKeyId ≠ txn.apiKeyId → db.events.find key = s.db.events.find key) ∧
      (∀ key, key.apiKeyId ≠ txn.apiKeyId → db.usageRollup.find key = s.db.usageRollup.find key) ∧
      ∀ key, key.apiKeyId ≠ txn.apiKeyId → db.quotas.find key = s.db.quotas.find key := by
  cases moved with
  | reads | insertsEvent | locksQuota | takesBucket | rollsBack => exact ⟨fun _ _ => rfl, fun _ _ => rfl, fun _ _ => rfl⟩
  | commits released whole =>
    obtain ⟨event, rollup, quota⟩ := (s.calls txn).held_own txn
    refine ⟨fun key other => ?_, fun key other => ?_, fun key other => ?_⟩
    · exact consistent.events.find_commit_of_ne fun effect claimed => other (event _ claimed)
    · exact consistent.rollups.find_commit_of_ne fun effect claimed => other (rollup _ claimed)
    · exact consistent.quotas.find_commit_of_ne fun effect claimed => other (quota _ claimed)

/-- A tenant sees nothing of a step of another. -/
theorem Consistent.tenantView_of_other (consistent : Consistent s) (other : txn.apiKeyId ≠ tenant)
    (moved : Moved txn s.db (s.calls txn) call db) : db.tenantView tenant = s.db.tenantView tenant := by
  obtain ⟨event, rollup, quota⟩ := (s.calls txn).held_own txn
  have hiddenEvents : ∀ key hold, s.db.events.holds.lookup key = some hold → hold.owner = txn → ¬ key.isOf tenant := by
    rintro key ⟨_, effect⟩ found rfl own
    exact other ((event _ ((consistent.events _ key effect).mp found)).symm.trans (of_decide_eq_true own))
  have hiddenRollups : ∀ key hold, s.db.usageRollup.holds.lookup key = some hold → hold.owner = txn → ¬ key.isOf tenant := by
    rintro key ⟨_, effect⟩ found rfl own
    exact other ((rollup _ ((consistent.rollups _ key effect).mp found)).symm.trans (of_decide_eq_true own))
  have hiddenQuotas : ∀ key hold, s.db.quotas.holds.lookup key = some hold → hold.owner = txn → ¬ key.isOf tenant := by
    rintro key ⟨_, effect⟩ found rfl own
    exact other ((quota _ ((consistent.quotas _ key effect).mp found)).symm.trans (of_decide_eq_true own))
  cases moved with
  | reads => rfl
  | insertsEvent own =>
    have hidden : ¬ EventKey.isOf tenant _ := fun mine => other (own.symm.trans (of_decide_eq_true mine))
    simp only [Database.tenantView, RowTable.view_hold_of_hidden hidden]
  | locksQuota own =>
    have hidden : ¬ QuotaKey.isOf tenant _ := fun mine => other (own.symm.trans (of_decide_eq_true mine))
    simp only [Database.tenantView, RowTable.view_hold_of_hidden hidden]
  | @takesBucket key row =>
    have hidden : ¬ RollupKey.isOf tenant (row.rollupKey txn.apiKeyId) := fun mine => other (of_decide_eq_true mine)
    simp only [Database.tenantView, RowTable.view_hold_of_hidden hidden]
  | commits =>
    simp only [Database.tenantView, Database.commit, RowTable.view_commit_of_hidden hiddenEvents,
      RowTable.view_commit_of_hidden hiddenRollups, RowTable.view_commit_of_hidden hiddenQuotas]
  | rollsBack =>
    simp only [Database.tenantView, Database.rollback, RowTable.view_rollback_of_hidden hiddenEvents,
      RowTable.view_rollback_of_hidden hiddenRollups, RowTable.view_rollback_of_hidden hiddenQuotas]

/-! ## Whole runs -/

/-- The run without the other tenants' calls looks the same to the tenant. -/
theorem Consistent.tenantView_run (consistent : Consistent s) (reached : Machine.run step s schedule = some final) :
    ∃ alone, Machine.run step s (schedule.filter (Action.isOf tenant)) = some alone ∧
      alone.tenantView tenant = final.tenantView tenant := by
  refine Machine.run_induction (motive := fun schedule final => ∃ alone,
    Machine.run step s (schedule.filter (Action.isOf tenant)) = some alone ∧
      alone.tenantView tenant = final.tenantView tenant) s ⟨s, rfl, rfl⟩ ?_ reached
  rintro schedule current a next before ⟨alone, ran, same⟩ steps
  rw [List.filter_append]
  by_cases own : a.isOf tenant
  · have seen := step_tenantView (s := current) own
    rw [← same, ← step_tenantView own, steps, Option.map_some] at seen
    obtain ⟨after, also, sameAfter⟩ := Option.map_eq_some_iff.mp seen.symm
    rw [List.filter_cons_of_pos own, List.filter_nil]
    exact ⟨after, Machine.run_snoc ran also, sameAfter⟩
  · rw [List.filter_cons_of_neg own, List.filter_nil, List.append_nil]
    refine ⟨alone, ran, same.trans ?_⟩
    cases caller : a.caller with
    | none => exact absurd (by rw [Action.isOf, caller]; rfl) own
    | some txn =>
      have other : txn.apiKeyId ≠ tenant := fun mine => own (by rw [Action.isOf, caller]; exact decide_eq_true mine)
      obtain ⟨call, db, moved, rfl⟩ := (stepped_of_step steps).moved_of_caller caller
      have unseen := (consistent.of_run before).tenantView_of_other other moved
      exact (State.tenantView_record_of_other other unseen).symm

/-- Tenants do not interfere. Deleting from a run all calls of the other tenants leaves a run in which the
tenant's calls end as before and its rows are as before, up to the number of an event; and no step of
a call changes a row of another tenant. -/
theorem tenant_noninterference {collation : Collation} {now : Instant} {nextEventId : ℕ} {tables : Tables}
    (reached : Machine.run step (.init (.atRest collation now nextEventId tables)) schedule = some final)
    (tenant : ℕ) :
    (∃ alone, Machine.run step (.init (.atRest collation now nextEventId tables))
        (schedule.filter (Action.isOf tenant)) = some alone ∧
      (∀ txn : CallId, txn.apiKeyId = tenant → (alone.calls txn).forgetId = (final.calls txn).forgetId) ∧
      (∀ key, key.apiKeyId = tenant →
        (alone.db.events.find key).map EventRow.forgetId = (final.db.events.find key).map EventRow.forgetId) ∧
      (∀ key, key.apiKeyId = tenant → alone.db.usageRollup.find key = final.db.usageRollup.find key) ∧
      ∀ key, key.apiKeyId = tenant → alone.db.quotas.find key = final.db.quotas.find key) ∧
    ∀ earlier a later middle next txn, schedule = earlier ++ a :: later → a.caller = some txn → txn.apiKeyId = tenant →
      Machine.run step (.init (.atRest collation now nextEventId tables)) earlier = some middle →
      step middle a = some next →
        (∀ key, key.apiKeyId ≠ tenant → next.db.events.find key = middle.db.events.find key) ∧
        (∀ key, key.apiKeyId ≠ tenant → next.db.usageRollup.find key = middle.db.usageRollup.find key) ∧
        ∀ key, key.apiKeyId ≠ tenant → next.db.quotas.find key = middle.db.quotas.find key := by
  have start := Consistent.init collation now nextEventId tables
  refine ⟨?_, ?_⟩
  · obtain ⟨alone, ran, same⟩ := start.tenantView_run reached
    have sameDb : alone.db.tenantView tenant = final.db.tenantView tenant := congrArg State.db same
    refine ⟨alone, ran, ?_, ?_, ?_, ?_⟩
    · intro txn own
      rw [← State.calls_tenantView own, ← State.calls_tenantView own, same]
    · intro key own
      have kept : key.isOf tenant := decide_eq_true own
      rw [← Database.find_events_tenantView kept, ← Database.find_events_tenantView kept, sameDb]
    · intro key own
      have kept : key.isOf tenant := decide_eq_true own
      calc alone.db.usageRollup.find key
        _ = (alone.db.tenantView tenant).usageRollup.find key := (Database.find_usageRollup_tenantView kept).symm
        _ = (final.db.tenantView tenant).usageRollup.find key := by rw [sameDb]
        _ = final.db.usageRollup.find key := Database.find_usageRollup_tenantView kept
    · intro key own
      have kept : key.isOf tenant := decide_eq_true own
      calc alone.db.quotas.find key
        _ = (alone.db.tenantView tenant).quotas.find key := (Database.find_quotas_tenantView kept).symm
        _ = (final.db.tenantView tenant).quotas.find key := by rw [sameDb]
        _ = final.db.quotas.find key := Database.find_quotas_tenantView kept
  · rintro earlier a later middle next txn - caller rfl before last
    obtain ⟨call, db, moved, rfl⟩ := (stepped_of_step last).moved_of_caller caller
    exact (start.of_run before).find_of_other moved

/-- Two tenants use the same strings; the event of the second is counted among its own rows alone, and
keeps its answer, with another number, when the first is left out. -/
theorem tenant_noninterference_same_strings :
    let event : Request := .createEvent ⟨"c", "m", ⟨5, by decide, by decide⟩, "k"⟩ 0
    let put : Request := .upsertQuota ⟨"c", "m", ⟨1, by decide, by decide⟩⟩
    let schedule := put.steps ⟨1, 0⟩ 3 ++ event.steps ⟨1, 1⟩ 3 ++ event.steps ⟨2, 0⟩ 6
    let start : State := .init (.atRest .codePoint 0 1 (.afterMigration ∅ ∅))
    ∃ final alone, Machine.run step start schedule = some final ∧
      Machine.run step start (schedule.filter (Action.isOf 2)) = some alone ∧
      (alone.calls ⟨2, 0⟩).forgetId = (final.calls ⟨2, 0⟩).forgetId ∧
      final.db.usageRollup.find ⟨1, "c", "m", 0⟩ = none ∧
      alone.db.usageRollup.find ⟨2, "c", "m", 0⟩ = final.db.usageRollup.find ⟨2, "c", "m", 0⟩ ∧
      final.db.usageRollup.find ⟨2, "c", "m", 0⟩ = some ⟨5, 1⟩ := by
  intro event put schedule start
  obtain ⟨final, reached, first, second⟩ : ∃ final, Machine.run step start schedule = some final ∧
      final.db.usageRollup.find ⟨1, "c", "m", 0⟩ = none ∧
      final.db.usageRollup.find ⟨2, "c", "m", 0⟩ = some ⟨5, 1⟩ := ⟨_, rfl, rfl, rfl⟩
  obtain ⟨⟨alone, ran, calls, -, rollups, -⟩, -⟩ := tenant_noninterference reached 2
  exact ⟨final, alone, reached, ran, calls ⟨2, 0⟩ rfl, first, rollups ⟨2, "c", "m", 0⟩ rfl, second⟩

end Meterly
