import Meterly.Soundness.Held

/-! # The holds of the tables are those of the calls

In every reachable state the three tables are held by exactly the calls that say so, a pending
event has a key that no published event has, and a pending bucket is the published one with the
pending event added. A held row cannot change under its holder, so the last two survive every
commit by another call.
-/

namespace Meterly

variable {s next : State} {a : Action} {txn other : CallId} {call : Call} {db : Database}

theorem Call.held_interrupt (call : Call) : call.interrupt.held txn = .none := by
  cases call <;> rfl

theorem Request.held_call (request : Request) : request.call.held txn = .none := by
  cases request <;> rfl

/-- An action of a call moves that call, in one of the six ways. -/
theorem Stepped.moved_of_caller (steps : Stepped s a next) (caller : a.caller = some txn) :
    ∃ call db, Moved txn s.db (s.calls txn) call db ∧ next = s.record txn call db := by
  cases steps with
  | @start mover request idle =>
    obtain rfl := Option.some.inj caller
    exact ⟨_, _, .reads s.db.nextEventId (by rw [idle]; exact request.held_call), rfl⟩
  | advance moves =>
    obtain rfl := Option.some.inj caller
    exact ⟨_, _, .of_advanced moves, rfl⟩
  | interrupt running =>
    obtain rfl := Option.some.inj caller
    exact ⟨_, _, .rollsBack (Call.held_interrupt _), rfl⟩
  | tick => contradiction

/-- Every action is the clock's or moves one call. -/
theorem Stepped.moved (steps : Stepped s a next) :
    (∃ elapsed : ℕ, next = { s with db := { s.db with now := s.db.now + elapsed } }) ∨
      ∃ txn call db, a.caller = some txn ∧ Moved txn s.db (s.calls txn) call db ∧ next = s.record txn call db := by
  cases caller : a.caller with
  | none =>
    cases steps with
    | tick => exact .inl ⟨_, rfl⟩
    | start | advance | interrupt => contradiction
  | some txn =>
    obtain ⟨call, db, moved, same⟩ := steps.moved_of_caller caller
    exact .inr ⟨txn, call, db, rfl, moved, same⟩

/-- The text order is that of the database throughout. -/
theorem Stepped.collation (steps : Stepped s a next) : next.db.collation = s.db.collation := by
  rcases steps.moved with ⟨elapsed, rfl⟩ | ⟨txn, call, db, -, moved, rfl⟩
  · rfl
  · cases moved <;> rfl

theorem collation_run {schedule : List Action} (reached : Machine.run step s schedule = some next) :
    next.db.collation = s.db.collation :=
  Machine.run_invariant (motive := fun current => current.db.collation = s.db.collation) rfl
    (fun _ _ _ same steps => (stepped_of_step steps).collation.trans same) reached

namespace State

/-- What each call holds. -/
def held (s : State) (txn : CallId) : Held := (s.calls txn).held txn

@[simp] theorem db_record : (s.record txn call db).db = db := rfl

@[simp] theorem calls_record_self : (s.record txn call db).calls txn = call := Function.update_self ..

theorem calls_record_of_ne (differs : other ≠ txn) : (s.record txn call db).calls other = s.calls other :=
  Function.update_of_ne differs ..

theorem held_record : (s.record txn call db).held = Function.update s.held txn (call.held txn) := by
  funext other
  by_cases same : other = txn
  · subst other
    rw [held, calls_record_self, Function.update_self]
  · rw [held, calls_record_of_ne same, Function.update_of_ne same, held]

theorem held_init (db : Database) (txn : CallId) : (init db).held txn = .none := rfl

end State

/-- A pending event is a whole new row. -/
theorem Call.event_held {key : EventKey} {effect : Effect EventRow}
    (holds : (call.held txn).event = some (key, effect)) : ∃ row, effect = .write row := by
  cases call with
  | createEvent payload receivedAt phase =>
    cases phase with
    | inserted row | lockingQuota row version | quotaLocked row limit | incremented row quotaState rollup =>
      exact ⟨row, (congrArg Prod.snd (Option.some.inj holds)).symm⟩
    | judging row quotaState =>
      cases quotaState <;> exact ⟨row, (congrArg Prod.snd (Option.some.inj holds)).symm⟩
    | received | begun | inserting | conflicted | replayed | answered => contradiction
  | upsertQuota payload phase => cases phase <;> contradiction
  | deleteQuota params phase =>
    cases phase with
    | removed found => cases found <;> contradiction
    | received | begun | deleting | answered => contradiction
  | idle | listQuotas | getUsage | getDailyUsage | exportUsage => contradiction

/-- The tables are held by the calls that say so, and what is pending extends what is published. -/
structure Consistent (s : State) : Prop where
  events : s.db.events.Agrees (Held.event ∘ s.held)
  rollups : s.db.usageRollup.Agrees (Held.rollup ∘ s.held)
  quotas : s.db.quotas.Agrees (Held.quota ∘ s.held)
  fresh : ∀ txn key effect, (s.held txn).event = some (key, effect) → s.db.events.find key = none
  bumped : ∀ txn key effect, (s.held txn).rollup = some (key, effect) → ∃ eventKey row,
    (s.held txn).event = some (eventKey, .write row) ∧ eventKey.apiKeyId = txn.apiKeyId ∧
      key = row.rollupKey txn.apiKeyId ∧ effect = .write (Database.bump (s.db.usageRollup.find key) row.quantity)
  continues : ∀ txn key effect, (s.held txn).quota = some (key, effect) →
    ContinuesQuota txn (s.db.quotas.find key) effect

namespace Consistent

theorem init (collation : Collation) (now : Instant) (nextEventId : ℕ) (tables : Tables) :
    Consistent (.init (.atRest collation now nextEventId tables)) where
  events := .ofRows _ fun _ => rfl
  rollups := .ofRows _ fun _ => rfl
  quotas := .ofRows _ fun _ => rfl
  fresh := by
    intro txn key effect holds
    rw [State.held_init] at holds
    contradiction
  bumped := by
    intro txn key effect holds
    rw [State.held_init] at holds
    contradiction
  continues := by
    intro txn key effect holds
    rw [State.held_init] at holds
    contradiction

/-- A table that the step leaves alone stays held as before when the call's part does. -/
private theorem agrees_of_same {Key Row : Type} [DecidableEq Key] {table : RowTable CallId Key Row}
    {part : Held → Option (Key × Effect Row)} (agrees : table.Agrees (part ∘ s.held))
    (same : part (call.held txn) = part (s.held txn)) : table.Agrees (part ∘ (s.record txn call db).held) := by
  rw [State.held_record, Function.comp_update, same]
  exact (Function.update_eq_self txn (part ∘ s.held)).symm ▸ agrees

private theorem agrees_of_hold {Key Row : Type} [DecidableEq Key] {table : RowTable CallId Key Row}
    {part : Held → Option (Key × Effect Row)} (agrees : table.Agrees (part ∘ s.held)) {key : Key}
    {effect : Effect Row} (free : table.Free txn key) (unheld : part (s.held txn) = none)
    (holds : part (call.held txn) = some (key, effect)) :
    (table.hold txn key effect).Agrees (part ∘ (s.record txn call db).held) := by
  rw [State.held_record, Function.comp_update, holds]
  exact agrees.hold free unheld effect

private theorem agrees_of_commit {Key Row : Type} [DecidableEq Key] {table : RowTable CallId Key Row}
    {part : Held → Option (Key × Effect Row)} (agrees : table.Agrees (part ∘ s.held))
    (released : part (call.held txn) = none) :
    (table.commit txn).Agrees (part ∘ (s.record txn call db).held) := by
  rw [State.held_record, Function.comp_update, released]
  exact agrees.commit txn

private theorem agrees_of_rollback {Key Row : Type} [DecidableEq Key] {table : RowTable CallId Key Row}
    {part : Held → Option (Key × Effect Row)} (agrees : table.Agrees (part ∘ s.held))
    (released : part (call.held txn) = none) :
    (table.rollback txn).Agrees (part ∘ (s.record txn call db).held) := by
  rw [State.held_record, Function.comp_update, released]
  exact agrees.rollback txn

theorem held_record_self : (s.record txn call db).held txn = call.held txn := by
  rw [State.held_record, Function.update_self]

theorem held_record_of_ne (differs : other ≠ txn) : (s.record txn call db).held other = s.held other := by
  rw [State.held_record, Function.update_of_ne differs]

/-- The holds follow every move of a call. -/
private theorem record_agrees (consistent : Consistent s) (moved : Moved txn s.db (s.calls txn) call db) :
    db.events.Agrees (Held.event ∘ (s.record txn call db).held) ∧
      db.usageRollup.Agrees (Held.rollup ∘ (s.record txn call db).held) ∧
      db.quotas.Agrees (Held.quota ∘ (s.record txn call db).held) := by
  obtain ⟨events, rollups, quotas, -, -, -⟩ := consistent
  cases moved with
  | reads nextEventId same =>
    exact ⟨agrees_of_same events (congrArg Held.event same), agrees_of_same rollups (congrArg Held.rollup same),
      agrees_of_same quotas (congrArg Held.quota same)⟩
  | insertsEvent own free fresh empty holds =>
    change s.held txn = .none at empty
    refine ⟨agrees_of_hold events free (by rw [empty]; rfl) (by rw [holds]), agrees_of_same rollups ?_,
      agrees_of_same quotas ?_⟩
    · rw [holds, empty]
    · rw [holds, empty]
  | locksQuota own free continues unlocked holds =>
    exact ⟨agrees_of_same events (by rw [holds]; rfl), agrees_of_same rollups (by rw [holds]; rfl),
      agrees_of_hold quotas free unlocked (by rw [holds])⟩
  | takesBucket own free inserted untaken holds =>
    exact ⟨agrees_of_same events (by rw [holds]; rfl), agrees_of_hold rollups free untaken (by rw [holds]),
      agrees_of_same quotas (by rw [holds]; rfl)⟩
  | commits released whole =>
    exact ⟨agrees_of_commit events (by rw [released]; rfl), agrees_of_commit rollups (by rw [released]; rfl),
      agrees_of_commit quotas (by rw [released]; rfl)⟩
  | rollsBack released =>
    exact ⟨agrees_of_rollback events (by rw [released]; rfl), agrees_of_rollback rollups (by rw [released]; rfl),
      agrees_of_rollback quotas (by rw [released]; rfl)⟩

/-- A row that another call holds stays as it is published. -/
theorem event_find_of_held (consistent : Consistent s) (moved : Moved txn s.db (s.calls txn) call db)
    (differs : other ≠ txn) {key : EventKey} {effect : Effect EventRow}
    (holds : (s.held other).event = some (key, effect)) : db.events.find key = s.db.events.find key := by
  cases moved with
  | commits released whole => exact consistent.events.find_commit_of_claimed holds differs.symm
  | reads | insertsEvent | locksQuota | takesBucket | rollsBack => rfl

@[inherit_doc event_find_of_held]
theorem rollup_find_of_held (consistent : Consistent s) (moved : Moved txn s.db (s.calls txn) call db)
    (differs : other ≠ txn) {key : RollupKey} {effect : Effect RollupRow}
    (holds : (s.held other).rollup = some (key, effect)) :
    db.usageRollup.find key = s.db.usageRollup.find key := by
  cases moved with
  | commits released whole => exact consistent.rollups.find_commit_of_claimed holds differs.symm
  | reads | insertsEvent | locksQuota | takesBucket | rollsBack => rfl

@[inherit_doc event_find_of_held]
theorem quota_find_of_held (consistent : Consistent s) (moved : Moved txn s.db (s.calls txn) call db)
    (differs : other ≠ txn) {key : QuotaKey} {effect : Effect QuotaRow}
    (holds : (s.held other).quota = some (key, effect)) : db.quotas.find key = s.db.quotas.find key := by
  cases moved with
  | commits released whole => exact consistent.quotas.find_commit_of_claimed holds differs.symm
  | reads | insertsEvent | locksQuota | takesBucket | rollsBack => rfl

private theorem fresh_record (consistent : Consistent s) (moved : Moved txn s.db (s.calls txn) call db)
    {key : EventKey} {effect : Effect EventRow}
    (holds : (call.held txn).event = some (key, effect)) : db.events.find key = none := by
  cases moved with
  | reads nextEventId same => exact consistent.fresh txn key effect (by rwa [same] at holds)
  | insertsEvent own free fresh empty now =>
    rw [now, Option.some.injEq, Prod.mk.injEq] at holds
    obtain ⟨rfl, -⟩ := holds
    exact fresh
  | locksQuota own free continues unlocked now => exact consistent.fresh txn key effect (by rwa [now] at holds)
  | takesBucket own free inserted untaken now => exact consistent.fresh txn key effect (by rwa [now] at holds)
  | commits released whole => rw [released] at holds; contradiction
  | rollsBack released => rw [released] at holds; contradiction

private theorem bumped_record (consistent : Consistent s) (moved : Moved txn s.db (s.calls txn) call db)
    {key : RollupKey} {effect : Effect RollupRow} (holds : (call.held txn).rollup = some (key, effect)) :
    ∃ eventKey row, (call.held txn).event = some (eventKey, .write row) ∧ eventKey.apiKeyId = txn.apiKeyId ∧
      key = row.rollupKey txn.apiKeyId ∧
      effect = .write (Database.bump (db.usageRollup.find key) row.quantity) := by
  cases moved with
  | reads nextEventId same =>
    rw [same] at holds ⊢
    exact consistent.bumped txn key effect holds
  | insertsEvent own free fresh empty now => rw [now] at holds; contradiction
  | locksQuota own free continues unlocked now =>
    rw [now] at holds ⊢
    exact consistent.bumped txn key effect holds
  | takesBucket own free inserted untaken now =>
    rw [now, Option.some.injEq, Prod.mk.injEq] at holds
    obtain ⟨rfl, rfl⟩ := holds
    exact ⟨_, _, by rw [now]; exact inserted, own, rfl, rfl⟩
  | commits released whole => rw [released] at holds; contradiction
  | rollsBack released => rw [released] at holds; contradiction

private theorem continues_record (consistent : Consistent s) (moved : Moved txn s.db (s.calls txn) call db)
    {key : QuotaKey} {effect : Effect QuotaRow} (holds : (call.held txn).quota = some (key, effect)) :
    ContinuesQuota txn (db.quotas.find key) effect := by
  cases moved with
  | reads nextEventId same => exact consistent.continues txn key effect (by rwa [same] at holds)
  | insertsEvent own free fresh empty now => rw [now] at holds; contradiction
  | locksQuota own free continues unlocked now =>
    rw [now, Option.some.injEq, Prod.mk.injEq] at holds
    obtain ⟨rfl, rfl⟩ := holds
    exact continues
  | takesBucket own free inserted untaken now => exact consistent.continues txn key effect (by rwa [now] at holds)
  | commits released whole => rw [released] at holds; contradiction
  | rollsBack released => rw [released] at holds; contradiction

/-- Every move of a call keeps the tables consistent. -/
theorem record (consistent : Consistent s) (moved : Moved txn s.db (s.calls txn) call db) :
    Consistent (s.record txn call db) := by
  obtain ⟨events, rollups, quotas⟩ := consistent.record_agrees moved
  refine ⟨events, rollups, quotas, ?_, ?_, ?_⟩
  · intro other key effect holds
    by_cases same : other = txn
    · subst other
      rw [held_record_self] at holds
      exact consistent.fresh_record moved holds
    · rw [held_record_of_ne same] at holds
      exact (consistent.event_find_of_held moved same holds).trans (consistent.fresh other key effect holds)
  · intro other key effect holds
    by_cases same : other = txn
    · subst other
      rw [held_record_self] at holds ⊢
      exact consistent.bumped_record moved holds
    · rw [held_record_of_ne same] at holds ⊢
      rw [State.db_record, consistent.rollup_find_of_held moved same holds]
      exact consistent.bumped other key effect holds
  · intro other key effect holds
    by_cases same : other = txn
    · subst other
      rw [held_record_self] at holds
      exact consistent.continues_record moved holds
    · rw [held_record_of_ne same] at holds
      rw [State.db_record, consistent.quota_find_of_held moved same holds]
      exact consistent.continues other key effect holds

theorem stepped (consistent : Consistent s) (steps : Stepped s a next) : Consistent next := by
  rcases steps.moved with ⟨elapsed, rfl⟩ | ⟨txn, call, db, -, moved, rfl⟩
  · exact ⟨consistent.events, consistent.rollups, consistent.quotas, consistent.fresh, consistent.bumped,
      consistent.continues⟩
  · exact consistent.record moved

/-- A published quota row changes only by the commit of a call that holds it. -/
theorem quota_find_commit (consistent : Consistent s) (txn : CallId) (key : QuotaKey) :
    (s.db.quotas.commit txn).find key = s.db.quotas.find key ∨ ∃ effect,
      (s.held txn).quota = some (key, effect) ∧
        (s.db.quotas.commit txn).find key = effect.result (s.db.quotas.find key) := by
  by_cases claimed : ∃ effect, (s.held txn).quota = some (key, effect)
  · obtain ⟨effect, claimed⟩ := claimed
    exact .inr ⟨effect, claimed, consistent.quotas.find_commit claimed⟩
  · exact .inl (consistent.quotas.find_commit_of_ne fun effect holds => claimed ⟨effect, holds⟩)

/-- A quota row stays one version chain until it is deleted. -/
theorem quota_version_step (consistent : Consistent s) (steps : Stepped s a next) {key : QuotaKey}
    {row : QuotaRow} (found : s.db.quotas.find key = some row) :
    next.db.quotas.find key = none ∨
      ∃ after, next.db.quotas.find key = some after ∧ after.insertedBy = row.insertedBy := by
  rcases steps.moved with ⟨elapsed, rfl⟩ | ⟨txn, call, db, -, moved, rfl⟩
  · exact .inr ⟨row, found, rfl⟩
  · cases moved with
    | reads | insertsEvent | locksQuota | takesBucket | rollsBack => exact .inr ⟨row, found, rfl⟩
    | commits released whole =>
      rcases consistent.quota_find_commit txn key with same | ⟨effect, holds, published⟩
      · exact .inr ⟨row, same.trans found, rfl⟩
      · have continues := consistent.continues txn key effect holds
        rw [found] at published continues
        cases effect with
        | keep => exact .inr ⟨row, published, rfl⟩
        | write after => exact .inr ⟨after, published, continues⟩
        | erase => exact .inl published

/-- Every reachable state is consistent. -/
theorem of_run {schedule : List Action} (consistent : Consistent s)
    (reached : Machine.run step s schedule = some next) : Consistent next :=
  Machine.run_invariant consistent (fun _ _ _ valid steps => valid.stepped (stepped_of_step steps)) reached

end Consistent

end Meterly
