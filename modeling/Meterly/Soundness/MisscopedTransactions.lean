import Meterly.Soundness.RowSecurityBackstop

/-! # Connections whose code has lost its tenant

The transactions of a pooled connection again, but each may forget to name a tenant, and each statement
may carry the `api_key_id` of any tenant or have lost its filter. The scoped transactions of the
services are among them. With the policies applied, a tenant that is never named keeps its rows and
its locks, and no outcome tells anything of them.
-/

namespace Meterly.Misscoped

/-- An open transaction, with the tenant it named. -/
structure Transaction where
  named : Option ApiKeyId
  number : ℕ
  startedAt : Instant
  current : Option String
  tables : Tables
  locked : List QuotaKey
  failed : Bool

/-- The published tables with what else a statement reads, the value of the setting in the session, the open
transaction, and what every statement came to, with the tenant that its transaction had named. -/
structure State where
  collation : Collation
  now : Instant
  apiKeyIds : Finset ℕ
  nextEventId : ℕ
  tables : Tables
  sessionValue : Option String
  transaction : Option Transaction
  outcomes : List (Option ℕ × Except SqlError ResultSet)

/-- What happens on the connection, and outside it. -/
inductive Action where
  | begin (named : Option ApiKeyId) (number : ℕ)
  | execute (apiKeyId : ℕ) (statement : Statement)
  | commit
  | rollback
  | elsewhere (publishes : Tables → Tables)
  | addApiKey (apiKeyId : ℕ)
  | tick (elapsed : ℕ)

namespace State

/-- A new connection. -/
def connected (collation : Collation) (now : Instant) (apiKeyIds : Finset ℕ) (nextEventId : ℕ) (tables : Tables) : State :=
  ⟨collation, now, apiKeyIds, nextEventId, tables, none, none, []⟩

/-- The database that the statements of a transaction read. -/
def view (s : State) (transaction : Transaction) : Database :=
  .atRest s.collation transaction.startedAt s.nextEventId transaction.tables

/-- The end of a transaction. -/
def close (s : State) (tables : Tables) : State :=
  { s with tables, transaction := none, sessionValue := some (s.sessionValue.getD "") }

/-- Note what a statement has come to. -/
def settle (s : State) (transaction : Transaction) (statement : Statement) (outcome : Except SqlError Executed) : State :=
  { s with
    nextEventId := match statement with
      | .insertEventIfNew _ _ => s.nextEventId + 1
      | _ => s.nextEventId
    transaction := some (match outcome with
      | .ok executed =>
        { transaction with tables := executed.tables, locked := transaction.locked ++ executed.locked }
      | .error _ => { transaction with failed := true })
    outcomes := s.outcomes ++ [(transaction.named.map ApiKeyId.value, outcome.map Executed.result)] }

end State

/-- Execute one action, if it is enabled. -/
def step (control : TenantControl) (s : State) : Action → Option State
  | .begin named number =>
    match s.transaction with
    | none => some { s with transaction := some ⟨named, number, s.now,
        (named.map fun principal => toString principal.value).or s.sessionValue, s.tables, [], false⟩ }
    | some _ => none
  | .execute apiKeyId statement => s.transaction.map fun transaction =>
    if transaction.failed then
      { s with outcomes := s.outcomes ++ [(transaction.named.map ApiKeyId.value, .error .inFailedTransaction)] }
    else
      s.settle transaction statement
        (statement.execute control transaction.current s.apiKeyIds ⟨apiKeyId, transaction.number⟩ (s.view transaction))
  | .commit => s.transaction.map fun transaction =>
    s.close (if transaction.failed then s.tables else transaction.tables)
  | .rollback => s.transaction.map fun _ => s.close s.tables
  | .elsewhere publishes => some { s with
      tables := publishes s.tables
      transaction := s.transaction.map fun transaction =>
        { transaction with tables := publishes transaction.tables } }
  | .addApiKey apiKeyId => some { s with apiKeyIds := insert apiKeyId s.apiKeyIds }
  | .tick elapsed => some { s with now := s.now + elapsed }

/-! ## The transactions of the services are among these -/

/-- A scoped transaction. -/
def ofScoped (transaction : PooledConnection.Transaction) : Transaction :=
  ⟨some transaction.principal, transaction.number, transaction.startedAt, transaction.current, transaction.tables,
    transaction.locked, transaction.failed⟩

/-- A connection of the services. -/
def ofPooled (s : PooledConnection.State) : State where
  collation := s.collation
  now := s.now
  apiKeyIds := s.apiKeyIds
  nextEventId := s.nextEventId
  tables := s.tables
  sessionValue := s.sessionValue
  transaction := s.transaction.map ofScoped
  outcomes := s.outcomes.map fun outcome => (some outcome.1.apiKeyId, outcome.2)

variable {control : TenantControl} {s next final : State} {a : Action} {schedule : List Action}

theorem ofPooled_settle (s : PooledConnection.State) (transaction : PooledConnection.Transaction) (statement : Statement)
    (outcome : Except SqlError Executed) : ofPooled (s.settle transaction statement outcome) =
      (ofPooled s).settle (ofScoped transaction) statement outcome := by
  have outcomes : (ofPooled (s.settle transaction statement outcome)).outcomes =
      ((ofPooled s).settle (ofScoped transaction) statement outcome).outcomes := List.map_append
  cases outcome with
  | error error => exact congrArg (State.mk _ _ _ _ _ _ _) outcomes
  | ok executed => exact congrArg (State.mk _ _ _ _ _ _ _) outcomes

/-- A step of the services' connection is a step here. -/
theorem exists_step_of_pooled {s next : PooledConnection.State} {a : PooledConnection.Action}
    (steps : PooledConnection.step control s a = some next) : ∃ b, step control (ofPooled s) b = some (ofPooled next) := by
  cases a with
  | scopedTransaction principal number =>
    simp only [PooledConnection.step] at steps
    split at steps
    · next closed =>
      obtain rfl := Option.some.inj steps
      refine ⟨.begin (some principal) number, ?_⟩
      simp only [step, ofPooled, closed, Option.map_none]
      rfl
    · contradiction
  | execute statement =>
    obtain ⟨transaction, opened, rfl⟩ := Option.map_eq_some_iff.mp steps
    refine ⟨.execute transaction.principal.value statement, ?_⟩
    have opened' : (ofPooled s).transaction = some (ofScoped transaction) := by simp only [ofPooled, opened, Option.map_some]
    rw [step, opened', Option.map_some]
    by_cases failed : transaction.failed
    · rw [if_pos failed, if_pos (show (ofScoped transaction).failed = true from failed)]
      simp only [ofPooled, List.map_append, opened, Option.map_some]
      rfl
    · rw [if_neg failed, if_neg (show ¬ (ofScoped transaction).failed = true from failed), ofPooled_settle]
      rfl
  | commit =>
    obtain ⟨transaction, opened, rfl⟩ := Option.map_eq_some_iff.mp steps
    refine ⟨.commit, ?_⟩
    simp only [step, ofPooled, opened, Option.map_some]
    rfl
  | rollback =>
    obtain ⟨transaction, opened, rfl⟩ := Option.map_eq_some_iff.mp steps
    refine ⟨.rollback, ?_⟩
    simp only [step, ofPooled, opened, Option.map_some]
    rfl
  | elsewhere publishes =>
    obtain rfl := Option.some.inj steps
    refine ⟨.elsewhere publishes, ?_⟩
    simp only [step, ofPooled, Option.map_map]
    rfl
  | addApiKey apiKeyId =>
    obtain rfl := Option.some.inj steps
    exact ⟨.addApiKey apiKeyId, rfl⟩
  | tick elapsed =>
    obtain rfl := Option.some.inj steps
    exact ⟨.tick elapsed, rfl⟩

/-- So every run of the services' connection is a run here. -/
theorem exists_run_of_pooled {s next : PooledConnection.State} {schedule : List PooledConnection.Action}
    (reached : Machine.run (PooledConnection.step control) s schedule = some next) :
    ∃ shown, Machine.run (step control) (ofPooled s) shown = some (ofPooled next) :=
  Machine.exists_run_of_simulation ofPooled (fun _ _ _ steps => .inr (exists_step_of_pooled steps)) reached

/-! ## Tenants that are never named -/

variable {keep : ℕ → Bool} {source : Tables}

/-- The action names none of the tenants that are kept, and what is published elsewhere leaves their rows alone. -/
def Action.Spares (keep : ℕ → Bool) : Action → Prop
  | .begin named _ => ∀ principal ∈ named, ¬ keep principal.value
  | .elsewhere publishes => ∀ tables : Tables, (publishes tables).ofTenants keep = tables.ofTenants keep
  | _ => True

/-- The open transaction reaches none of the rows that are kept; one that named no tenant reaches none at all. -/
structure Transaction.Confined (keep : ℕ → Bool) (source : Tables) (transaction : Transaction) : Prop where
  unreachable : Unreachable transaction.current keep
  unset : transaction.named = none → Unreachable transaction.current fun _ => true
  rows : transaction.tables.ofTenants keep = source.ofTenants keep
  unlocked : ∀ key ∈ transaction.locked, ¬ keep key.apiKeyId

/-- The rows that are kept are as they were at the source. -/
structure State.Confined (keep : ℕ → Bool) (source : Tables) (s : State) : Prop where
  session : s.sessionValue = none ∨ s.sessionValue = some ""
  rows : s.tables.ofTenants keep = source.ofTenants keep
  transaction : ∀ transaction ∈ s.transaction, transaction.Confined keep source
  outcomes : ∀ result, (none, .ok result) ∈ s.outcomes → result.IsEmpty

namespace State.Confined

theorem close (confined : s.Confined keep source) {tables : Tables} (rows : tables.ofTenants keep = source.ofTenants keep) :
    (s.close tables).Confined keep source where
  session := by
    right
    rcases confined.session with unset | empty
    · simp only [State.close, unset, Option.getD_none]
    · simp only [State.close, empty, Option.getD_some]
  rows := rows
  transaction := fun _ opened => nomatch opened
  outcomes := confined.outcomes

theorem execute (applies : control.appliesPolicy) (confined : s.Confined keep source) {transaction : Transaction}
    (inside : transaction.Confined keep source) (apiKeyId : ℕ) (statement : Statement) :
    (s.settle transaction statement (statement.execute control transaction.current s.apiKeyIds
      ⟨apiKeyId, transaction.number⟩ (s.view transaction))).Confined keep source where
  session := confined.session
  rows := confined.rows
  transaction := by
    rintro after ⟨⟩
    cases executes : statement.execute control transaction.current s.apiKeyIds ⟨apiKeyId, transaction.number⟩
      (s.view transaction) with
    | error error => exact ⟨inside.unreachable, inside.unset, inside.rows, inside.unlocked⟩
    | ok executed =>
      obtain ⟨rows, unlocked⟩ := Statement.ofTenants_execute applies inside.unreachable executes
      exact ⟨inside.unreachable, inside.unset, rows.trans inside.rows, List.forall_mem_append.mpr ⟨inside.unlocked, unlocked⟩⟩
  outcomes := by
    intro result member
    rcases List.mem_append.mp member with before | last
    · exact confined.outcomes result before
    · obtain ⟨unnamed, succeeds⟩ := Prod.mk.inj (List.mem_singleton.mp last)
      cases executes : statement.execute control transaction.current s.apiKeyIds ⟨apiKeyId, transaction.number⟩
        (s.view transaction) with
      | error error =>
        rw [executes] at succeeds
        contradiction
      | ok executed =>
        rw [executes] at succeeds
        obtain rfl := Except.ok.inj succeeds
        exact Statement.isEmpty_execute applies (inside.unset (Option.map_eq_none_iff.mp unnamed.symm)) executes

/-- No action lets the rows that are kept be reached. -/
theorem step (applies : control.appliesPolicy) (confined : s.Confined keep source) (spares : a.Spares keep)
    (steps : Misscoped.step control s a = some next) : next.Confined keep source := by
  cases a with
  | begin named number =>
    simp only [Misscoped.step] at steps
    split at steps
    · obtain rfl := Option.some.inj steps
      refine ⟨confined.session, confined.rows, ?_, confined.outcomes⟩
      rintro transaction ⟨⟩
      cases named with
      | none =>
        exact ⟨unreachable_of_unset confined.session, fun _ => unreachable_of_unset confined.session, confined.rows,
          List.forall_mem_nil _⟩
      | some principal =>
        exact ⟨unreachable_of_principal (spares principal rfl), nofun, confined.rows, List.forall_mem_nil _⟩
    · contradiction
  | execute apiKeyId statement =>
    obtain ⟨transaction, opened, rfl⟩ := Option.map_eq_some_iff.mp steps
    split_ifs with failed
    · refine ⟨confined.session, confined.rows, confined.transaction, fun result member => ?_⟩
      rcases List.mem_append.mp member with before | last
      · exact confined.outcomes result before
      · exact nomatch (Prod.mk.inj (List.mem_singleton.mp last)).2
    · exact confined.execute applies (confined.transaction transaction opened) apiKeyId statement
  | commit =>
    obtain ⟨transaction, opened, rfl⟩ := Option.map_eq_some_iff.mp steps
    apply confined.close
    split_ifs
    · exact confined.rows
    · exact (confined.transaction transaction opened).rows
  | rollback =>
    obtain ⟨transaction, opened, rfl⟩ := Option.map_eq_some_iff.mp steps
    exact confined.close confined.rows
  | elsewhere publishes =>
    obtain rfl := Option.some.inj steps
    refine ⟨confined.session, (spares _).trans confined.rows, ?_, confined.outcomes⟩
    intro after opened
    obtain ⟨transaction, before, rfl⟩ := Option.map_eq_some_iff.mp opened
    have inside := confined.transaction transaction before
    exact ⟨inside.unreachable, inside.unset, (spares _).trans inside.rows, inside.unlocked⟩
  | addApiKey | tick =>
    obtain rfl := Option.some.inj steps
    exact ⟨confined.session, confined.rows, confined.transaction, confined.outcomes⟩

end State.Confined

variable {collation : Collation} {now : Instant} {apiKeyIds : Finset ℕ} {nextEventId : ℕ}

/-- With the policies applied, and whatever `api_key_id` the statements carry or miss, the tenants that no
transaction names keep their rows in all three tables, in the open transaction and out of it, and none of their
quotas is locked; and what a transaction that names no tenant reads is empty or an error. -/
theorem row_security_keeps_unnamed_tenants (applies : control.appliesPolicy) (spares : ∀ a ∈ schedule, a.Spares keep)
    (reached : Machine.run (step control) (.connected collation now apiKeyIds nextEventId source) schedule = some final) :
    final.tables.ofTenants keep = source.ofTenants keep ∧
    (∀ transaction ∈ final.transaction, transaction.tables.ofTenants keep = source.ofTenants keep ∧
      ∀ key ∈ transaction.locked, ¬ keep key.apiKeyId) ∧
    ∀ result, (none, .ok result) ∈ final.outcomes → result.IsEmpty := by
  have confined : final.Confined keep source := by
    revert spares
    refine Machine.run_induction (motive := fun schedule s => (∀ a ∈ schedule, a.Spares keep) → s.Confined keep source) _
      (fun _ => ⟨.inl rfl, rfl, nofun, nofun⟩) ?_ reached
    intro schedule s a next before ih steps spares
    obtain ⟨earlier, last⟩ := List.forall_mem_append.mp spares
    exact (ih earlier).step applies (last a (List.mem_singleton.mpr rfl)) steps
  exact ⟨confined.rows, fun transaction opened =>
    ⟨(confined.transaction transaction opened).rows, (confined.transaction transaction opened).unlocked⟩, confined.outcomes⟩

/-- A transaction of tenant 8 that deletes a quota without the filter, and one that names nobody: the quota of
tenant 7 under the same customer and metric stays. -/
theorem row_security_keeps_unnamed_tenants_lost_filter :
    let quota : QuotaRow := ⟨⟨5, by decide, by decide⟩, none⟩
    let source : Tables := ⟨∅, ∅, AList.insert ⟨7, "c", "m"⟩ quota (AList.insert ⟨8, "c", "m"⟩ quota ∅)⟩
    let schedule : List Action := [.begin (some ⟨8, by decide⟩) 0, .execute 8 (.deleteQuota "c" "m"), .commit,
      .begin none 1, .execute 7 (.upsertQuota "c" "m" ⟨9, by decide, by decide⟩), .commit]
    ∃ final, Machine.run (step .rowSecurity) (.connected .codePoint 0 {7, 8} 1 source) schedule = some final ∧
      final.tables.quotas.lookup ⟨7, "c", "m"⟩ = some quota := by
  intro quota source schedule
  obtain ⟨final, reached⟩ := Option.isSome_iff_exists.mp (show (Machine.run (step .rowSecurity)
    (.connected .codePoint 0 {7, 8} 1 source) schedule).isSome from rfl)
  refine ⟨final, reached, ?_⟩
  have spares : ∀ a ∈ schedule, a.Spares fun apiKeyId => apiKeyId = 7 := by
    intro a member
    simp only [schedule, List.mem_cons, List.not_mem_nil, or_false] at member
    rcases member with rfl | rfl | rfl | rfl | rfl | rfl <;> simp [Action.Spares]
  obtain ⟨rows, -⟩ := row_security_keeps_unnamed_tenants rfl spares reached
  have shown := congrArg (fun tables : Tables => tables.quotas.lookup ⟨7, "c", "m"⟩) rows
  simpa [Tables.ofTenants, AList.lookup_view, source] using shown

/-! ## What other tenants can tell -/

/-- What shows of the rows of the tenants that are kept. -/
def State.ofTenants (keep : ℕ → Bool) (s : State) : State :=
  { s with
    tables := s.tables.ofTenants keep
    transaction := s.transaction.map fun transaction => { transaction with tables := transaction.tables.ofTenants keep } }

/-- The action names a tenant that is kept, and what is published elsewhere for these depends on their rows. -/
def Action.Within (keep : ℕ → Bool) : Action → Prop
  | .begin named _ => ∃ principal ∈ named, keep principal.value
  | .elsewhere publishes => ∀ tables other : Tables, tables.ofTenants keep = other.ofTenants keep →
      (publishes tables).ofTenants keep = (publishes other).ofTenants keep
  | _ => True

/-- The open transaction has the setting of a tenant that is kept. -/
def State.NamesKept (keep : ℕ → Bool) (s : State) : Prop :=
  ∀ transaction ∈ s.transaction, ∃ principal : ApiKeyId,
    transaction.current = some (toString principal.value) ∧ keep principal.value

theorem State.NamesKept.step (names : s.NamesKept keep) (within : a.Within keep)
    (steps : Misscoped.step control s a = some next) : next.NamesKept keep := by
  cases a with
  | begin named number =>
    simp only [Misscoped.step] at steps
    split at steps
    · obtain rfl := Option.some.inj steps
      obtain ⟨principal, rfl, kept⟩ := within
      rintro transaction ⟨⟩
      exact ⟨principal, rfl, kept⟩
    · contradiction
  | execute apiKeyId statement =>
    obtain ⟨transaction, opened, rfl⟩ := Option.map_eq_some_iff.mp steps
    have named := names transaction opened
    split_ifs with failed
    · exact names
    · rintro after ⟨⟩
      cases statement.execute control transaction.current s.apiKeyIds ⟨apiKeyId, transaction.number⟩ (s.view transaction) <;>
        exact named
  | commit | rollback =>
    obtain ⟨transaction, opened, rfl⟩ := Option.map_eq_some_iff.mp steps
    exact fun _ opened => nomatch opened
  | elsewhere publishes =>
    obtain rfl := Option.some.inj steps
    intro after opened
    obtain ⟨transaction, before, rfl⟩ := Option.map_eq_some_iff.mp opened
    exact names transaction before
  | addApiKey | tick =>
    obtain rfl := Option.some.inj steps
    exact names

/-- The open transactions show the same. -/
private theorem transaction_agree {transaction other : Option Transaction}
    (same : transaction.map (fun transaction => { transaction with tables := transaction.tables.ofTenants keep }) =
      other.map fun transaction => { transaction with tables := transaction.tables.ofTenants keep }) :
    (transaction = none ∧ other = none) ∨ ∃ named number startedAt current tables tables' locked failed,
      transaction = some ⟨named, number, startedAt, current, tables, locked, failed⟩ ∧
      other = some ⟨named, number, startedAt, current, tables', locked, failed⟩ ∧
      tables.ofTenants keep = tables'.ofTenants keep := by
  cases transaction with
  | none =>
    cases other with
    | none => exact .inl ⟨rfl, rfl⟩
    | some other => contradiction
  | some transaction =>
    cases other with
    | none => contradiction
    | some other =>
      obtain ⟨named, number, startedAt, current, tables, locked, failed⟩ := transaction
      obtain ⟨named', number', startedAt', current', tables', locked', failed'⟩ := other
      simp only [Option.map_some, Option.some.injEq, Transaction.mk.injEq] at same
      obtain ⟨rfl, rfl, rfl, rfl, rows, rfl, rfl⟩ := same
      exact .inr ⟨_, _, _, _, _, _, _, _, rfl, rfl, rows⟩

/-- A step shows the same on states that show the same. -/
theorem ofTenants_step (applies : control.appliesPolicy) {t : State} (a : Action) (names : s.NamesKept keep)
    (within : a.Within keep) (same : s.ofTenants keep = t.ofTenants keep) :
    (step control s a).map (State.ofTenants keep) = (step control t a).map (State.ofTenants keep) := by
  obtain ⟨collation, now, apiKeyIds, nextEventId, tables, sessionValue, transaction, outcomes⟩ := s
  obtain ⟨collation', now', apiKeyIds', nextEventId', tables', sessionValue', transaction', outcomes'⟩ := t
  simp only [State.ofTenants, State.mk.injEq] at same
  obtain ⟨rfl, rfl, rfl, rfl, rows, rfl, opened, rfl⟩ := same
  rcases transaction_agree opened with ⟨rfl, rfl⟩ | ⟨named, number, startedAt, current, seen, seen', locked, failed, rfl,
    rfl, inside⟩
  · cases a with
    | begin named number =>
      simp only [step, State.ofTenants, Option.map_some, rows]
    | execute | commit | rollback => rfl
    | elsewhere publishes => simp only [step, State.ofTenants, Option.map_some, Option.map_none, within _ _ rows]
    | addApiKey | tick => simp only [step, State.ofTenants, Option.map_some, Option.map_none, rows]
  · cases a with
    | begin => rfl
    | execute apiKeyId statement =>
      obtain ⟨principal, setting, kept⟩ := names _ rfl
      obtain rfl : current = some (toString principal.value) := setting
      cases failed with
      | true => simp only [step, State.ofTenants, Option.map_some, if_true, rows, inside]
      | false =>
        have outcome : (statement.execute control (some (toString principal.value)) apiKeyIds ⟨apiKeyId, number⟩
            (.atRest collation startedAt nextEventId seen)).map (Executed.ofTenants keep) =
          (statement.execute control (some (toString principal.value)) apiKeyIds ⟨apiKeyId, number⟩
            (.atRest collation startedAt nextEventId seen')).map (Executed.ofTenants keep) :=
          statement.execute_agree applies kept inside
        simp only [step, Option.map_some, Bool.false_eq_true, if_false, State.view]
        rcases Except.cases_of_map_eq outcome with ⟨error, here, there⟩ | ⟨executed, executed', here, there, shown⟩
        · simp only [here, there, State.settle, State.ofTenants, Option.map_some, rows, inside]
        · obtain ⟨result, newlyLocked, after⟩ := executed
          obtain ⟨result', newlyLocked', after'⟩ := executed'
          obtain ⟨rfl, rfl, shown⟩ := Executed.mk.inj shown
          simp only [here, there, State.settle, State.ofTenants, Option.map_some, rows, shown, Except.map]
    | commit => simp only [step, State.close, State.ofTenants, Option.map_some, Option.map_none, apply_ite (Tables.ofTenants keep), rows, inside]
    | rollback => simp only [step, State.close, State.ofTenants, Option.map_some, Option.map_none, rows]
    | elsewhere publishes => simp only [step, State.ofTenants, Option.map_some, within _ _ rows, within _ _ inside]
    | addApiKey | tick => simp only [step, State.ofTenants, Option.map_some, rows, inside]

/-- With the policies applied, and whatever `api_key_id` the statements carry or miss, what transactions of other
tenants can tell does not depend on the rows of a tenant that they do not name: over tables that differ in
nothing else, every statement returns the same rows or raises the same error. -/
theorem row_security_hides_unnamed_tenants (applies : control.appliesPolicy) (within : ∀ a ∈ schedule, a.Within keep)
    {other : Tables} (same : source.ofTenants keep = other.ofTenants keep) :
    (Machine.run (step control) (.connected collation now apiKeyIds nextEventId source) schedule).map
        (fun final => (final.outcomes, final.tables.ofTenants keep)) =
      (Machine.run (step control) (.connected collation now apiKeyIds nextEventId other) schedule).map
        fun final => (final.outcomes, final.tables.ofTenants keep) := by
  have shown : (Machine.run (step control) (.connected collation now apiKeyIds nextEventId source) schedule).map
        (State.ofTenants keep) =
      (Machine.run (step control) (.connected collation now apiKeyIds nextEventId other) schedule).map
        (State.ofTenants keep) :=
    Machine.run_map_congr (motive := State.NamesKept keep) _
      (fun s t a names _ within same => ofTenants_step applies a names within same)
      (fun s a t names within steps => names.step within steps) (fun _ opened => absurd opened (Option.not_mem_none _))
      (fun _ opened => absurd opened (Option.not_mem_none _))
      (by simp only [State.ofTenants, State.connected, same, Option.map_none]) within
  have seen := congrArg (Option.map fun s : State => (s.outcomes, s.tables)) shown
  rw [Option.map_map, Option.map_map] at seen
  exact seen

/-- Tenant 8 lists quotas without the filter, and under the id of tenant 7: whether 7 has a quota does not show. -/
theorem row_security_hides_unnamed_tenants_lost_filter :
    let quota : QuotaRow := ⟨⟨5, by decide, by decide⟩, none⟩
    let source : Tables := ⟨∅, ∅, AList.insert ⟨7, "c", "m"⟩ quota (AList.insert ⟨8, "c", "m"⟩ quota ∅)⟩
    let other : Tables := ⟨∅, ∅, AList.insert ⟨8, "c", "m"⟩ quota ∅⟩
    let alone (number : ℕ) (a : Action) : List Action := [.begin (some ⟨8, by decide⟩) number, a, .commit]
    let schedule : List Action := alone 0 (.execute 8 .listQuotas) ++ alone 1 (.execute 7 (.lockQuota "c" "m")) ++
      alone 2 (.execute 7 (.insertEventIfNew ⟨"c", "m", ⟨5, by decide, by decide⟩, "once"⟩ 0))
    (Machine.run (step .rowSecurity) (.connected .codePoint 0 {7, 8} 1 source) schedule).isSome ∧
      (Machine.run (step .rowSecurity) (.connected .codePoint 0 {7, 8} 1 source) schedule).map State.outcomes =
        (Machine.run (step .rowSecurity) (.connected .codePoint 0 {7, 8} 1 other) schedule).map State.outcomes := by
  intro quota source other alone schedule
  refine ⟨rfl, ?_⟩
  have within : ∀ a ∈ schedule, a.Within fun apiKeyId => apiKeyId ≠ 7 := by
    intro a member
    simp only [schedule, alone, List.mem_append, List.mem_cons, List.not_mem_nil, or_false] at member
    rcases member with ((rfl | rfl | rfl) | rfl | rfl | rfl) | rfl | rfl | rfl <;> simp [Action.Within]
  have same : source.ofTenants (fun apiKeyId => apiKeyId ≠ 7) = other.ofTenants fun apiKeyId => apiKeyId ≠ 7 := by
    simp only [Tables.ofTenants, source, other]
    rw [AList.view_insert_of_hidden (by decide)]
  have shown : (Machine.run (step .rowSecurity) (.connected .codePoint 0 {7, 8} 1 source) schedule).map
        (fun final => (final.outcomes, final.tables.ofTenants fun apiKeyId => apiKeyId ≠ 7)) =
      (Machine.run (step .rowSecurity) (.connected .codePoint 0 {7, 8} 1 other) schedule).map
        fun final => (final.outcomes, final.tables.ofTenants fun apiKeyId => apiKeyId ≠ 7) :=
    row_security_hides_unnamed_tenants rfl within same
  have outcomes := congrArg (Option.map Prod.fst) shown
  rw [Option.map_map, Option.map_map] at outcomes
  exact outcomes

end Meterly.Misscoped
