import Meterly.Model.Ledger
import Meterly.Soundness.DailyLog
import Meterly.Soundness.ExportFilter

/-! # Effects on the ledger

A query of the tables is a query of the ledger that they hold: the rollup is the log, and no listing
depends on the order in which rows are kept. The commit that answers an accepted event, a stored
limit or a removal is the step that changes the ledger, and the ledger would have served it; every
other step of any call leaves the ledger as it is.
-/

namespace Meterly

variable {s next final : State} {a : Action} {txn : CallId} {call : Call} {db : Database} {schedule : List Action}
  {collation : Collation}

/-! ## Reading the ledger and reading the tables -/

/-- Nothing is hidden. -/
@[simp] theorem AList.entries_view_all {Key Row Part : Type} (forget : Row → Part) (rows : Rows Key Row) :
    (rows.view (fun _ => true) forget).entries = rows.entries.map fun entry => ⟨entry.1, forget entry.2⟩ := by
  rw [AList.entries_view, AList.viewEntries, List.filter_true]

theorem AList.lookup_view_all {Key Row Part : Type} [DecidableEq Key] (forget : Row → Part) (rows : Rows Key Row)
    (key : Key) : (rows.view (fun _ => true) forget).lookup key = (rows.lookup key).map forget :=
  AList.lookup_view rfl

/-- The buckets of the log do not depend on when its transactions began. -/
theorem backfill_forgetTime (events : Rows EventKey EventRow) :
    backfill (events.view (fun _ => true) EventRow.forgetTime) = backfill events := by
  apply AList.ext
  simp only [backfill, groupBy, AList.entries_view_all, List.map_map, List.filter_map, List.length_map]
  rfl

namespace Database

theorem usageRollup_ledger (db : Database) :
    (db.ledger.database collation).usageRollup.committed = backfill db.events.committed :=
  backfill_forgetTime db.events.committed

theorem listQuotas_ledger (db : Database) (apiKeyId : ℕ) :
    (db.ledger.database db.collation).listQuotas apiKeyId = db.listQuotas apiKeyId := by
  have rows : (db.ledger.database db.collation).quotas.committed.entries =
      db.quotas.committed.entries.map fun entry => ⟨entry.1, ⟨entry.2.limitPerWindow, none⟩⟩ := by
    simp only [Ledger.database, atRest, RowTable.ofRows, Tables.afterMigration, ledger, AList.entries_view_all,
      List.map_map]
    rfl
  rw [listQuotas, listQuotas, rows, List.filter_map, List.map_map]
  rfl

variable {other : Database} (same : db.usageRollup.committed.entries.Perm other.usageRollup.committed.entries)
include same

/-- A count of rows does not depend on the order they are kept in. -/
theorem countUsageRollups_eq_of_perm (apiKeyId : ℕ) (params : UsageExportQueryParams) :
    db.countUsageRollups apiKeyId params = other.countUsageRollups apiKeyId params :=
  (same.filter _).length_eq

@[inherit_doc countUsageRollups_eq_of_perm]
theorem findUsageRollup_eq_of_perm (key : RollupKey) : db.findUsageRollup key = other.findUsageRollup key :=
  AList.perm_lookup same

theorem streamUsageRollups_eq_of_perm (order : db.collation = other.collation) (apiKeyId : ℕ)
    (params : UsageExportQueryParams) (limit : ℕ) :
    db.streamUsageRollups apiKeyId params limit = other.streamUsageRollups apiKeyId params limit := by
  have distinct : ((db.matchingRollups apiKeyId params).map exportRecord).Pairwise
      fun first second => db.exportOrder first second ≠ .eq := by
    have ordered := (orderBy_matchingRollups_pairwise db apiKeyId params).imp
      (S := fun first second => db.exportOrder first second ≠ .eq) fun less equal => by
        rw [less] at equal
        contradiction
    exact (orderBy_perm ..).pairwise ordered fun differs equal => differs (Std.OrientedCmp.eq_symm equal)
  have listed := orderBy_eq_of_perm ((same.filter fun entry => exportFilter apiKeyId params entry.1).map exportRecord)
    distinct
  rw [streamUsageRollups, streamUsageRollups, ← show db.exportOrder = other.exportOrder by rw [exportOrder, order, exportOrder]]
  exact congrArg (List.take limit) listed

theorem aggregateDailyEventCounts_eq_of_perm (order : db.collation = other.collation) (apiKeyId : ℕ)
    (dayStart dayEnd : Instant) : db.aggregateDailyEventCounts apiKeyId dayStart dayEnd =
      other.aggregateDailyEventCounts apiKeyId dayStart dayEnd := by
  let metricOf (entry : Σ _ : RollupKey, RollupRow) : String := entry.1.metric
  let eventCounts (rows : List (Σ _ : RollupKey, RollupRow)) : ℕ := (rows.map fun entry => entry.2.eventCount).sum
  have rows := same.filter fun entry => entry.1.apiKeyId = apiKeyId ∧ dayStart ≤ entry.1.windowStart ∧
    entry.1.windowStart < dayEnd
  have unordered : ∀ group permuted, group.Perm permuted → eventCounts group = eventCounts permuted :=
    fun group permuted alike => (alike.map _).sum_eq
  have groups : (groupBy metricOf eventCounts _).entries.Perm (groupBy metricOf eventCounts _).entries :=
    groupBy_entries_perm rows unordered
  rw [aggregateDailyEventCounts, aggregateDailyEventCounts, ← order]
  apply orderBy_eq_of_perm (groups.map _)
  exact List.pairwise_map.mpr ((List.nodupKeys_iff_pairwise.mp (AList.nodupKeys _)).imp fun differs equal =>
    differs (onColumn_eq_eq.mp equal))

end Database

section Readings

variable (isLog : RollupIsLog s) (order : s.db.collation = collation)
include isLog

theorem RollupIsLog.perm_ledger : s.db.usageRollup.committed.entries.Perm
    (s.db.ledger.database collation).usageRollup.committed.entries := by
  rw [Database.usageRollup_ledger]
  exact AList.entries_perm_of_lookup isLog

/-- The ledger's total of a bucket is the one that the rollup keeps. -/
theorem RollupIsLog.total_ledger (bucket : RollupKey) : s.db.ledger.total bucket = s.db.bucketTotal bucket := by
  have events : s.db.ledger.total bucket = totalMicros (bucketEvents s.db.events.committed bucket) := by
    simp only [Ledger.total, Database.ledger, AList.entries_view_all, List.filter_map, List.map_map]
    rfl
  rw [events, Database.bucketTotal, isLog, lookup_backfill]
  split_ifs with empty
  · exact totalMicros_eq_zero.mpr empty
  · rfl

theorem RollupIsLog.getUsage_ledger (apiKeyId : ℕ) (query : UsageQueryParams) :
    GetUsage.statement apiKeyId query () (s.db.ledger.database collation) =
      GetUsage.statement apiKeyId query () s.db :=
  (Database.findUsageRollup_eq_of_perm isLog.perm_ledger _).symm

include order

theorem RollupIsLog.getDailyUsage_ledger (apiKeyId : ℕ) (window : DailyDateWindow) :
    GetDailyUsage.statement apiKeyId window (s.db.ledger.database collation) =
      GetDailyUsage.statement apiKeyId window s.db :=
  (Database.aggregateDailyEventCounts_eq_of_perm isLog.perm_ledger order _ _ _).symm

theorem RollupIsLog.streamUsageRollups_ledger (apiKeyId : ℕ) (params : UsageExportQueryParams) (limit : ℕ) :
    (s.db.ledger.database collation).streamUsageRollups apiKeyId params limit =
      s.db.streamUsageRollups apiKeyId params limit :=
  (Database.streamUsageRollups_eq_of_perm isLog.perm_ledger order _ _ _).symm

end Readings

/-! ## Calls that take effect -/

/-- The call has ended, and left a mark on the ledger. -/
def Call.isEffect : Call → Bool
  | createEvent _ _ (.answered (.ok outcome)) => outcome.httpStatus = 201
  | upsertQuota _ (.answered (.ok _)) | deleteQuota _ (.answered (.ok _)) => true
  | _ => false

/-- The call that takes effect in a step. -/
def effected (_ : State) (a : Action) (next : State) : List (CallId × Call) :=
  match a with
  | .advance txn => if (next.calls txn).isEffect then [(txn, next.calls txn)] else []
  | _ => []

theorem Call.isAnswered_of_isEffect (effect : call.isEffect) : call.isAnswered := by
  cases call with
  | createEvent payload receivedAt phase => cases phase <;> first | rfl | contradiction
  | upsertQuota payload phase => cases phase <;> first | rfl | contradiction
  | deleteQuota params phase => cases phase <;> first | rfl | contradiction
  | idle | listQuotas | getUsage | getDailyUsage | exportUsage => contradiction

theorem Call.isEffect_and_isServed (call : Call) : (call.isEffect && call.isServed) = call.isEffect := by
  cases effect : call.isEffect with
  | false => rfl
  | true =>
    unfold Call.isServed
    split
    all_goals first | contradiction | exact Call.isAnswered_of_isEffect effect

theorem Call.isEffect_interrupt (call : Call) : call.interrupt.isEffect = false := by
  cases call <;> rfl

/-- The calls that took effect along a run are those among its answers that are effects. -/
theorem observed_effected (reached : Machine.run step (.init db) schedule = some final) :
    Machine.observed step effected (.init db) schedule = final.answers.filter fun answer => answer.2.isEffect := by
  refine Machine.run_induction (motive := fun schedule s => Machine.observed step effected (.init db) schedule =
    s.answers.filter fun answer => answer.2.isEffect) _ rfl ?_ reached
  intro schedule s a next before ih last
  rw [Machine.observed_snoc before last, ih]
  have recorded : ∀ txn call db, (s.record txn call db).answers.filter (fun answer => answer.2.isEffect) =
      (s.answers.filter fun answer => answer.2.isEffect) ++ if call.isEffect then [(txn, call)] else [] := by
    intro txn call db
    rw [State.record]
    split_ifs with answered effect effect
    · simp [List.filter_append, effect]
    · simp [List.filter_append, effect]
    · exact absurd (Call.isAnswered_of_isEffect effect) answered
    · exact (List.append_nil _).symm
  cases stepped_of_step last with
  | @start txn request idle =>
    have silent : request.call.isEffect = false := by cases request <;> rfl
    rw [recorded, silent]
    rfl
  | advance moves =>
    rw [recorded, effected, State.calls_record_self]
  | interrupt running =>
    rw [recorded, Call.isEffect_interrupt]
    rfl
  | tick => exact List.append_nil _

/-- What the commit of an event adds to the ledger. -/
theorem Ledger.serve_created {ledger : Ledger} {payload : EventCreateRequest} {receivedAt : Instant} {row : EventRow}
    (fresh : ledger.events.lookup (payload.eventKey txn.apiKeyId) = none)
    (asked : row = payload.row receivedAt row.eventTime row.id) :
    ledger.serve collation (txn, .createEvent payload receivedAt
        (.answered (.ok ⟨row.record (payload.eventKey txn.apiKeyId), 201, false⟩))) =
      some { ledger with events := ledger.events.insert (payload.eventKey txn.apiKeyId) row.forgetTime } := by
  rw [asked]
  simp only [serve, fresh]
  exact if_pos rfl

/-- A step that publishes nothing leaves the ledger. -/
theorem ledger_of_committed (same : db.committed = s.db.committed) : db.ledger = s.db.ledger := by
  obtain ⟨events, -, quotas⟩ := Tables.mk.inj same
  rw [Database.ledger, events, quotas, Database.ledger]

/-- What a commit adds to the log, and to the limits. -/
theorem Consistent.ledger_commit_event (consistent : Consistent s) {key : EventKey} {row : EventRow}
    (event : (s.held txn).event = some (key, .write row))
    (quota : (s.held txn).quota = none ∨ ∃ key, (s.held txn).quota = some (key, .keep)) :
    (s.db.commit txn).ledger =
      { s.db.ledger with events := s.db.ledger.events.insert key row.forgetTime } := by
  have events : (s.db.events.commit txn).committed = s.db.events.committed.insert key row :=
    consistent.events.committed_of_claim event
  have quotas : (s.db.quotas.commit txn).committed = s.db.quotas.committed := by
    rcases quota with none | ⟨held, keep⟩
    · exact consistent.quotas.committed_of_unclaimed none
    · exact consistent.quotas.committed_of_claim keep
  rw [Database.ledger, Database.commit, events, quotas, AList.view_insert_of_kept rfl]
  rfl

theorem Consistent.ledger_commit_quota (consistent : Consistent s) {key : QuotaKey} {effect : Effect QuotaRow}
    (event : (s.held txn).event = none) (quota : (s.held txn).quota = some (key, effect)) :
    (s.db.commit txn).ledger = { s.db.ledger with
      limits := (effect.map QuotaRow.limitPerWindow).publish key s.db.ledger.limits } := by
  have events : (s.db.events.commit txn).committed = s.db.events.committed :=
    consistent.events.committed_of_unclaimed event
  have quotas : (s.db.quotas.commit txn).committed = effect.publish key s.db.quotas.committed :=
    consistent.quotas.committed_of_claim quota
  rw [Database.ledger, Database.commit, events, quotas, effect.view_publish_of_kept rfl]
  rfl

/-- The limit in force, in the ledger. -/
theorem Database.lookup_limits_ledger (db : Database) (key : QuotaKey) :
    db.ledger.limits.lookup key = db.limit key :=
  AList.lookup_view_all QuotaRow.limitPerWindow db.quotas.committed key

theorem Database.lookup_events_ledger (db : Database) (key : EventKey) :
    db.ledger.events.lookup key = (db.events.find key).map EventRow.forgetTime :=
  AList.lookup_view_all EventRow.forgetTime db.events.committed key

/-- A step that takes effect is served by the ledger, and every other step leaves it. -/
theorem Call.Advanced.serves (consistent : Consistent s) (upserts : UpsertsFaithful s) (rows : RowsFaithful s)
    (moves : Call.Advanced txn s.db (s.calls txn) call db) :
    Machine.run (Ledger.serve collation) s.db.ledger (if call.isEffect then [(txn, call)] else []) =
      some db.ledger := by
  generalize place : s.calls txn = current at moves
  have held : s.held txn = current.held txn := by rw [State.held, place]
  have silent : call.isEffect = false → db.ledger = s.db.ledger →
      Machine.run (Ledger.serve collation) s.db.ledger (if call.isEffect then [(txn, call)] else []) =
        some db.ledger := by
    intro none same
    rw [none, same]
    rfl
  have unheld : current.held txn = .none → (s.db.commit txn).ledger = s.db.ledger := fun none =>
    ledger_of_committed (consistent.committed_commit_of_unheld (held.trans none))
  cases moves with
  | @createEvent payload receivedAt phase after db moves =>
    cases moves with
    | @commits row quotaState rollup =>
      have event : (s.held txn).event = some (payload.eventKey txn.apiKeyId, .write row) := congrArg Held.event held
      have quota : (s.held txn).quota = none ∨ ∃ key, (s.held txn).quota = some (key, .keep) := by
        rw [held]
        cases quotaState with
        | none => exact .inl rfl
        | some state => exact .inr ⟨_, rfl⟩
      have fresh : s.db.ledger.events.lookup (payload.eventKey txn.apiKeyId) = none := by
        rw [Database.lookup_events_ledger, consistent.fresh txn _ _ event]
        rfl
      rw [consistent.ledger_commit_event event quota]
      exact (Machine.run_singleton _).trans (Ledger.serve_created fresh (rows txn payload receivedAt _ row place rfl))
    | replays => exact silent rfl (unheld rfl)
    | opens | draws | inserts | conflicts | seesNoQuota | seesQuota | losesQuota | locksQuota | readsTotal | rejects
      | increments | finds | findsNothing => exact silent rfl rfl
  | @upsertQuota payload phase after db moves =>
    cases moves with
    | opens | inserts | replaces => exact silent rfl rfl
    | @commits record row =>
      obtain ⟨asked, stored⟩ := upserts txn payload record row place
      have quota : (s.held txn).quota = some (payload.quotaKey txn.apiKeyId, .write row) := congrArg Held.quota held
      have published := consistent.ledger_commit_quota (congrArg Held.event held) quota
      rw [published]
      refine (Machine.run_singleton _).trans ?_
      simp only [Ledger.serve, Database.lookup_limits_ledger, Database.limit, Option.isSome_map, Effect.map, stored,
        asked, Effect.publish]
      refine if_pos ?_
      cases s.db.quotas.find (payload.quotaKey txn.apiKeyId) <;> rfl
  | @deleteQuota params phase after db moves =>
    cases moves with
    | opens | seesNothing | sees | loses | removes => exact silent rfl rfl
    | @commits found =>
      cases found with
      | false => exact silent rfl (unheld rfl)
      | true =>
        have quota : (s.held txn).quota = some (params.quotaKey txn.apiKeyId, .erase) := congrArg Held.quota held
        obtain ⟨row, present⟩ := Option.isSome_iff_exists.mp (consistent.continues txn _ _ quota)
        have published := consistent.ledger_commit_quota (congrArg Held.event held) quota
        rw [published]
        refine (Machine.run_singleton _).trans ?_
        simp only [Ledger.serve, Database.lookup_limits_ledger, Database.limit, present, Option.map_some, if_true]
        rfl
  | listQuotas moves | getUsage moves | getDailyUsage moves =>
    cases moves with
    | refuses | opens | reads => exact silent rfl rfl
    | commits => exact silent rfl (unheld rfl)
  | exportUsage moves =>
    cases moves with
    | opens | counts | sendsHeader | opensStream | streams => exact silent rfl rfl
    | refuses | prepares | completes => exact silent rfl (unheld rfl)

theorem Stepped.serves (consistent : Consistent s) (upserts : UpsertsFaithful s) (rows : RowsFaithful s)
    (steps : Stepped s a next) :
    Machine.run (Ledger.serve collation) s.db.ledger (effected s a next) = some next.db.ledger ∧
      ∀ item ∈ effected s a next, (s.calls item.1).isRunning := by
  cases steps with
  | start idle | interrupt running | tick => exact ⟨rfl, fun _ member => by contradiction⟩
  | @advance txn call db moves =>
    rw [effected, State.calls_record_self]
    refine ⟨moves.serves consistent upserts rows, ?_⟩
    intro item member
    split_ifs at member
    · obtain rfl := List.mem_singleton.mp member
      exact moves.running
    · contradiction

end Meterly
