import Meterly.Store.View
import Meterly.Soundness.Held

/-! # What one tenant sees

The rows of a tenant in the three tables, with the holds on them, and its own calls. The number
that an event is given by the shared identity sequence is forgotten. A step of one of the tenant's
calls can be taken on what the tenant sees: every statement carries the tenant in its key or its
filter.
-/

namespace Meterly

/-- The key is one of the tenant's. -/
def EventKey.isOf (tenant : ℕ) (key : EventKey) : Bool := key.apiKeyId = tenant

@[inherit_doc EventKey.isOf]
def RollupKey.isOf (tenant : ℕ) (key : RollupKey) : Bool := key.apiKeyId = tenant

@[inherit_doc EventKey.isOf]
def QuotaKey.isOf (tenant : ℕ) (key : QuotaKey) : Bool := key.apiKeyId = tenant

/-- The row without its number in the shared sequence. -/
def EventRow.forgetId (row : EventRow) : EventRow := { row with id := 0 }

@[simp] theorem EventRow.quotaKey_forgetId (row : EventRow) (tenant : ℕ) :
    row.forgetId.quotaKey tenant = row.quotaKey tenant := rfl

@[simp] theorem EventRow.rollupKey_forgetId (row : EventRow) (tenant : ℕ) :
    row.forgetId.rollupKey tenant = row.rollupKey tenant := rfl

@[simp] theorem CreateEvent.rejected_forgetId {row : EventRow} {quotaState : Option QuotaState} :
    CreateEvent.Rejected quotaState row.forgetId ↔ CreateEvent.Rejected quotaState row := Iff.rfl

def EventRecord.forgetId (record : EventRecord) : EventRecord := { record with id := 0 }

def EventCreationOutcome.forgetId (outcome : EventCreationOutcome) : EventCreationOutcome :=
  { outcome with record := outcome.record.forgetId }

def CreateEvent.Phase.forgetId : CreateEvent.Phase → CreateEvent.Phase
  | inserting startedAt _ => inserting startedAt 0
  | inserted row => inserted row.forgetId
  | lockingQuota row version => lockingQuota row.forgetId version
  | quotaLocked row limitPerWindow => quotaLocked row.forgetId limitPerWindow
  | judging row quotaState => judging row.forgetId quotaState
  | incremented row quotaState rollup => incremented row.forgetId quotaState rollup
  | replayed original => replayed original.forgetId
  | answered outcome => answered (outcome.map EventCreationOutcome.forgetId)
  | phase => phase

/-- The call without the numbers of its events. -/
def Call.forgetId : Call → Call
  | createEvent payload receivedAt phase => createEvent payload receivedAt phase.forgetId
  | call => call

/-- The tables as a tenant sees them. -/
def Database.tenantView (tenant : ℕ) (db : Database) : Database where
  collation := db.collation
  now := db.now
  nextEventId := 0
  events := db.events.view (EventKey.isOf tenant) EventRow.forgetId
  usageRollup := db.usageRollup.view (RollupKey.isOf tenant) id
  quotas := db.quotas.view (QuotaKey.isOf tenant) id

/-- The calls, answers and tables as a tenant sees them. -/
def State.tenantView (tenant : ℕ) (s : State) : State where
  db := s.db.tenantView tenant
  calls txn := if txn.apiKeyId = tenant then (s.calls txn).forgetId else .idle
  answers := (s.answers.filter fun answer => answer.1.apiKeyId = tenant).map (Prod.map id Call.forgetId)

variable {tenant : ℕ} {db : Database} {txn : CallId}

/-! ## Statements on what a tenant sees -/

namespace Database

variable {key : EventKey} {bucket : RollupKey} {quota : QuotaKey}

theorem tenantView_tenantView : (db.tenantView tenant).tenantView tenant = db.tenantView tenant := by
  simp only [tenantView, RowTable.view_view]
  rfl

theorem find_events_tenantView (own : key.isOf tenant) :
    (db.tenantView tenant).events.find key = (db.events.find key).map EventRow.forgetId :=
  RowTable.find_view own

theorem find_usageRollup_tenantView (own : bucket.isOf tenant) :
    (db.tenantView tenant).usageRollup.find bucket = db.usageRollup.find bucket :=
  (RowTable.find_view own).trans Option.map_id'

theorem find_quotas_tenantView (own : quota.isOf tenant) :
    (db.tenantView tenant).quotas.find quota = db.quotas.find quota :=
  (RowTable.find_view own).trans Option.map_id'

theorem free_events_tenantView (own : key.isOf tenant) :
    (db.tenantView tenant).events.Free txn key ↔ db.events.Free txn key :=
  RowTable.free_view own

theorem free_usageRollup_tenantView (own : bucket.isOf tenant) :
    (db.tenantView tenant).usageRollup.Free txn bucket ↔ db.usageRollup.Free txn bucket :=
  RowTable.free_view own

theorem free_quotas_tenantView (own : quota.isOf tenant) :
    (db.tenantView tenant).quotas.Free txn quota ↔ db.quotas.Free txn quota :=
  RowTable.free_view own

theorem tenantView_commit : (db.commit txn).tenantView tenant = (db.tenantView tenant).commit txn := by
  simp only [tenantView, commit, RowTable.view_commit]

theorem tenantView_rollback : (db.rollback txn).tenantView tenant = (db.tenantView tenant).rollback txn := by
  simp only [tenantView, rollback, RowTable.view_rollback]

theorem tenantView_holdEvent (own : key.isOf tenant) (effect : Effect EventRow) (nextEventId : ℕ) :
    ({ db with events := db.events.hold txn key effect, nextEventId } : Database).tenantView tenant =
      { db.tenantView tenant with
        events := (db.tenantView tenant).events.hold txn key (effect.map EventRow.forgetId) } := by
  simp only [tenantView, RowTable.view_hold_of_kept own]

theorem tenantView_holdBucket (own : bucket.isOf tenant) (effect : Effect RollupRow) :
    ({ db with usageRollup := db.usageRollup.hold txn bucket effect } : Database).tenantView tenant =
      { db.tenantView tenant with
        usageRollup := (db.tenantView tenant).usageRollup.hold txn bucket (effect.map id) } := by
  simp only [tenantView, RowTable.view_hold_of_kept own]

theorem tenantView_holdQuota (own : quota.isOf tenant) (effect : Effect QuotaRow) :
    ({ db with quotas := db.quotas.hold txn quota effect } : Database).tenantView tenant =
      { db.tenantView tenant with quotas := (db.tenantView tenant).quotas.hold txn quota (effect.map id) } := by
  simp only [tenantView, RowTable.view_hold_of_kept own]

theorem quotaVersion_tenantView (own : quota.isOf tenant) :
    (db.tenantView tenant).quotaVersion quota = db.quotaVersion quota := by
  rw [quotaVersion, find_quotas_tenantView own, quotaVersion]

theorem latestVersion_tenantView (own : quota.isOf tenant) (version : Option CallId) :
    (db.tenantView tenant).latestVersion quota version = db.latestVersion quota version := by
  rw [latestVersion, find_quotas_tenantView own, latestVersion]

theorem currentTotal_tenantView (own : bucket.isOf tenant) :
    (db.tenantView tenant).currentTotal bucket = db.currentTotal bucket := by
  rw [currentTotal, find_usageRollup_tenantView own, currentTotal]

theorem listQuotas_tenantView : (db.tenantView tenant).listQuotas tenant = db.listQuotas tenant := by
  rw [listQuotas, listQuotas]
  have rows := AList.filter_entries_view_id (QuotaKey.isOf tenant) (QuotaKey.isOf tenant) (fun _ own => own)
    db.quotas.committed
  exact congrArg (fun rows => orderBy db.quotaOrder (List.map _ rows)) rows

theorem matchingRollups_tenantView (params : UsageExportQueryParams) :
    (db.tenantView tenant).matchingRollups tenant params = db.matchingRollups tenant params := by
  refine AList.filter_entries_view_id (RollupKey.isOf tenant) (exportFilter tenant params) (fun key passes => ?_) _
  simp only [exportFilter, exportFilterClauses, List.cons_append, List.all_cons, Bool.and_eq_true] at passes
  exact passes.1

theorem countUsageRollups_tenantView (params : UsageExportQueryParams) :
    (db.tenantView tenant).countUsageRollups tenant params = db.countUsageRollups tenant params := by
  rw [countUsageRollups, matchingRollups_tenantView, countUsageRollups]

theorem streamUsageRollups_tenantView (params : UsageExportQueryParams) (limit : ℕ) :
    (db.tenantView tenant).streamUsageRollups tenant params limit = db.streamUsageRollups tenant params limit := by
  rw [streamUsageRollups, matchingRollups_tenantView, streamUsageRollups]
  rfl

theorem aggregateDailyEventCounts_tenantView (dayStart dayEnd : Instant) :
    (db.tenantView tenant).aggregateDailyEventCounts tenant dayStart dayEnd =
      db.aggregateDailyEventCounts tenant dayStart dayEnd := by
  have rows := AList.filter_entries_view_id (RollupKey.isOf tenant)
    (fun key => decide (key.apiKeyId = tenant ∧ dayStart ≤ key.windowStart ∧ key.windowStart < dayEnd))
    (fun key passes => decide_eq_true (of_decide_eq_true passes).1) db.usageRollup.committed
  simp only [aggregateDailyEventCounts]
  rw [show ((db.tenantView tenant).usageRollup.committed.entries.filter _) = _ from rows]
  rfl

end Database

/-! ## Steps on what a tenant sees -/

/-- What a tenant sees of the result of a step. -/
abbrev seenBy {Phase : Type} (tenant : ℕ) (forget : Phase → Phase) :
    Option (Phase × Database) → Option (Phase × Database) :=
  Option.map (Prod.map forget (Database.tenantView tenant))

theorem CreateEvent.advance_tenantView {payload : EventCreateRequest} {receivedAt : Instant}
    (own : txn.apiKeyId = tenant) (phase : Phase) :
    seenBy tenant Phase.forgetId (advance txn payload receivedAt phase db) =
      seenBy tenant Phase.forgetId (advance txn payload receivedAt phase.forgetId (db.tenantView tenant)) := by
  have ownEvent : (payload.eventKey txn.apiKeyId).isOf tenant := decide_eq_true own
  have ownQuota : ∀ row : EventRow, (row.quotaKey txn.apiKeyId).isOf tenant := fun row => decide_eq_true own
  have ownBucket : ∀ row : EventRow, (row.rollupKey txn.apiKeyId).isOf tenant := fun row => decide_eq_true own
  cases phase with
  | answered => rfl
  | received =>
    exact congrArg (fun seen => some (Phase.begun db.now, seen)) Database.tenantView_tenantView.symm
  | begun startedAt =>
    exact congrArg (fun seen => some (Phase.inserting startedAt 0, seen)) Database.tenantView_tenantView.symm
  | inserting startedAt id =>
    simp only [advance, Phase.forgetId, Database.insertEventIfNew, Database.free_events_tenantView ownEvent,
      Database.find_events_tenantView ownEvent]
    by_cases free : db.events.Free txn (payload.eventKey txn.apiKeyId)
    · simp only [if_pos free]
      cases db.events.find (payload.eventKey txn.apiKeyId) with
      | none =>
        simp only [Option.map_none, Option.map_some, Prod.map_apply, Database.tenantView_holdEvent ownEvent,
          Database.tenantView_tenantView]
        rfl
      | some row => simp only [Option.map_some, Prod.map_apply, Database.tenantView_tenantView]
    · simp only [if_neg free]
  | inserted row =>
    simp only [advance, Phase.forgetId, EventRow.quotaKey_forgetId, Database.quotaVersion_tenantView (ownQuota _)]
    cases db.quotaVersion (row.quotaKey txn.apiKeyId) with
    | none | some version =>
      simp only [Option.map_some, Prod.map_apply, Database.tenantView_tenantView]
      rfl
  | lockingQuota row version =>
    simp only [advance, Phase.forgetId, Database.lockQuota, EventRow.quotaKey_forgetId,
      Database.free_quotas_tenantView (ownQuota _), Database.latestVersion_tenantView (ownQuota _)]
    by_cases free : db.quotas.Free txn (row.quotaKey txn.apiKeyId)
    · simp only [if_pos free]
      cases db.latestVersion (row.quotaKey txn.apiKeyId) version with
      | none =>
        simp only [Option.map_some, Prod.map_apply, Database.tenantView_tenantView]
        rfl
      | some quota =>
        simp only [Option.map_some, Prod.map_apply, Database.tenantView_holdQuota (ownQuota _),
          Database.tenantView_tenantView]
        rfl
    · simp only [if_neg free]
  | quotaLocked row limitPerWindow =>
    simp only [advance, Phase.forgetId, EventRow.rollupKey_forgetId, Option.map_some, Prod.map_apply,
      Database.tenantView_tenantView, Database.currentTotal_tenantView (ownBucket _)]
    rfl
  | judging row quotaState =>
    simp only [advance, Phase.forgetId, Database.incrementUsageRollup, rejected_forgetId, EventRow.rollupKey_forgetId,
      Database.free_usageRollup_tenantView (ownBucket _), Database.find_usageRollup_tenantView (ownBucket _)]
    by_cases rejected : Rejected quotaState row
    · simp only [if_pos rejected, Option.map_some, Prod.map_apply, Database.tenantView_rollback,
        Database.tenantView_tenantView]
    · simp only [if_neg rejected]
      by_cases free : db.usageRollup.Free txn (row.rollupKey txn.apiKeyId)
      · simp only [if_pos free, Option.map_some, Prod.map_apply, Database.tenantView_holdBucket (ownBucket _),
          Database.tenantView_tenantView]
        rfl
      · simp only [if_neg free]
  | incremented row quotaState rollup =>
    simp only [advance, Phase.forgetId, Option.map_some, Prod.map_apply, Database.tenantView_commit,
      Database.tenantView_tenantView]
    rfl
  | conflicted =>
    simp only [advance, Phase.forgetId, Database.findEventByIdempotencyKey, Database.find_events_tenantView ownEvent]
    cases db.events.find (payload.eventKey txn.apiKeyId) with
    | none =>
      simp only [Option.map_none, Option.map_some, Prod.map_apply, Database.tenantView_rollback,
        Database.tenantView_tenantView]
    | some row =>
      simp only [Option.map_some, Prod.map_apply, Database.tenantView_tenantView]
      rfl
  | replayed original =>
    simp only [advance, Phase.forgetId, Option.map_some, Prod.map_apply, Database.tenantView_commit,
      Database.tenantView_tenantView]
    rfl

theorem UpsertQuota.advance_tenantView {payload : QuotaPutRequest} (own : txn.apiKeyId = tenant) (phase : Phase) :
    seenBy tenant id (advance txn payload phase db) =
      seenBy tenant id (advance txn payload phase (db.tenantView tenant)) := by
  have ownQuota : (payload.quotaKey txn.apiKeyId).isOf tenant := decide_eq_true own
  cases phase with
  | answered => rfl
  | received => exact congrArg (fun seen => some (Phase.begun, seen)) Database.tenantView_tenantView.symm
  | begun =>
    simp only [advance, Database.upsertQuota, Database.free_quotas_tenantView ownQuota,
      Database.find_quotas_tenantView ownQuota]
    by_cases free : db.quotas.Free txn (payload.quotaKey txn.apiKeyId)
    · simp only [if_pos free, Option.map_some, Prod.map_apply, Database.tenantView_holdQuota ownQuota,
        Database.tenantView_tenantView]
    · simp only [if_neg free]
  | written record row =>
    simp only [advance, Option.map_some, Prod.map_apply, Database.tenantView_commit, Database.tenantView_tenantView]

theorem DeleteQuota.advance_tenantView {params : QuotaDeleteParams} (own : txn.apiKeyId = tenant) (phase : Phase) :
    seenBy tenant id (advance txn params phase db) =
      seenBy tenant id (advance txn params phase (db.tenantView tenant)) := by
  have ownQuota : (params.quotaKey txn.apiKeyId).isOf tenant := decide_eq_true own
  cases phase with
  | answered => rfl
  | received => exact congrArg (fun seen => some (Phase.begun, seen)) Database.tenantView_tenantView.symm
  | begun =>
    simp only [advance, Database.quotaVersion_tenantView ownQuota]
    cases db.quotaVersion (params.quotaKey txn.apiKeyId) with
    | none | some version => simp only [Option.map_some, Prod.map_apply, Database.tenantView_tenantView]
  | deleting version =>
    simp only [advance, Database.deleteQuota, Database.free_quotas_tenantView ownQuota,
      Database.latestVersion_tenantView ownQuota]
    by_cases free : db.quotas.Free txn (params.quotaKey txn.apiKeyId)
    · simp only [if_pos free]
      cases db.latestVersion (params.quotaKey txn.apiKeyId) version with
      | none => simp only [Option.map_some, Prod.map_apply, Database.tenantView_tenantView]
      | some quota =>
        simp only [Option.map_some, Prod.map_apply, Database.tenantView_holdQuota ownQuota,
          Database.tenantView_tenantView]
    · simp only [if_neg free]
  | removed found =>
    simp only [advance, Option.map_some, Prod.map_apply, Database.tenantView_commit, Database.tenantView_tenantView]

theorem Reading.advance_tenantView {Args Result Response : Type} {args : Except ServiceError Args}
    {statement : Args → Database → Result} {respond : Args → Result → Response}
    (same : ∀ args, statement args (db.tenantView tenant) = statement args db) (phase : Phase Args Result Response) :
    seenBy tenant id (advance txn args statement respond phase db) =
      seenBy tenant id (advance txn args statement respond phase (db.tenantView tenant)) := by
  cases phase with
  | answered => rfl
  | received =>
    cases args with
    | error | ok => simp only [advance, Option.map_some, Prod.map_apply, Database.tenantView_tenantView]
  | begun value => simp only [advance, Option.map_some, Prod.map_apply, Database.tenantView_tenantView, same]
  | read value result =>
    simp only [advance, Option.map_some, Prod.map_apply, Database.tenantView_commit, Database.tenantView_tenantView]

theorem ExportUsage.advance_tenantView {params : UsageExportQueryParams} (own : txn.apiKeyId = tenant) (phase : Phase) :
    seenBy tenant id (advance txn params phase db) =
      seenBy tenant id (advance txn params phase (db.tenantView tenant)) := by
  subst tenant
  cases phase with
  | answered => rfl
  | received | prepared | headerSent =>
    simp only [advance, Option.map_some, Prod.map_apply, Database.tenantView_tenantView]
  | begun =>
    simp only [advance, Option.map_some, Prod.map_apply, Database.tenantView_tenantView,
      Database.countUsageRollups_tenantView]
  | counted rowCount =>
    simp only [advance]
    by_cases large : maxExportRows < rowCount
    · simp only [if_pos large, Option.map_some, Prod.map_apply, Database.tenantView_commit,
        Database.tenantView_tenantView]
    · simp only [if_neg large, Option.map_some, Prod.map_apply, Database.tenantView_commit,
        Database.tenantView_tenantView]
  | streamBegun =>
    simp only [advance, Option.map_some, Prod.map_apply, Database.tenantView_tenantView,
      Database.streamUsageRollups_tenantView]
  | streaming records =>
    simp only [advance, Option.map_some, Prod.map_apply, Database.tenantView_commit, Database.tenantView_tenantView]

/-- Steps of a service that look alike are steps of its calls that look alike. -/
private theorem seen_call {Phase : Type} {forget : Phase → Phase} {place : Phase → Call}
    {left right : Option (Phase × Database)} (commutes : ∀ phase, (place phase).forgetId = place (forget phase))
    (same : seenBy tenant forget left = seenBy tenant forget right) :
    (left.map (Prod.map place id)).map (Prod.map Call.forgetId (Database.tenantView tenant)) =
      (right.map (Prod.map place id)).map (Prod.map Call.forgetId (Database.tenantView tenant)) := by
  have seen : ∀ result : Option (Phase × Database),
      (result.map (Prod.map place id)).map (Prod.map Call.forgetId (Database.tenantView tenant)) =
        (seenBy tenant forget result).map (Prod.map place id) := by
    intro result
    rw [seenBy, Option.map_map, Option.map_map]
    exact congrArg (Option.map · result) (funext fun next => Prod.ext (commutes next.1) rfl)
  rw [seen, seen, same]

/-- A step of one of the tenant's calls can be taken on what the tenant sees. -/
theorem Call.advance_tenantView (own : txn.apiKeyId = tenant) (call : Call) :
    (call.advance txn db).map (Prod.map forgetId (Database.tenantView tenant)) =
      (call.forgetId.advance txn (db.tenantView tenant)).map (Prod.map forgetId (Database.tenantView tenant)) := by
  cases call with
  | idle => rfl
  | createEvent payload receivedAt phase =>
    exact seen_call (fun _ => rfl) (CreateEvent.advance_tenantView own phase)
  | upsertQuota payload phase => exact seen_call (fun _ => rfl) (UpsertQuota.advance_tenantView own phase)
  | deleteQuota params phase => exact seen_call (fun _ => rfl) (DeleteQuota.advance_tenantView own phase)
  | listQuotas phase =>
    subst tenant
    exact seen_call (fun _ => rfl) (Reading.advance_tenantView (fun _ => Database.listQuotas_tenantView) phase)
  | getUsage query phase =>
    have ownBucket : RollupKey.isOf tenant ⟨txn.apiKeyId, query.customerId, query.metric, GetUsage.windowStart query⟩ :=
      decide_eq_true own
    exact seen_call (fun _ => rfl)
      (Reading.advance_tenantView (fun _ => Database.find_usageRollup_tenantView ownBucket) phase)
  | getDailyUsage date receivedAt phase =>
    subst tenant
    exact seen_call (fun _ => rfl) (Reading.advance_tenantView
      (fun window => Database.aggregateDailyEventCounts_tenantView window.dayStart window.dayEnd) phase)
  | exportUsage params phase => exact seen_call (fun _ => rfl) (ExportUsage.advance_tenantView own phase)

end Meterly
