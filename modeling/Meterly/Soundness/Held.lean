import Meterly.Model.System

/-! # What a call holds, and what one step can do

The rows a call holds are read off the phase it is in. A step of any service does one of six
things to the three tables: it only reads, it takes the index entry of a new event, it locks a
quota row, it takes a bucket, or it ends its transaction by commit or rollback. Every statement
about the tables follows from these six; the phases are looked at again only for what a service
answers.
-/

namespace Meterly

/-- The rows held by a call, with what it will do to them. -/
@[ext] structure Held where
  event : Option (EventKey × Effect EventRow)
  rollup : Option (RollupKey × Effect RollupRow)
  quota : Option (QuotaKey × Effect QuotaRow)

/-- Nothing is held. -/
def Held.none : Held := ⟨Option.none, Option.none, Option.none⟩

@[simp] theorem Held.event_none : Held.none.event = Option.none := rfl
@[simp] theorem Held.rollup_none : Held.none.rollup = Option.none := rfl
@[simp] theorem Held.quota_none : Held.none.quota = Option.none := rfl

/-- A new event and, once it has been read, its quota; the bucket from the increment on. -/
def CreateEvent.Phase.held (txn : CallId) (payload : EventCreateRequest) : CreateEvent.Phase → Held
  | .inserted row | .lockingQuota row _ | .judging row none =>
    ⟨some (payload.eventKey txn.apiKeyId, .write row), none, none⟩
  | .quotaLocked row _ | .judging row (some _) =>
    ⟨some (payload.eventKey txn.apiKeyId, .write row), none, some (row.quotaKey txn.apiKeyId, .keep)⟩
  | .incremented row quotaState rollup =>
    ⟨some (payload.eventKey txn.apiKeyId, .write row), some (row.rollupKey txn.apiKeyId, .write rollup),
      quotaState.map fun _ => (row.quotaKey txn.apiKeyId, .keep)⟩
  | _ => .none

def UpsertQuota.Phase.held (txn : CallId) (payload : QuotaPutRequest) : UpsertQuota.Phase → Held
  | .written _ row => { Held.none with quota := some (payload.quotaKey txn.apiKeyId, .write row) }
  | _ => .none

def DeleteQuota.Phase.held (txn : CallId) (params : QuotaDeleteParams) : DeleteQuota.Phase → Held
  | .removed true => { Held.none with quota := some (params.quotaKey txn.apiKeyId, .erase) }
  | _ => .none

/-- The rows held by a call. -/
def Call.held (txn : CallId) : Call → Held
  | .createEvent payload _ phase => phase.held txn payload
  | .upsertQuota payload phase => phase.held txn payload
  | .deleteQuota params phase => phase.held txn params
  | _ => .none

/-- What a call will do to a quota row fits the row as it is published: a row that is only kept or
erased is there, and an update continues the version chain of the row it replaces. -/
def ContinuesQuota (txn : CallId) (before : Option QuotaRow) : Effect QuotaRow → Prop
  | .keep | .erase => before.isSome
  | .write row => row.insertedBy = (before.map QuotaRow.insertedBy).getD (some txn)

/-- What one step of a call does to the tables. -/
inductive Moved (txn : CallId) (db : Database) (before : Call) : Call → Database → Prop
  | reads {after : Call} (nextEventId : ℕ) (same : after.held txn = before.held txn) :
      Moved txn db before after { db with nextEventId }
  | insertsEvent {after : Call} {key : EventKey} {row : EventRow} (own : key.apiKeyId = txn.apiKeyId)
      (free : db.events.Free txn key) (fresh : db.events.find key = none) (empty : before.held txn = .none)
      (holds : after.held txn = { Held.none with event := some (key, .write row) }) :
      Moved txn db before after { db with events := db.events.hold txn key (.write row) }
  | locksQuota {after : Call} {key : QuotaKey} {effect : Effect QuotaRow} (own : key.apiKeyId = txn.apiKeyId)
      (free : db.quotas.Free txn key) (continues : ContinuesQuota txn (db.quotas.find key) effect)
      (unlocked : (before.held txn).quota = none)
      (holds : after.held txn = { before.held txn with quota := some (key, effect) }) :
      Moved txn db before after { db with quotas := db.quotas.hold txn key effect }
  | takesBucket {after : Call} {key : EventKey} {row : EventRow} (own : key.apiKeyId = txn.apiKeyId)
      (free : db.usageRollup.Free txn (row.rollupKey txn.apiKeyId))
      (inserted : (before.held txn).event = some (key, .write row)) (untaken : (before.held txn).rollup = none)
      (holds : after.held txn = { before.held txn with
        rollup := some (row.rollupKey txn.apiKeyId,
          .write (Database.bump (db.usageRollup.find (row.rollupKey txn.apiKeyId)) row.quantity)) }) :
      Moved txn db before after { db with
        usageRollup := db.usageRollup.hold txn (row.rollupKey txn.apiKeyId)
          (.write (Database.bump (db.usageRollup.find (row.rollupKey txn.apiKeyId)) row.quantity)) }
  | commits {after : Call} (released : after.held txn = .none)
      (whole : (before.held txn).event.isSome = (before.held txn).rollup.isSome) :
      Moved txn db before after (db.commit txn)
  | rollsBack {after : Call} (released : after.held txn = .none) : Moved txn db before after (db.rollback txn)

namespace Moved

variable {txn : CallId} {db next : Database}

theorem of_createEvent {payload : EventCreateRequest} {receivedAt : Instant} {phase after : CreateEvent.Phase}
    (moves : CreateEvent.Advanced txn payload receivedAt db phase after next) :
    Moved txn db (.createEvent payload receivedAt phase) (.createEvent payload receivedAt after) next := by
  cases moves with
  | draws => exact .reads (db.nextEventId + 1) rfl
  | inserts free fresh => exact .insertsEvent rfl free fresh rfl rfl
  | locksQuota free latest =>
    have found := (Database.latestVersion_eq_some.mp latest).1
    exact .locksQuota rfl free (Option.isSome_of_eq_some found) rfl rfl
  | @increments row quotaState accepted free =>
    cases quotaState with
    | none => exact .takesBucket rfl free rfl rfl rfl
    | some state => exact .takesBucket rfl free rfl rfl rfl
  | commits | replays => exact .commits rfl rfl
  | rejects | findsNothing => exact .rollsBack rfl
  | opens | conflicts | seesNoQuota | seesQuota | losesQuota | readsTotal | finds =>
    exact .reads db.nextEventId rfl

theorem of_upsertQuota {payload : QuotaPutRequest} {phase after : UpsertQuota.Phase}
    (moves : UpsertQuota.Advanced txn payload db phase after next) :
    Moved txn db (.upsertQuota payload phase) (.upsertQuota payload after) next := by
  cases moves with
  | opens => exact .reads db.nextEventId rfl
  | inserts free absent => exact .locksQuota rfl free (by rw [absent]; rfl) rfl rfl
  | replaces free found => exact .locksQuota rfl free (by rw [found]; rfl) rfl rfl
  | commits => exact .commits rfl rfl

theorem of_deleteQuota {params : QuotaDeleteParams} {phase after : DeleteQuota.Phase}
    (moves : DeleteQuota.Advanced txn params db phase after next) :
    Moved txn db (.deleteQuota params phase) (.deleteQuota params after) next := by
  cases moves with
  | opens | seesNothing | sees | loses => exact .reads db.nextEventId rfl
  | removes free latest =>
    have found := (Database.latestVersion_eq_some.mp latest).1
    exact .locksQuota rfl free (Option.isSome_of_eq_some found) rfl rfl
  | @commits found => cases found <;> exact .commits rfl rfl

theorem of_exportUsage {params : UsageExportQueryParams} {phase after : ExportUsage.Phase}
    (moves : ExportUsage.Advanced txn params db phase after next) :
    Moved txn db (.exportUsage params phase) (.exportUsage params after) next := by
  cases moves with
  | refuses | prepares | completes => exact .commits rfl rfl
  | opens | counts | sendsHeader | opensStream | streams => exact .reads db.nextEventId rfl

/-- A reading service holds nothing, and its commit publishes nothing. -/
theorem of_reading {Args Result Response : Type} {args : Except ServiceError Args}
    {statement : Args → Database → Result} {respond : Args → Result → Response}
    {phase after : Reading.Phase Args Result Response}
    (moves : Reading.Advanced txn args statement respond db phase after next)
    {before final : Call} (empty : before.held txn = .none) (released : final.held txn = .none) :
    Moved txn db before final next := by
  cases moves with
  | commits => exact .commits released (by rw [empty]; rfl)
  | refuses | opens | reads => exact .reads db.nextEventId (released.trans empty.symm)

/-- Every step of every service is one of the six. -/
theorem of_advanced {before after : Call} (moves : Call.Advanced txn db before after next) :
    Moved txn db before after next := by
  cases moves with
  | createEvent moves => exact of_createEvent moves
  | upsertQuota moves => exact of_upsertQuota moves
  | deleteQuota moves => exact of_deleteQuota moves
  | listQuotas moves => exact of_reading moves rfl rfl
  | getUsage moves => exact of_reading moves rfl rfl
  | getDailyUsage moves => exact of_reading moves rfl rfl
  | exportUsage moves => exact of_exportUsage moves

end Moved

end Meterly
