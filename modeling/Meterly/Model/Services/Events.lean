import Mathlib.Data.Rat.Floor
import Meterly.Model.Repositories

/-! # `create_event`

One call is one transaction. Each step is one statement, or the end of the transaction together
with the answer it decides. The phases name where the call stands and carry its local variables;
`row` is the inserted event, which the transaction has not committed yet. Raising inside the
transaction rolls it back.
-/

namespace Meterly

/-- `EventCreationOutcome` -/
structure EventCreationOutcome where
  record : EventRecord
  httpStatus : ℕ
  idempotentReplay : Bool
deriving DecidableEq, Repr

/-- `_seconds_until_next_hour_boundary` -/
def secondsUntilNextHourBoundary (receivedAt windowStart : Instant) : ℤ :=
  max 1 ⌈totalSeconds (windowStart + microsecondsPerHour - receivedAt)⌉

/-- `QuotaExceededError` -/
def quotaExceededError (retryAfterSeconds : ℤ) : ServiceError :=
  .http ⟨429, some "quota_exceeded", "metric quota exceeded for the current window",
    [("Retry-After", toString retryAfterSeconds)]⟩

/-- `IdempotencyRaceError` -/
def idempotencyRaceError : ServiceError :=
  .idempotencyRace "insert reported a conflict but the original row could not be found"

/-- The digits of Python's default decimal context. -/
def decimalPrecision : ℕ := 28

/-- `current_total + quantity > limit_per_window` -/
def QuotaState.Exceeded (state : QuotaState) (quantity : Quantity) : Prop :=
  (⟨state.limitPerWindow.value, 0⟩ : Decimal).Lt
    (state.currentTotal.add decimalPrecision (numericScale6 quantity.micros))

instance (state : QuotaState) (quantity : Quantity) : Decidable (state.Exceeded quantity) :=
  inferInstanceAs (Decidable (Decimal.Lt _ _))

namespace EventCreateRequest

/-- The window of an event: the UTC hour of its receipt. -/
def windowStart (receivedAt : Instant) : Instant := (floorToHourUtc (.ofInstant receivedAt)).instant

/-- The unique key under which a tenant's request is recorded. -/
def eventKey (payload : EventCreateRequest) (apiKeyId : ℕ) : EventKey := ⟨apiKeyId, payload.idempotencyKey⟩

/-- The quota that a tenant's request falls under. -/
def quotaKey (payload : EventCreateRequest) (apiKeyId : ℕ) : QuotaKey :=
  ⟨apiKeyId, payload.customerId, payload.metric⟩

/-- The row to insert; `event_time` defaults to the start of the transaction. -/
def row (payload : EventCreateRequest) (receivedAt eventTime : Instant) (id : ℕ) : EventRow :=
  ⟨id, payload.customerId, payload.metric, payload.quantity, windowStart receivedAt, eventTime⟩

end EventCreateRequest

namespace CreateEvent

inductive Phase where
  | received
  | begun (startedAt : Instant)
  | inserting (startedAt : Instant) (id : ℕ)
  | inserted (row : EventRow)
  | lockingQuota (row : EventRow) (version : Option CallId)
  | quotaLocked (row : EventRow) (limitPerWindow : LimitPerWindow)
  | judging (row : EventRow) (quotaState : Option QuotaState)
  | incremented (row : EventRow) (quotaState : Option QuotaState) (rollup : RollupRow)
  | conflicted
  | replayed (original : EventRecord)
  | answered (outcome : Except ServiceError EventCreationOutcome)

/-- The quota state forbids the event. -/
def Rejected (quotaState : Option QuotaState) (row : EventRow) : Prop :=
  ∃ state ∈ quotaState, state.Exceeded row.quantity

instance (quotaState : Option QuotaState) (row : EventRow) : Decidable (Rejected quotaState row) :=
  inferInstanceAs (Decidable (∃ state ∈ quotaState, _))

/-- One step of `create_event`; no result while a statement waits for another transaction. -/
def advance (txn : CallId) (payload : EventCreateRequest) (receivedAt : Instant) :
    Phase → Database → Option (Phase × Database)
  | .received, db => some (.begun db.now, db)
  | .begun startedAt, db => some (.inserting startedAt db.drawEventId.1, db.drawEventId.2)
  | .inserting startedAt id, db =>
    let row := payload.row receivedAt startedAt id
    match db.insertEventIfNew txn (payload.eventKey txn.apiKeyId) row with
    | none => none
    | some (none, db) => some (.conflicted, db)
    | some (some _, db) => some (.inserted row, db)
  -- `read_tenant_quota_state_locked`: the snapshot of the locking read, the lock, then the total.
  | .inserted row, db =>
    match db.quotaVersion (row.quotaKey txn.apiKeyId) with
    | none => some (.judging row none, db)
    | some version => some (.lockingQuota row version, db)
  | .lockingQuota row version, db =>
    match db.lockQuota txn (row.quotaKey txn.apiKeyId) version with
    | none => none
    | some (none, db) => some (.judging row none, db)
    | some (some limitPerWindow, db) => some (.quotaLocked row limitPerWindow, db)
  | .quotaLocked row limitPerWindow, db =>
    some (.judging row (some ⟨limitPerWindow, db.currentTotal (row.rollupKey txn.apiKeyId)⟩), db)
  | .judging row quotaState, db =>
    if Rejected quotaState row then
      some (.answered (.error (quotaExceededError
        (secondsUntilNextHourBoundary receivedAt (EventCreateRequest.windowStart receivedAt)))), db.rollback txn)
    else
      match db.incrementUsageRollup txn (row.rollupKey txn.apiKeyId) row.quantity with
      | none => none
      | some (rollup, db) => some (.incremented row quotaState rollup, db)
  | .incremented row _ _, db =>
    some (.answered (.ok ⟨row.record (payload.eventKey txn.apiKeyId), 201, false⟩), db.commit txn)
  | .conflicted, db =>
    match db.findEventByIdempotencyKey (payload.eventKey txn.apiKeyId) with
    | none => some (.answered (.error idempotencyRaceError), db.rollback txn)
    | some original => some (.replayed original, db)
  | .replayed original, db => some (.answered (.ok ⟨original, 200, true⟩), db.commit txn)
  | .answered _, _ => none

/-- Everything that one step of `create_event` can do. -/
inductive Advanced (txn : CallId) (payload : EventCreateRequest) (receivedAt : Instant) (db : Database) :
    Phase → Phase → Database → Prop
  | opens : Advanced txn payload receivedAt db .received (.begun db.now) db
  | draws {startedAt : Instant} :
      Advanced txn payload receivedAt db (.begun startedAt) (.inserting startedAt db.nextEventId)
        { db with nextEventId := db.nextEventId + 1 }
  | inserts {startedAt : Instant} {id : ℕ} (free : db.events.Free txn (payload.eventKey txn.apiKeyId))
      (fresh : db.events.find (payload.eventKey txn.apiKeyId) = none) :
      Advanced txn payload receivedAt db (.inserting startedAt id)
        (.inserted (payload.row receivedAt startedAt id))
        { db with
          events := db.events.hold txn (payload.eventKey txn.apiKeyId) (.write (payload.row receivedAt startedAt id)) }
  | conflicts {startedAt : Instant} {id : ℕ} {row : EventRow}
      (free : db.events.Free txn (payload.eventKey txn.apiKeyId))
      (found : db.events.find (payload.eventKey txn.apiKeyId) = some row) :
      Advanced txn payload receivedAt db (.inserting startedAt id) .conflicted db
  | seesNoQuota {row : EventRow} (absent : db.quotaVersion (row.quotaKey txn.apiKeyId) = none) :
      Advanced txn payload receivedAt db (.inserted row) (.judging row none) db
  | seesQuota {row : EventRow} {version : Option CallId}
      (seen : db.quotaVersion (row.quotaKey txn.apiKeyId) = some version) :
      Advanced txn payload receivedAt db (.inserted row) (.lockingQuota row version) db
  | losesQuota {row : EventRow} {version : Option CallId}
      (free : db.quotas.Free txn (row.quotaKey txn.apiKeyId))
      (gone : db.latestVersion (row.quotaKey txn.apiKeyId) version = none) :
      Advanced txn payload receivedAt db (.lockingQuota row version) (.judging row none) db
  | locksQuota {row : EventRow} {version : Option CallId} {quota : QuotaRow}
      (free : db.quotas.Free txn (row.quotaKey txn.apiKeyId))
      (latest : db.latestVersion (row.quotaKey txn.apiKeyId) version = some quota) :
      Advanced txn payload receivedAt db (.lockingQuota row version) (.quotaLocked row quota.limitPerWindow)
        { db with quotas := db.quotas.hold txn (row.quotaKey txn.apiKeyId) .keep }
  | readsTotal {row : EventRow} {limitPerWindow : LimitPerWindow} :
      Advanced txn payload receivedAt db (.quotaLocked row limitPerWindow)
        (.judging row (some ⟨limitPerWindow, db.currentTotal (row.rollupKey txn.apiKeyId)⟩)) db
  | rejects {row : EventRow} {quotaState : Option QuotaState} (rejected : Rejected quotaState row) :
      Advanced txn payload receivedAt db (.judging row quotaState)
        (.answered (.error (quotaExceededError
          (secondsUntilNextHourBoundary receivedAt (EventCreateRequest.windowStart receivedAt))))) (db.rollback txn)
  | increments {row : EventRow} {quotaState : Option QuotaState} (accepted : ¬ Rejected quotaState row)
      (free : db.usageRollup.Free txn (row.rollupKey txn.apiKeyId)) :
      Advanced txn payload receivedAt db (.judging row quotaState)
        (.incremented row quotaState
          (Database.bump (db.usageRollup.find (row.rollupKey txn.apiKeyId)) row.quantity))
        { db with
          usageRollup := db.usageRollup.hold txn (row.rollupKey txn.apiKeyId)
            (.write (Database.bump (db.usageRollup.find (row.rollupKey txn.apiKeyId)) row.quantity)) }
  | commits {row : EventRow} {quotaState : Option QuotaState} {rollup : RollupRow} :
      Advanced txn payload receivedAt db (.incremented row quotaState rollup)
        (.answered (.ok ⟨row.record (payload.eventKey txn.apiKeyId), 201, false⟩)) (db.commit txn)
  | finds {row : EventRow} (found : db.events.find (payload.eventKey txn.apiKeyId) = some row) :
      Advanced txn payload receivedAt db .conflicted (.replayed (row.record (payload.eventKey txn.apiKeyId))) db
  | findsNothing (missing : db.events.find (payload.eventKey txn.apiKeyId) = none) :
      Advanced txn payload receivedAt db .conflicted (.answered (.error idempotencyRaceError)) (db.rollback txn)
  | replays {original : EventRecord} :
      Advanced txn payload receivedAt db (.replayed original) (.answered (.ok ⟨original, 200, true⟩))
        (db.commit txn)

theorem advanced_of_advance {txn : CallId} {payload : EventCreateRequest} {receivedAt : Instant}
    {phase after : Phase} {db next : Database}
    (moves : advance txn payload receivedAt phase db = some (after, next)) :
    Advanced txn payload receivedAt db phase after next := by
  cases phase with
  | received =>
    obtain ⟨rfl, rfl⟩ := moves
    exact .opens
  | begun startedAt =>
    obtain ⟨rfl, rfl⟩ := moves
    exact .draws
  | inserting startedAt id =>
    simp only [advance, Database.insertEventIfNew] at moves
    split_ifs at moves with free
    cases found : db.events.find (payload.eventKey txn.apiKeyId) with
    | some row =>
      simp only [found, Option.some.injEq, Prod.mk.injEq] at moves
      obtain ⟨rfl, rfl⟩ := moves
      exact .conflicts free found
    | none =>
      simp only [found, Option.some.injEq, Prod.mk.injEq] at moves
      obtain ⟨rfl, rfl⟩ := moves
      exact .inserts free found
  | inserted row =>
    simp only [advance] at moves
    split at moves
    · next absent =>
      obtain ⟨rfl, rfl⟩ := moves
      exact .seesNoQuota absent
    · next seen =>
      obtain ⟨rfl, rfl⟩ := moves
      exact .seesQuota seen
  | lockingQuota row version =>
    simp only [advance, Database.lockQuota] at moves
    split_ifs at moves with free
    cases latest : db.latestVersion (row.quotaKey txn.apiKeyId) version with
    | none =>
      simp only [latest, Option.some.injEq, Prod.mk.injEq] at moves
      obtain ⟨rfl, rfl⟩ := moves
      exact .losesQuota free latest
    | some quota =>
      simp only [latest, Option.some.injEq, Prod.mk.injEq] at moves
      obtain ⟨rfl, rfl⟩ := moves
      exact .locksQuota free latest
  | quotaLocked row limitPerWindow =>
    obtain ⟨rfl, rfl⟩ := moves
    exact .readsTotal
  | judging row quotaState =>
    simp only [advance, Database.incrementUsageRollup] at moves
    split_ifs at moves with rejected free
    · obtain ⟨rfl, rfl⟩ := moves
      exact .rejects rejected
    · obtain ⟨rfl, rfl⟩ := moves
      exact .increments rejected free
  | incremented row quotaState rollup =>
    obtain ⟨rfl, rfl⟩ := moves
    exact .commits
  | conflicted =>
    simp only [advance, Database.findEventByIdempotencyKey] at moves
    cases found : db.events.find (payload.eventKey txn.apiKeyId) with
    | none =>
      simp only [found, Option.map_none, Option.some.injEq, Prod.mk.injEq] at moves
      obtain ⟨rfl, rfl⟩ := moves
      exact .findsNothing found
    | some row =>
      simp only [found, Option.map_some, Option.some.injEq, Prod.mk.injEq] at moves
      obtain ⟨rfl, rfl⟩ := moves
      exact .finds found
  | replayed original =>
    obtain ⟨rfl, rfl⟩ := moves
    exact .replays
  | answered outcome => contradiction

end CreateEvent

end Meterly
