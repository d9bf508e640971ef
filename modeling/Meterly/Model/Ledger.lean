import Meterly.Store.View
import Meterly.Model.System

/-! # The ledger

What the service is for, with one call at a time: a log of events, at most one under each key of a
tenant, and the limits that the tenants have set. Nothing else is kept; a total is the sum of the
events it stands for, and an export or a listing is read from tables derived anew. A call is served
with the answer it was given, or not at all where the ledger would have answered otherwise.

The ledger leaves some things open. It does not say which number an event is given. It does not ask an event
that is answered 201 to fit a limit: the service may accept one while the limit is being set. And it does not
ask an export that is answered 200 to be within the row cap: its rows may have come in behind the count, and
the body is then cut at the cap.
-/

namespace Meterly

/-- The log of events and the limits in force. -/
structure Ledger where
  events : Rows EventKey EventRow
  limits : Rows QuotaKey LimitPerWindow

/-- The row without the time that its transaction began. -/
def EventRow.forgetTime (row : EventRow) : EventRow := { row with eventTime := 0 }

namespace Ledger

/-- The exact sum of the events of a bucket. -/
def total (ledger : Ledger) (bucket : RollupKey) : ℕ :=
  ((ledger.events.entries.filter fun entry => entry.2.rollupKey entry.1.apiKeyId = bucket).map fun entry =>
    entry.2.quantity.micros).sum

/-- There is a limit, and the event would exceed it. -/
def Refuses (ledger : Ledger) (apiKeyId : ℕ) (payload : EventCreateRequest) (receivedAt : Instant) : Prop :=
  ∃ limit ∈ ledger.limits.lookup (payload.quotaKey apiKeyId), limit.value * 10 ^ 6 <
    ledger.total ⟨apiKeyId, payload.customerId, payload.metric, EventCreateRequest.windowStart receivedAt⟩ +
      payload.quantity.micros

instance (ledger : Ledger) (apiKeyId : ℕ) (payload : EventCreateRequest) (receivedAt : Instant) :
    Decidable (ledger.Refuses apiKeyId payload receivedAt) :=
  inferInstanceAs (Decidable (∃ limit ∈ ledger.limits.lookup _, _))

/-- Freshly migrated tables that hold the ledger. -/
def database (collation : Collation) (ledger : Ledger) : Database :=
  .atRest collation 0 0 (.afterMigration ledger.events (ledger.limits.view (fun _ => true) fun limit => ⟨limit, none⟩))

/-- The ledger after a call that ended with this answer, if that is how the ledger would have served it. -/
def serve (collation : Collation) (ledger : Ledger) : CallId × Call → Option Ledger
  | (txn, .createEvent payload receivedAt (.answered outcome)) =>
    let key := payload.eventKey txn.apiKeyId
    match outcome, ledger.events.lookup key with
    | .ok created, none =>
      let row := payload.row receivedAt 0 created.record.id
      if created = ⟨row.record key, 201, false⟩ then some { ledger with events := ledger.events.insert key row }
      else none
    | .ok replayed, some row => if replayed = ⟨row.record key, 200, true⟩ then some ledger else none
    | .error error, none =>
      let retryAfter := secondsUntilNextHourBoundary receivedAt (EventCreateRequest.windowStart receivedAt)
      if ledger.Refuses txn.apiKeyId payload receivedAt ∧ error = quotaExceededError retryAfter then some ledger
      else none
    | .error _, some _ => none
  | (txn, .upsertQuota payload (.answered (.ok outcome))) =>
    let key := payload.quotaKey txn.apiKeyId
    let status := if (ledger.limits.lookup key).isSome then 200 else 201
    if outcome = ⟨payload.customerId, payload.metric, payload.limitPerWindow, status⟩ then
      some { ledger with limits := ledger.limits.insert key payload.limitPerWindow }
    else none
  | (txn, .deleteQuota params (.answered outcome)) =>
    let key := params.quotaKey txn.apiKeyId
    match outcome, ledger.limits.lookup key with
    | .ok (), some _ => some { ledger with limits := ledger.limits.erase key }
    | .error error, none => if error = quotaNotFound then some ledger else none
    | _, _ => none
  | (txn, .listQuotas (.answered (.ok response))) =>
    if response = ListQuotas.respond () (ListQuotas.statement txn.apiKeyId () (ledger.database collation)) then
      some ledger
    else none
  | (txn, .getUsage query (.answered (.ok response))) =>
    if response = GetUsage.respond query () (GetUsage.statement txn.apiKeyId query () (ledger.database collation)) then
      some ledger
    else none
  | (txn, .getDailyUsage date receivedAt (.answered outcome)) =>
    match outcome, parseDailyDate date receivedAt with
    | .ok response, .ok window =>
      if response = GetDailyUsage.respond window
        (GetDailyUsage.statement txn.apiKeyId window (ledger.database collation)) then some ledger else none
    | .error error, .error raised => if error = raised then some ledger else none
    | _, _ => none
  | (txn, .exportUsage params (.answered outcome)) =>
    match outcome with
    | .ok body =>
      if body = streamExportCsv ((ledger.database collation).streamUsageRollups txn.apiKeyId params maxExportRows) then
        some ledger
      else none
    | .error error =>
      if error = exportTooLarge ∧ maxExportRows < (ledger.database collation).countUsageRollups txn.apiKeyId params then
        some ledger
      else none
  | _ => none

end Ledger

/-- The ledger that the published tables hold. -/
def Database.ledger (db : Database) : Ledger :=
  ⟨db.events.committed.view (fun _ => true) EventRow.forgetTime,
    db.quotas.committed.view (fun _ => true) QuotaRow.limitPerWindow⟩

namespace Call

/-- A call that has ended and was not broken off. -/
def isServed : Call → Bool
  | createEvent _ _ (.answered (.error .interrupted)) | upsertQuota _ (.answered (.error .interrupted))
  | deleteQuota _ (.answered (.error .interrupted)) | listQuotas (.answered (.error .interrupted))
  | getUsage _ (.answered (.error .interrupted)) | getDailyUsage _ _ (.answered (.error .interrupted))
  | exportUsage _ (.answered (.error .interrupted)) => false
  | call => call.isAnswered

end Call

end Meterly
