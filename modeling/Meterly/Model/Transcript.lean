import Meterly.Model.RequestLog
import Meterly.Soundness.AuditLog

/-! # What each call is told

The interleaved services and the services of one request are two readings of the same code: the first act on
the database that all share, the second on replies that are given to them. This machine runs the first and
notes for every call what the database has replied to it, and what it has logged. A reply that has not come
stands as a cancellation.
-/

namespace Meterly

/-! ## Replies -/

/-- A reply that has not come. -/
def unheard {α : Type} : Except StatementFailure α := .error (.interrupted .cancelled)

/-- What a statement has replied, beside what it has done. -/
def replyOf {α β : Type} (executed : Option (α × β)) : Except StatementFailure α :=
  executed.elim unheard fun result => .ok result.1

def SessionReplies.unheard : SessionReplies := ⟨.error .cancelled, .error .cancelled⟩

def SingleReply.unheard {α : Type} : SingleReply α := ⟨.unheard, Meterly.unheard⟩

def CreateEventReplies.unheard : CreateEventReplies :=
  ⟨.unheard, Meterly.unheard, Meterly.unheard, Meterly.unheard, Meterly.unheard, Meterly.unheard⟩

def ExportReplies.unheard : ExportReplies := ⟨.unheard, [], Meterly.unheard, 0⟩

/-- The route of a request to which nothing has been replied. -/
def Request.unanswered : Request → Route
  | createEvent payload receivedAt => .postEvent payload receivedAt .unheard
  | upsertQuota payload => .putQuota payload .unheard
  | deleteQuota params => .deleteQuota params .unheard
  | listQuotas => .listQuotas .unheard
  | getUsage query => .getUsage query .unheard
  | getDailyUsage date receivedAt => .getUsageDaily date receivedAt .unheard
  | exportUsage params => .getUsageExport params .unheard

/-- The request of a route. -/
def Route.request : Route → Request
  | postEvent payload receivedAt _ => .createEvent payload receivedAt
  | putQuota payload _ => .upsertQuota payload
  | listQuotas _ => .listQuotas
  | deleteQuota params _ => .deleteQuota params
  | getUsage query _ => .getUsage query
  | getUsageDaily date now _ => .getDailyUsage date now
  | getUsageExport params _ => .exportUsage params

/-! ## What the next step of a service is told -/

def CreateEvent.hear (txn : CallId) (payload : EventCreateRequest) (receivedAt : Instant) (db : Database)
    (replies : CreateEventReplies) : Phase → CreateEventReplies
  | .received => { replies with session.opened := .ok () }
  | .inserting startedAt id =>
    { replies with
      insertEventIfNew := replyOf
        (db.insertEventIfNew txn (payload.eventKey txn.apiKeyId) (payload.row receivedAt startedAt id)) }
  -- A locking read whose snapshot shows no row replies at once; else it replies when it has the lock.
  | .inserted row =>
    if db.quotaVersion (row.quotaKey txn.apiKeyId) = none then { replies with lockQuota := .ok none } else replies
  | .lockingQuota row version =>
    { replies with lockQuota := replyOf (db.lockQuota txn (row.quotaKey txn.apiKeyId) version) }
  | .quotaLocked row _ => { replies with readCurrentTotal := .ok (db.currentTotal (row.rollupKey txn.apiKeyId)) }
  | .judging row quotaState =>
    if Rejected quotaState row then replies
    else
      { replies with
        incrementUsageRollup :=
          (replyOf (db.incrementUsageRollup txn (row.rollupKey txn.apiKeyId) row.quantity)).map fun _ => () }
  | .conflicted =>
    { replies with findEventByIdempotencyKey := .ok (db.findEventByIdempotencyKey (payload.eventKey txn.apiKeyId)) }
  | .incremented .. | .replayed _ => { replies with session.committed := .ok () }
  | .begun _ | .answered _ => replies

def UpsertQuota.hear (txn : CallId) (payload : QuotaPutRequest) (db : Database) (replies : SingleReply QuotaRecord) :
    Phase → SingleReply QuotaRecord
  | .received => { replies with session.opened := .ok () }
  | .begun =>
    { replies with reply := replyOf (db.upsertQuota txn (payload.quotaKey txn.apiKeyId) payload.limitPerWindow) }
  | .written .. => { replies with session.committed := .ok () }
  | .answered _ => replies

def DeleteQuota.hear (txn : CallId) (params : QuotaDeleteParams) (db : Database) (replies : SingleReply Bool) :
    Phase → SingleReply Bool
  | .received => { replies with session.opened := .ok () }
  | .begun =>
    if db.quotaVersion (params.quotaKey txn.apiKeyId) = none then { replies with reply := .ok false } else replies
  | .deleting version => { replies with reply := replyOf (db.deleteQuota txn (params.quotaKey txn.apiKeyId) version) }
  | .removed _ => { replies with session.committed := .ok () }
  | .answered _ => replies

def Reading.hear {Args Result Response : Type} (args : Except ServiceError Args)
    (statement : Args → Database → Result) (db : Database) (replies : SingleReply Result) :
    Phase Args Result Response → SingleReply Result
  | .received =>
    match args with
    | .error _ => replies
    | .ok _ => { replies with session.opened := .ok () }
  | .begun args => { replies with reply := .ok (statement args db) }
  | .read .. => { replies with session.committed := .ok () }
  | .answered _ => replies

/-- The server asks for the header, and then for more chunks than there are. -/
def ExportUsage.hear (txn : CallId) (params : UsageExportQueryParams) (db : Database) (replies : ExportReplies) :
    Phase → ExportReplies
  | .received => { replies with count.session.opened := .ok () }
  | .begun => { replies with count.reply := .ok (db.countUsageRollups txn.apiKeyId params) }
  | .counted _ => { replies with count.session.committed := .ok () }
  | .prepared => { replies with pulls := 1 }
  | .streamBegun => { replies with records := db.streamUsageRollups txn.apiKeyId params maxExportRows }
  | .streaming records => { replies with ending := .ok (), pulls := records.length + 3 }
  | .headerSent | .answered _ => replies

/-- The route behind the next step of its call. -/
def Route.hear (txn : CallId) (db : Database) : Call → Route → Route
  | .createEvent payload receivedAt phase, postEvent _ _ replies =>
    postEvent payload receivedAt (CreateEvent.hear txn payload receivedAt db replies phase)
  | .upsertQuota payload phase, putQuota _ replies => putQuota payload (UpsertQuota.hear txn payload db replies phase)
  | .deleteQuota params phase, deleteQuota _ replies => deleteQuota params (DeleteQuota.hear txn params db replies phase)
  | .listQuotas phase, listQuotas replies =>
    listQuotas (Reading.hear (.ok ()) (ListQuotas.statement txn.apiKeyId) db replies phase)
  | .getUsage query phase, getUsage _ replies =>
    getUsage query (Reading.hear (.ok ()) (GetUsage.statement txn.apiKeyId query) db replies phase)
  | .getDailyUsage date receivedAt phase, getUsageDaily _ _ replies =>
    getUsageDaily date receivedAt
      (Reading.hear (parseDailyDate date receivedAt) (GetDailyUsage.statement txn.apiKeyId) db replies phase)
  | .exportUsage params phase, getUsageExport _ replies =>
    getUsageExport params (ExportUsage.hear txn params db replies phase)
  | _, route => route

/-- What `create_event` has been told when it is broken off. Its verdict waits for nothing: a cancellation ahead of
the verdict has come in place of the total. -/
def CreateEvent.breakOff (replies : CreateEventReplies) : Phase → CreateEventReplies
  | .judging .. => { replies with readCurrentTotal := unheard }
  | _ => replies

/-- The route of a call that is broken off. -/
def Route.breakOff : Call → Route → Route
  | .createEvent _ _ phase, postEvent payload receivedAt replies =>
    postEvent payload receivedAt (CreateEvent.breakOff replies phase)
  | _, route => route

/-! ## The machine -/

/-- The line of an export that was streamed to its end. -/
def UsageExportLine.ofBody (apiKeyId : ℕ) (params : UsageExportQueryParams) (body : ExportBody) : UsageExportLine :=
  ⟨apiKeyId, "read", "usage_rollup", body.rowCount, body.capped, body.completed, params.customerId.isSome,
    params.metric.isSome, params.windowFrom.isSome, params.windowTo.isSome⟩

/-- The lines of a reading service stand behind its transaction. -/
def Reading.logged {Args Result Response : Type} (lines : Args → Result → List LogCall) :
    Phase Args Result Response → Phase Args Result Response → List LogCall
  | .read args result, .answered _ => lines args result
  | _, _ => []

def GetUsage.logged (txn : CallId) : Phase → Phase → List LogCall :=
  Reading.logged fun _ rollup => [.usageRead txn.apiKeyId rollup.isSome]

def GetDailyUsage.logged (txn : CallId) : Phase → Phase → List LogCall :=
  Reading.logged fun window records => [.usageDailyRead txn.apiKeyId window.dateStr records.length]

/-- The line of `prepare_export`, or that of a body that was streamed to its end. -/
def ExportUsage.logged (txn : CallId) (params : UsageExportQueryParams) : Phase → Phase → List LogCall
  | .counted _, .answered _ => [.usageExportRejected txn.apiKeyId]
  | .streaming _, .answered (.ok body) => [.usageExport (.ofBody txn.apiKeyId params body)]
  | _, _ => []

/-- The lines of a service that takes a step. -/
def Call.spoken (txn : CallId) : Call → Call → List LogCall
  | getUsage _ before, getUsage _ after => GetUsage.logged txn before after
  | getDailyUsage _ _ before, getDailyUsage _ _ after => GetDailyUsage.logged txn before after
  | exportUsage params before, exportUsage _ after => ExportUsage.logged txn params before after
  | before, after => before.logged txn after

/-- The system, what has been logged, and what each call has been told. -/
structure Transcript where
  system : State
  lines : List (CallId × LogCall)
  routes : CallId → Option Route

namespace Transcript

def init (db : Database) : Transcript := ⟨.init db, [], fun _ => none⟩

/-- A call is broken off. -/
def breakOff (s : Transcript) (txn : CallId) (next : State) : Transcript :=
  { s with
    system := next
    routes := Function.update s.routes txn ((s.routes txn).map (Route.breakOff (s.system.calls txn))) }

/-- A step of the system, with what it tells its call and what that logs. -/
def record (s : Transcript) (next : State) : Action → Transcript
  | .start txn request => { s with system := next, routes := Function.update s.routes txn (some request.unanswered) }
  | .advance txn => ⟨next,
      s.lines ++ ((s.system.calls txn).spoken txn (next.calls txn)).map (Prod.mk txn),
      Function.update s.routes txn ((s.routes txn).map (Route.hear txn s.system.db (s.system.calls txn)))⟩
  | .interrupt txn => s.breakOff txn next
  | .tick _ => { s with system := next }

/-- Execute one action, if it is enabled; the caller of a lost `COMMIT` hears nothing of it. -/
def step (s : Transcript) : AuditAction → Option Transcript
  | .act a => (Meterly.step s.system a).map fun next => s.record next a
  | .lostCommit txn =>
    if (s.system.calls txn).commits then
      some (s.breakOff txn (s.system.record txn (s.system.calls txn).interrupt (s.system.db.commit txn)))
    else none

end Transcript

/-! ## What a call comes to -/

/-- A route with its whole response: the status, behind the body. -/
def Route.served (principal : AuthenticatedPrincipal) (route : Route) : Serving ℕ := do
  let response ← route.serve principal
  response.body
  return response.statusCode

/-- What a reading call has come to. One that is broken off may not have begun to read, or may have begun to
respond. -/
def readVerdict {α : Type} : Except ServiceError α → Option (Except ServiceError ℕ)
  | .error .interrupted => none
  | outcome => some (outcome.map fun _ => 200)

/-- What a call has come to, as a status or an error. -/
def Call.verdict : Call → Option (Except ServiceError ℕ)
  | createEvent _ _ (.answered outcome) => some (outcome.map EventCreationOutcome.httpStatus)
  | upsertQuota _ (.answered outcome) => some (outcome.map QuotaUpsertOutcome.httpStatus)
  | deleteQuota _ (.answered outcome) => some (outcome.map fun _ => 204)
  | listQuotas (.answered outcome) => readVerdict outcome
  | getUsage _ (.answered outcome) => readVerdict outcome
  | getDailyUsage _ _ (.answered outcome) => readVerdict outcome
  | exportUsage _ (.answered outcome) => readVerdict outcome
  | _ => none

end Meterly
