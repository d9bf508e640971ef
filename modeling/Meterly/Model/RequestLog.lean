import Meterly.Auth.RateLimit
import Meterly.Auth.RequireApiKey
import Meterly.Machine.Logged
import Meterly.Model.BoundParameters
import Meterly.Model.Logging

/-! # What a request logs

The handlers, the dependencies and the middleware as computations that log: each `logger` call stands where
the source makes it, and what the database, Redis and the guard reply is an input. A request ends with a
response, whose body may still log, or with something raised that no handler answers.
-/

namespace Meterly

/-- An exception that carries no parameters of a statement. -/
structure OtherError where
  errorType : String
  message : String
deriving DecidableEq, Repr

/-- What can come in place of a reply: an exception, or the cancellation of the task. -/
inductive Interruption where
  | raised (error : OtherError)
  | cancelled
deriving DecidableEq, Repr

/-- What comes in place of the rows of a statement. -/
inductive StatementFailure where
  | failed (error : StatementError)
  | interrupted (interruption : Interruption)
deriving DecidableEq, Repr

/-- What a request raises. -/
inductive Raised where
  | service (error : ServiceError)
  | requestValidation (errorCount : ℕ)
  | failedStatement (apiKeyId : ℕ) (statement : Statement) (error : StatementError)
  | other (error : OtherError)

def Interruption.raise : Interruption → Raised
  | raised error => .other error
  | cancelled => .service .interrupted

/-- A computation of the process, with the calls it makes of the logger. -/
abbrev Serving := Logged LogCall Raised

/-- A statement, with what the database replies. -/
def execute {α : Type} (apiKeyId : ℕ) (statement : Statement) (reply : Except StatementFailure α) : Serving α :=
  .ofExcept (reply.mapError fun failure =>
    match failure with
    | .failed error => .failedStatement apiKeyId statement error
    | .interrupted interruption => interruption.raise)

/-- What the ends of a transaction come to: the connection, `BEGIN` and `set_config`, and the `COMMIT`. -/
structure SessionReplies where
  opened : Except Interruption Unit
  committed : Except Interruption Unit
deriving DecidableEq, Repr

/-- `scoped_transaction` -/
def scopedTransaction {α : Type} (session : SessionReplies) (body : Serving α) : Serving α := do
  Logged.ofExcept (session.opened.mapError Interruption.raise)
  let value ← body
  Logged.ofExcept (session.committed.mapError Interruption.raise)
  return value

/-! ## `events_service.py` -/

/-- What the statements of `create_event` reply. -/
structure CreateEventReplies where
  session : SessionReplies
  insertEventIfNew : Except StatementFailure (Option EventRecord)
  lockQuota : Except StatementFailure (Option LimitPerWindow)
  readCurrentTotal : Except StatementFailure Decimal
  incrementUsageRollup : Except StatementFailure Unit
  findEventByIdempotencyKey : Except StatementFailure (Option EventRecord)
deriving DecidableEq, Repr

/-- `read_tenant_quota_state_locked` -/
def readTenantQuotaStateLocked (apiKeyId : ℕ) (replies : CreateEventReplies) (inserted : EventRecord) :
    Serving (Option QuotaState) := do
  match ← execute apiKeyId (.lockQuota inserted.customerId inserted.metric) replies.lockQuota with
  | none => return none
  | some limitPerWindow =>
    let currentTotal ← execute apiKeyId
      (.readCurrentTotal inserted.customerId inserted.metric inserted.windowStart) replies.readCurrentTotal
    return some ⟨limitPerWindow, currentTotal⟩

/-- What `create_event` does with an event that it has inserted. -/
def admitInserted (principal : AuthenticatedPrincipal) (receivedAt : Instant) (replies : CreateEventReplies)
    (inserted : EventRecord) : Serving ℕ := do
  let quotaState ← readTenantQuotaStateLocked principal.apiKeyId replies inserted
  if ∃ state ∈ quotaState, state.Exceeded inserted.quantity then
    Logged.emit (.quotaRejected principal.apiKeyId inserted.customerId inserted.metric)
    throw (.service (quotaExceededError
      (secondsUntilNextHourBoundary receivedAt (EventCreateRequest.windowStart receivedAt))))
  else
    execute principal.apiKeyId (.incrementUsageRollup inserted.customerId inserted.metric inserted.windowStart
      inserted.quantity) replies.incrementUsageRollup
    Logged.emit (.eventCreate principal.apiKeyId "create" inserted.id false)
    return 201

/-- What `create_event` does with an event that is there already. -/
def replayOriginal (principal : AuthenticatedPrincipal) (payload : EventCreateRequest) (replies : CreateEventReplies) :
    Serving ℕ := do
  match ← execute principal.apiKeyId (.findEventByIdempotencyKey payload.idempotencyKey)
      replies.findEventByIdempotencyKey with
  | none => throw (.service idempotencyRaceError)
  | some original =>
    Logged.emit (.eventCreate principal.apiKeyId "read" original.id true)
    return 200

/-- `create_event`, with the status of its outcome. -/
def createEvent (principal : AuthenticatedPrincipal) (payload : EventCreateRequest) (receivedAt : Instant)
    (replies : CreateEventReplies) : Serving ℕ :=
  scopedTransaction replies.session do
    match ← execute principal.apiKeyId
        (.insertEventIfNew payload (EventCreateRequest.windowStart receivedAt)) replies.insertEventIfNew with
    | some inserted => admitInserted principal receivedAt replies inserted
    | none => replayOriginal principal payload replies

/-! ## `quota_service.py` -/

/-- What the one statement of a service replies, with the ends of its transaction. -/
structure SingleReply (α : Type) where
  session : SessionReplies
  reply : Except StatementFailure α
deriving DecidableEq, Repr

/-- A transaction around one statement. -/
def single {α : Type} (principal : AuthenticatedPrincipal) (statement : Statement) (replies : SingleReply α) :
    Serving α :=
  scopedTransaction replies.session (execute principal.apiKeyId statement replies.reply)

/-- `upsert_tenant_quota` -/
def upsertTenantQuota (principal : AuthenticatedPrincipal) (payload : QuotaPutRequest)
    (replies : SingleReply QuotaRecord) : Serving ℕ := do
  let record ← single principal (.upsertQuota payload.customerId payload.metric payload.limitPerWindow) replies
  Logged.emit (.quotaUpsert principal.apiKeyId record.inserted record.customerId record.metric record.limitPerWindow)
  return if record.inserted then 201 else 200

/-- `list_tenant_quotas` -/
def listTenantQuotas (principal : AuthenticatedPrincipal) (replies : SingleReply (List QuotaListItem)) : Serving ℕ := do
  let _ ← single principal .listQuotas replies
  return 200

/-- `delete_tenant_quota` -/
def deleteTenantQuota (principal : AuthenticatedPrincipal) (params : QuotaDeleteParams) (replies : SingleReply Bool) :
    Serving ℕ := do
  let removed ← single principal (.deleteQuota params.customerId params.metric) replies
  if removed then
    Logged.emit (.quotaDelete principal.apiKeyId params.customerId params.metric)
    return 204
  else throw (.service quotaNotFound)

/-! ## `usage_service.py` and `usage_daily_service.py` -/

/-- `get_usage` -/
def getUsage (principal : AuthenticatedPrincipal) (query : UsageQueryParams)
    (replies : SingleReply (Option RollupRow)) : Serving ℕ := do
  let rollup ← single principal (.findUsageRollup query.customerId query.metric (GetUsage.windowStart query)) replies
  Logged.emit (.usageRead principal.apiKeyId rollup.isSome)
  return 200

/-- `get_daily_usage` -/
def getDailyUsage (principal : AuthenticatedPrincipal) (date : Option String) (now : Instant)
    (replies : SingleReply (List DailyMetricCount)) : Serving ℕ := do
  let window ← Logged.ofExcept ((parseDailyDate date now).mapError .service)
  let records ← single principal (.aggregateDailyEventCounts window.dayStart window.dayEnd) replies
  Logged.emit (.usageDailyRead principal.apiKeyId window.dateStr records.length)
  return 200

/-! ## `usage_export_service.py` -/

/-- What the count and the stream of an export reply: the records, what comes behind the last of them, and how
often the server asks for a chunk before the client is gone. -/
structure ExportReplies where
  count : SingleReply ℕ
  records : List UsageRollupExportRecord
  ending : Except StatementFailure Unit
  pulls : ℕ
deriving DecidableEq, Repr

/-- `prepare_export` -/
def prepareExport (principal : AuthenticatedPrincipal) (params : UsageExportQueryParams) (count : SingleReply ℕ) :
    Serving Unit := do
  let rowCount ← single principal (.countUsageRollups params) count
  if maxExportRows < rowCount then
    Logged.emit (.usageExportRejected principal.apiKeyId)
    throw (.service exportTooLarge)

/-- The generator of an export, as the server pulls it. -/
def exportCall (principal : AuthenticatedPrincipal) (params : UsageExportQueryParams) (replies : ExportReplies) :
    ExportCall :=
  ⟨principal.apiKeyId, params, replies.records, !replies.ending.isOk⟩

/-- The body of an export: its generator runs to its end, or is closed at a `yield`. -/
def exportBody (principal : AuthenticatedPrincipal) (params : UsageExportQueryParams) (replies : ExportReplies) :
    Serving Unit :=
  let call := exportCall principal params replies
  let generator := call.pulled (List.replicate replies.pulls .next)
  if generator.place = .finished then do
    generator.logged.forM fun line => Logged.emit (.usageExport line)
    execute principal.apiKeyId (.streamUsageRollups params maxExportRows) replies.ending
  else (generator.close call).logged.forM fun line => Logged.emit (.usageExport line)

/-! ## The dependencies of the routes -/

/-- What the guard finds. -/
inductive GuardReply where
  | missingOrMalformedHeader
  | malformedToken
  | cacheHit (principal : AuthenticatedPrincipal)
  | interrupted (interruption : Interruption)
  | verificationFailed
  | verified (principal : AuthenticatedPrincipal)
deriving DecidableEq, Repr

/-- `require_api_key` -/
def requireApiKey : GuardReply → Serving AuthenticatedPrincipal
  | .missingOrMalformedHeader => do
    Logged.emit (.apiKeyDenied "missing_or_malformed_header")
    throw (.service (.http (RequireApiKey.unauthorized "authentication required")))
  | .malformedToken => do
    Logged.emit (.apiKeyDenied "malformed_token")
    throw (.service (.http (RequireApiKey.unauthorized "invalid API key")))
  | .cacheHit principal => do
    Logged.emit (.apiKeyAllowed principal.apiKeyId "cache_hit")
    return principal
  | .interrupted interruption => throw interruption.raise
  | .verificationFailed => do
    Logged.emit (.apiKeyDenied "verification_failed")
    throw (.service (.http (RequireApiKey.unauthorized "invalid API key")))
  | .verified principal => do
    Logged.emit (.apiKeyAllowed principal.apiKeyId "verified")
    return principal

/-- What a limiter replies; any exception of it is caught. -/
inductive LimiterReply where
  | unavailable
  | cancelled
  | decided (decision : RateLimitDecision)
deriving DecidableEq, Repr

/-- `enforce_tier2_rate_limit` -/
def tier2RateLimit (path : String) (principal : AuthenticatedPrincipal) : LimiterReply → Serving Unit
  | .unavailable => Logged.emit (.ratelimitBackendUnavailable path "tier2")
  | .cancelled => throw (.service .interrupted)
  | .decided decision =>
    match enforceTier2RateLimit (some decision) with
    | .ok () => return ()
    | .error exception => do
      Logged.emit (.ratelimitExceeded (.int principal.apiKeyId) path "tier2_bucket_exhausted")
      throw (.service (.http exception))

/-- The scope check of `_require_admin_and_throttled`. -/
def requireAdmin (principal : AuthenticatedPrincipal) : Serving Unit :=
  if principal.scope = .admin then return ()
  else do
    Logged.emit (.quotaForbidden principal.apiKeyId)
    throw (.service (.http ⟨403, none, "admin scope required", []⟩))

/-! ## The routes -/

/-- A route with its validated parameters and what is replied to it. -/
inductive Route where
  | postEvent (payload : EventCreateRequest) (receivedAt : Instant) (replies : CreateEventReplies)
  | putQuota (payload : QuotaPutRequest) (replies : SingleReply QuotaRecord)
  | listQuotas (replies : SingleReply (List QuotaListItem))
  | deleteQuota (params : QuotaDeleteParams) (replies : SingleReply Bool)
  | getUsage (query : UsageQueryParams) (replies : SingleReply (Option RollupRow))
  | getUsageDaily (date : Option String) (now : Instant) (replies : SingleReply (List DailyMetricCount))
  | getUsageExport (params : UsageExportQueryParams) (replies : ExportReplies)

/-- A response: its status, and its body, which is produced while it is sent. -/
structure Response where
  statusCode : ℕ
  body : Serving Unit

namespace Route

/-- The routes that depend on `_require_admin_and_throttled`. -/
def adminOnly : Route → Bool
  | putQuota .. | listQuotas .. | deleteQuota .. => true
  | _ => false

/-- The dependency of a route behind the guard and the limiter, where it has one. -/
def authorize (principal : AuthenticatedPrincipal) (route : Route) : Serving Unit :=
  if route.adminOnly then requireAdmin principal else return ()

/-- The endpoint of a route. -/
def serve (principal : AuthenticatedPrincipal) : Route → Serving Response
  | postEvent payload receivedAt replies => do return ⟨← createEvent principal payload receivedAt replies, pure ()⟩
  | putQuota payload replies => do return ⟨← upsertTenantQuota principal payload replies, pure ()⟩
  | listQuotas replies => do return ⟨← listTenantQuotas principal replies, pure ()⟩
  | deleteQuota params replies => do return ⟨← deleteTenantQuota principal params replies, pure ()⟩
  | getUsage query replies => do return ⟨← Meterly.getUsage principal query replies, pure ()⟩
  | getUsageDaily date now replies => do return ⟨← getDailyUsage principal date now replies, pure ()⟩
  | getUsageExport params replies => do
    prepareExport principal params replies.count
    return ⟨200, exportBody principal params replies⟩

end Route

/-! ## The stack around the routes -/

/-- A request to one of the guarded routes, with what its parts find and what is replied to it. Its body parses or is
refused with a `JSONDecodeError`; what FastAPI answers to undecodable bytes is not among it. -/
structure Exchange where
  method : String
  path : String
  tooLarge : Bool
  tier1 : LimiterReply
  invalidJson : Bool
  guard : GuardReply
  tier2 : LimiterReply
  validationErrors : ℕ
  route : Route

/-- What is not the request's: its correlation ids, the clock, and how Python writes values and tracebacks. -/
structure LogContext where
  requestId : String
  traceId : String
  timestamp : ℕ → String
  duration : String
  reprOther : SqlValue → List Char
  traceback : OtherError → String

/-- `str` and traceback of what is raised, behind the class name; cancellations are no `Exception`, and what
the exception handlers answer does not come this far. -/
def Raised.report (context : LogContext) (hide : Bool) : Raised → Option (String × String × String)
  | failedStatement apiKeyId statement error =>
    let bound := statement.bound apiKeyId
    some (error.errorType, String.ofList (error.message context.reprOther hide bound),
      String.ofList (error.traceback context.reprOther hide bound))
  | other error => some (error.errorType, error.message, context.traceback error)
  | service (.idempotencyRace message) =>
    let error : OtherError := ⟨"IdempotencyRaceError", message⟩
    some (error.errorType, message, context.traceback error)
  | service (.overflowError message) =>
    let error : OtherError := ⟨"OverflowError", message⟩
    some (error.errorType, message, context.traceback error)
  | service (.http _) | service .interrupted | requestValidation _ => none

namespace Exchange

variable (context : LogContext) (hide : Bool) (exchange : Exchange)

/-- The route behind its body, its dependencies and its validation, in the order of FastAPI. -/
def endpoint : Serving Response := do
  if exchange.invalidJson then throw (.requestValidation 1)
  else
    let principal ← requireApiKey exchange.guard
    tier2RateLimit exchange.path principal exchange.tier2
    exchange.route.authorize principal
    if exchange.validationErrors = 0 then exchange.route.serve principal
    else throw (.requestValidation exchange.validationErrors)

/-- `handle_http_exception` and `handle_validation_error` -/
def exceptionHandlers : Serving Response :=
  tryCatch (endpoint exchange) fun raised =>
    match raised with
    | .service (.http exception) => return ⟨exception.statusCode, pure ()⟩
    | .requestValidation errorCount => do
      Logged.emit (.validationFailed context.requestId exchange.path errorCount)
      return ⟨422, pure ()⟩
    | raised => throw raised

/-- `Tier1EdgeThrottleMiddleware`; none of the routes is exempt. -/
def tier1EdgeThrottle : Serving Response :=
  match exchange.tier1 with
  | .unavailable => do
    Logged.emit (.ratelimitBackendUnavailable exchange.path "tier1")
    exceptionHandlers context exchange
  | .cancelled => throw (.service .interrupted)
  | .decided decision =>
    if decision.allowed then exceptionHandlers context exchange
    else do
      Logged.emit (.ratelimitExceeded .null exchange.path "tier1_bucket_exhausted")
      return ⟨429, pure ()⟩

/-- `BodySizeLimitMiddleware` -/
def bodySizeLimit : Serving Response :=
  if exchange.tooLarge then return ⟨413, pure ()⟩ else tier1EdgeThrottle context exchange

/-- The `except` block of `RequestContextMiddleware`. -/
def requestFailed (raised : Raised) : Serving Response := do
  if (raised.report context hide).isSome then
    Logged.emit (.requestFailed exchange.method exchange.path context.duration)
    throw raised
  else throw raised

/-- `RequestContextMiddleware`; the body is sent behind its line. -/
def requestContext : Serving Unit := do
  let response ← tryCatch (bodySizeLimit context exchange) (requestFailed context hide exchange)
  Logged.emit (.requestCompleted exchange.method exchange.path context.duration response.statusCode)
  response.body

/-- `handle_unexpected_error`; what was raised is raised again behind it. -/
def handleUnexpectedError (raised : Raised) : Serving Unit :=
  match raised.report context hide with
  | some (errorType, message, traceback) => do
    Logged.emit (.requestUnhandledError context.requestId exchange.path errorType message traceback)
    throw raised
  | none => throw raised

/-- The stack of the application, with the error handler around everything else. -/
def application : Serving Unit :=
  tryCatch (requestContext context hide exchange) (handleUnexpectedError context hide exchange)

/-- The lines of a request. -/
def logLines : List (List Char) :=
  (application context hide exchange).lines.zipIdx.map fun entry =>
    rendered [("requestId", .text context.requestId), ("traceId", .text context.traceId)] (context.timestamp entry.2) entry.1

end Exchange

end Meterly
