import Meterly.Model.RequestLog
import Meterly.Soundness.ExportChunks

/-! # Renaming a customer in a request

A request whose customer ids are renamed, in its parameters and in the rows that the database returns, takes
the same course: it makes the same calls of the logger under the renaming, and ends with the same response or
with the same error under the renaming. This goes through the services, the dependencies and the middleware,
each from its parts.
-/

namespace Meterly

variable (f : String → String)

def EventCreateRequest.mapCustomer (payload : EventCreateRequest) : EventCreateRequest :=
  { payload with customerId := f payload.customerId }

def QuotaPutRequest.mapCustomer (payload : QuotaPutRequest) : QuotaPutRequest :=
  { payload with customerId := f payload.customerId }

def QuotaDeleteParams.mapCustomer (params : QuotaDeleteParams) : QuotaDeleteParams :=
  { params with customerId := f params.customerId }

def UsageQueryParams.mapCustomer (query : UsageQueryParams) : UsageQueryParams :=
  { query with customerId := f query.customerId }

def UsageExportQueryParams.mapCustomer (params : UsageExportQueryParams) : UsageExportQueryParams :=
  { params with customerId := params.customerId.map f }

def EventRecord.mapCustomer (record : EventRecord) : EventRecord := { record with customerId := f record.customerId }

def QuotaRecord.mapCustomer (record : QuotaRecord) : QuotaRecord := { record with customerId := f record.customerId }

def QuotaListItem.mapCustomer (item : QuotaListItem) : QuotaListItem := { item with customerId := f item.customerId }

def UsageRollupExportRecord.mapCustomer (record : UsageRollupExportRecord) : UsageRollupExportRecord :=
  { record with customerId := f record.customerId }

def Statement.mapCustomer : Statement → Statement
  | insertEventIfNew payload windowStart => insertEventIfNew (payload.mapCustomer f) windowStart
  | incrementUsageRollup customerId metric windowStart quantity =>
    incrementUsageRollup (f customerId) metric windowStart quantity
  | upsertQuota customerId metric limitPerWindow => upsertQuota (f customerId) metric limitPerWindow
  | lockQuota customerId metric => lockQuota (f customerId) metric
  | readCurrentTotal customerId metric windowStart => readCurrentTotal (f customerId) metric windowStart
  | deleteQuota customerId metric => deleteQuota (f customerId) metric
  | findUsageRollup customerId metric windowStart => findUsageRollup (f customerId) metric windowStart
  | countUsageRollups params => countUsageRollups (params.mapCustomer f)
  | streamUsageRollups params limit => streamUsageRollups (params.mapCustomer f) limit
  | statement => statement

/-- A field of a line, with the customer id in it renamed. -/
def mapCustomerField (entry : String × LogValue) : String × LogValue :=
  match entry with
  | ("customer_id", .text customerId) => ("customer_id", .text (f customerId))
  | entry => entry

def LogCall.mapCustomer (call : LogCall) : LogCall := { call with fields := call.fields.map (mapCustomerField f) }

def Raised.mapCustomer : Raised → Raised
  | failedStatement apiKeyId statement error => failedStatement apiKeyId (statement.mapCustomer f) error
  | raised => raised

def CreateEventReplies.mapCustomer (replies : CreateEventReplies) : CreateEventReplies :=
  { replies with
    insertEventIfNew := replies.insertEventIfNew.map (Option.map (EventRecord.mapCustomer f))
    findEventByIdempotencyKey := replies.findEventByIdempotencyKey.map (Option.map (EventRecord.mapCustomer f)) }

/-- The rows that one statement returns, renamed. -/
def SingleReply.map {α β : Type} (value : α → β) (replies : SingleReply α) : SingleReply β :=
  ⟨replies.session, replies.reply.map value⟩

def ExportReplies.mapCustomer (replies : ExportReplies) : ExportReplies :=
  { replies with records := replies.records.map (UsageRollupExportRecord.mapCustomer f) }

def Route.mapCustomer : Route → Route
  | postEvent payload receivedAt replies => postEvent (payload.mapCustomer f) receivedAt (replies.mapCustomer f)
  | putQuota payload replies => putQuota (payload.mapCustomer f) (replies.map (QuotaRecord.mapCustomer f))
  | listQuotas replies => listQuotas (replies.map (List.map (QuotaListItem.mapCustomer f)))
  | deleteQuota params replies => deleteQuota (params.mapCustomer f) replies
  | getUsage query replies => getUsage (query.mapCustomer f) replies
  | getUsageDaily date now replies => getUsageDaily date now replies
  | getUsageExport params replies => getUsageExport (params.mapCustomer f) (replies.mapCustomer f)

/-- A request with every customer id in it renamed. -/
def Exchange.mapCustomer (exchange : Exchange) : Exchange := { exchange with route := exchange.route.mapCustomer f }

/-- A computation with its customer ids renamed. -/
abbrev Serving.mapCustomer {α β : Type} (value : α → β) : Serving α → Serving β :=
  Logged.rename (LogCall.mapCustomer f) (Raised.mapCustomer f) value

def Response.mapCustomer (response : Response) : Response :=
  { response with body := Serving.mapCustomer f id response.body }

variable {f} {α β : Type}

/-! ## Statements and transactions -/

theorem mapCustomer_execute (value : α → β) (apiKeyId : ℕ) (statement : Statement)
    (reply : Except StatementFailure α) : Serving.mapCustomer f value (execute apiKeyId statement reply) =
      execute apiKeyId (statement.mapCustomer f) (reply.map value) := by
  cases reply with
  | ok a => rfl
  | error failure =>
    cases failure with
    | failed error => rfl
    | interrupted interruption => cases interruption <;> rfl

/-- A reply that names no customer stays as it is. -/
theorem mapCustomer_execute_id (apiKeyId : ℕ) (statement : Statement) (reply : Except StatementFailure α) :
    Serving.mapCustomer f id (execute apiKeyId statement reply) = execute apiKeyId (statement.mapCustomer f) reply := by
  have same : reply.map id = reply := by cases reply <;> rfl
  rw [mapCustomer_execute, same]

theorem mapCustomer_interruption (reply : Except Interruption Unit) :
    Serving.mapCustomer f id (Logged.ofExcept (reply.mapError Interruption.raise)) =
      Logged.ofExcept (reply.mapError Interruption.raise) := by
  rcases reply with (_ | _) | _ <;> rfl

theorem mapCustomer_scopedTransaction (value : α → β) (session : SessionReplies) (body : Serving α) :
    Serving.mapCustomer f value (scopedTransaction session body) =
      scopedTransaction session (Serving.mapCustomer f value body) := by
  apply Logged.rename_bind (mapCustomer_interruption session.opened)
  intro _
  apply Logged.rename_bind rfl
  intro a
  exact Logged.rename_bind (mapCustomer_interruption session.committed) fun _ => rfl

theorem mapCustomer_single (value : α → β) (principal : AuthenticatedPrincipal) (statement : Statement)
    (replies : SingleReply α) : Serving.mapCustomer f value (single principal statement replies) =
      single principal (statement.mapCustomer f) (replies.map value) := by
  rw [single, mapCustomer_scopedTransaction, mapCustomer_execute]
  rfl

@[inherit_doc mapCustomer_execute_id]
theorem mapCustomer_single_id (principal : AuthenticatedPrincipal) (statement : Statement) (replies : SingleReply α) :
    Serving.mapCustomer f id (single principal statement replies) =
      single principal (statement.mapCustomer f) replies := by
  rw [single, mapCustomer_scopedTransaction, mapCustomer_execute_id]
  rfl

/-! ## The services -/

theorem mapCustomer_readTenantQuotaStateLocked (apiKeyId : ℕ) (replies : CreateEventReplies) (inserted : EventRecord) :
    Serving.mapCustomer f id (readTenantQuotaStateLocked apiKeyId replies inserted) =
      readTenantQuotaStateLocked apiKeyId (replies.mapCustomer f) (inserted.mapCustomer f) := by
  apply Logged.rename_bind (mapCustomer_execute_id ..)
  intro limitPerWindow
  cases limitPerWindow with
  | none => rfl
  | some limitPerWindow => exact Logged.rename_bind (mapCustomer_execute_id ..) fun _ => rfl

theorem mapCustomer_admitInserted (principal : AuthenticatedPrincipal) (receivedAt : Instant)
    (replies : CreateEventReplies) (inserted : EventRecord) :
    Serving.mapCustomer f id (admitInserted principal receivedAt replies inserted) =
      admitInserted principal receivedAt (replies.mapCustomer f) (inserted.mapCustomer f) := by
  apply Logged.rename_bind (mapCustomer_readTenantQuotaStateLocked ..)
  intro quotaState
  show Serving.mapCustomer f id (if _ then _ else _) =
    if ∃ state ∈ quotaState, state.Exceeded inserted.quantity then _ else _
  split
  · rfl
  · exact Logged.rename_bind (mapCustomer_execute_id ..) fun _ => rfl

theorem mapCustomer_replayOriginal (principal : AuthenticatedPrincipal) (payload : EventCreateRequest)
    (replies : CreateEventReplies) : Serving.mapCustomer f id (replayOriginal principal payload replies) =
      replayOriginal principal (payload.mapCustomer f) (replies.mapCustomer f) := by
  apply Logged.rename_bind (mapCustomer_execute (Option.map (EventRecord.mapCustomer f)) ..)
  intro original
  cases original <;> rfl

theorem mapCustomer_createEvent (principal : AuthenticatedPrincipal) (payload : EventCreateRequest)
    (receivedAt : Instant) (replies : CreateEventReplies) :
    Serving.mapCustomer f id (createEvent principal payload receivedAt replies) =
      createEvent principal (payload.mapCustomer f) receivedAt (replies.mapCustomer f) := by
  refine (mapCustomer_scopedTransaction ..).trans (congrArg _ ?_)
  apply Logged.rename_bind (mapCustomer_execute (Option.map (EventRecord.mapCustomer f)) ..)
  intro inserted
  cases inserted with
  | some inserted => exact mapCustomer_admitInserted ..
  | none => exact mapCustomer_replayOriginal ..

theorem mapCustomer_upsertTenantQuota (principal : AuthenticatedPrincipal) (payload : QuotaPutRequest)
    (replies : SingleReply QuotaRecord) : Serving.mapCustomer f id (upsertTenantQuota principal payload replies) =
      upsertTenantQuota principal (payload.mapCustomer f) (replies.map (QuotaRecord.mapCustomer f)) :=
  Logged.rename_bind (mapCustomer_single (QuotaRecord.mapCustomer f) ..) fun _ => rfl

theorem mapCustomer_listTenantQuotas (principal : AuthenticatedPrincipal) (replies : SingleReply (List QuotaListItem)) :
    Serving.mapCustomer f id (listTenantQuotas principal replies) =
      listTenantQuotas principal (replies.map (List.map (QuotaListItem.mapCustomer f))) :=
  Logged.rename_bind (mapCustomer_single (List.map (QuotaListItem.mapCustomer f)) ..) fun _ => rfl

theorem mapCustomer_deleteTenantQuota (principal : AuthenticatedPrincipal) (params : QuotaDeleteParams)
    (replies : SingleReply Bool) : Serving.mapCustomer f id (deleteTenantQuota principal params replies) =
      deleteTenantQuota principal (params.mapCustomer f) replies := by
  apply Logged.rename_bind (mapCustomer_single_id ..)
  intro removed
  cases removed <;> rfl

theorem mapCustomer_getUsage (principal : AuthenticatedPrincipal) (query : UsageQueryParams)
    (replies : SingleReply (Option RollupRow)) : Serving.mapCustomer f id (getUsage principal query replies) =
      getUsage principal (query.mapCustomer f) replies :=
  Logged.rename_bind (mapCustomer_single_id ..) fun _ => rfl

theorem mapCustomer_getDailyUsage (principal : AuthenticatedPrincipal) (date : Option String) (now : Instant)
    (replies : SingleReply (List DailyMetricCount)) :
    Serving.mapCustomer f id (getDailyUsage principal date now replies) = getDailyUsage principal date now replies := by
  have parsed : Serving.mapCustomer f id (Logged.ofExcept ((parseDailyDate date now).mapError .service)) =
      Logged.ofExcept ((parseDailyDate date now).mapError .service) := by
    cases parseDailyDate date now <;> rfl
  apply Logged.rename_bind parsed
  intro window
  exact Logged.rename_bind (mapCustomer_single_id ..) fun _ => rfl

theorem mapCustomer_prepareExport (principal : AuthenticatedPrincipal) (params : UsageExportQueryParams)
    (count : SingleReply ℕ) : Serving.mapCustomer f id (prepareExport principal params count) =
      prepareExport principal (params.mapCustomer f) count := by
  apply Logged.rename_bind (mapCustomer_single_id ..)
  intro rowCount
  show Serving.mapCustomer f id (if maxExportRows < rowCount then _ else _) =
    if maxExportRows < rowCount then _ else _
  split <;> rfl

/-! ## The body of an export -/

/-- Two generators that log the same, now and when they are closed. -/
structure ExportGenerator.SameLines (first second : ExportGenerator) : Prop where
  rowCount : first.rowCount = second.rowCount
  capped : first.capped = second.capped
  completed : first.completed = second.completed
  logged : first.logged = second.logged
  unstarted : first.place = .unstarted ↔ second.place = .unstarted
  finished : first.place = .finished ↔ second.place = .finished

/-- Two exports of equally many rows, under the same kinds of filters, whose sources end alike. -/
structure ExportCall.SameShape (first second : ExportCall) : Prop where
  apiKeyId : first.apiKeyId = second.apiKeyId
  customerId : first.params.customerId.isSome = second.params.customerId.isSome
  metric : first.params.metric.isSome = second.params.metric.isSome
  windowFrom : first.params.windowFrom.isSome = second.params.windowFrom.isSome
  windowTo : first.params.windowTo.isSome = second.params.windowTo.isSome
  records : first.records.length = second.records.length
  raises : first.raises = second.raises

section ExportBody

open ExportGenerator

variable {first second : ExportCall}

theorem ExportGenerator.SameLines.finish {one other : ExportGenerator} (same : one.SameLines other)
    (shape : first.SameShape second) : (one.finish first).SameLines (other.finish second) where
  rowCount := same.rowCount
  capped := same.capped
  completed := same.completed
  logged := by
    simp only [ExportGenerator.finish, same.logged, same.rowCount, same.capped, same.completed, shape.apiKeyId,
      shape.customerId, shape.metric, shape.windowFrom, shape.windowTo]
  unstarted := Iff.rfl
  finished := Iff.rfl

theorem ExportGenerator.SameLines.close {one other : ExportGenerator} (same : one.SameLines other)
    (shape : first.SameShape second) : (one.close first).SameLines (other.close second) := by
  by_cases unstarted : one.place = .unstarted
  · simp only [ExportGenerator.close, unstarted, same.unstarted.mp unstarted]
    exact ⟨same.rowCount, same.capped, same.completed, same.logged, iff_of_false (by simp) (by simp), iff_of_true rfl rfl⟩
  · by_cases finished : one.place = .finished
    · rwa [close_of_finished finished, close_of_finished (same.finished.mp finished)]
    · have closes {generator : ExportGenerator} {call : ExportCall} (started : generator.place ≠ .unstarted)
          (running : generator.place ≠ .finished) : generator.close call = generator.finish call := by
        unfold ExportGenerator.close
        split <;> first | contradiction | rfl
      rw [closes unstarted finished, closes (mt same.unstarted.mpr unstarted) (mt same.finished.mpr finished)]
      exact same.finish shape

theorem sameLines_holding {rowCount : ℕ} {pending pending' : List (List String)} {place place' : ExportPlace}
    {chunks chunks' : List (List (List String))} (unstarted : place = .unstarted ↔ place' = .unstarted)
    (finished : place = .finished ↔ place' = .finished) :
    (holding rowCount pending place chunks).SameLines (holding rowCount pending' place' chunks') :=
  ⟨rfl, rfl, rfl, rfl, unstarted, finished⟩

theorem place_suspended (call : ExportCall) (count : ℕ) :
    (call.suspended count).place ≠ .unstarted ∧ (call.suspended count).place ≠ .finished := by
  rw [ExportCall.suspended]
  split <;> constructor <;> exact ExportPlace.noConfusion

theorem ExportCall.SameShape.fullBatches (shape : first.SameShape second) : first.fullBatches = second.fullBatches := by
  rw [ExportCall.fullBatches, ExportCall.fullBatches, shape.records]

theorem ExportCall.SameShape.trailing (shape : first.SameShape second) : first.trailing = [] ↔ second.trailing = [] := by
  rw [← List.length_eq_zero_iff, ← List.length_eq_zero_iff, length_trailing, length_trailing, shape.records]

theorem ExportCall.SameShape.length_chunks (shape : first.SameShape second) :
    first.chunks.length = second.chunks.length := by
  rw [chunks_eq, chunks_eq, List.length_append, List.length_append, length_chunksTo, length_chunksTo, shape.fullBatches]
  by_cases rest : first.trailing = []
  · rw [if_pos rest, if_pos (shape.trailing.mp rest)]
  · rw [if_neg rest, if_neg (mt shape.trailing.mpr rest), List.length_singleton, List.length_singleton]

/-- However often a chunk is asked for, exports of the same shape log the same. -/
theorem ExportCall.SameShape.asked (shape : first.SameShape second) (count : ℕ) :
    (first.asked count).SameLines (second.asked count) := by
  cases count with
  | zero => exact ⟨rfl, rfl, rfl, rfl, Iff.rfl, Iff.rfl⟩
  | succ count =>
    rcases Nat.lt_or_ge first.fullBatches count with behind | inside
    · have past : first.fullBatches + 2 ≤ count + 1 := Nat.succ_le_succ behind
      by_cases raises : first.raises
      · rw [asked_of_raises raises past, asked_of_raises (shape.raises ▸ raises) (shape.fullBatches ▸ past),
          shape.records]
        exact (sameLines_holding Iff.rfl Iff.rfl).finish shape
      · have delivers : ¬ second.raises := shape.raises ▸ raises
        rcases Nat.lt_or_ge first.chunks.length (count + 1) with done | rest
        · rw [asked_complete raises done, asked_complete delivers (shape.length_chunks ▸ done), shape.records]
          refine ExportGenerator.SameLines.finish ⟨rfl, ?_, rfl, rfl, Iff.rfl, Iff.rfl⟩ shape
          rfl
        · obtain ⟨rfl, trailing⟩ := trailing_of_lt behind rest
          have trailing' := mt shape.trailing.mpr trailing
          rw [asked_trailing raises trailing, shape.fullBatches, asked_trailing delivers trailing', shape.records]
          exact sameLines_holding Iff.rfl Iff.rfl
    · rw [asked_suspended inside, asked_suspended (shape.fullBatches ▸ inside)]
      have one := place_suspended first count
      have other := place_suspended second count
      exact ⟨rfl, rfl, rfl, rfl, iff_of_false one.1 other.1, iff_of_false one.2 other.2⟩

theorem sameShape_mapCustomer (principal : AuthenticatedPrincipal) (params : UsageExportQueryParams)
    (replies : ExportReplies) : (exportCall principal params replies).SameShape
      (exportCall principal (params.mapCustomer f) (replies.mapCustomer f)) where
  apiKeyId := rfl
  customerId := Option.isSome_map.symm
  metric := rfl
  windowFrom := rfl
  windowTo := rfl
  records := (List.length_map ..).symm
  raises := rfl

theorem mapCustomer_usageExport (logged : List UsageExportLine) :
    Serving.mapCustomer f id (logged.forM fun line => Logged.emit (.usageExport line)) =
      logged.forM fun line => Logged.emit (.usageExport line) := by
  induction logged with
  | nil => rfl
  | cons line rest ih => exact Logged.rename_bind (Logged.rename_emit _) fun _ => ih

theorem mapCustomer_exportBody (principal : AuthenticatedPrincipal) (params : UsageExportQueryParams)
    (replies : ExportReplies) : Serving.mapCustomer f id (exportBody principal params replies) =
      exportBody principal (params.mapCustomer f) (replies.mapCustomer f) := by
  have shape := sameShape_mapCustomer (f := f) principal params replies
  have asked := shape.asked replies.pulls
  rw [exportBody, exportBody]
  by_cases finished : ((exportCall principal params replies).asked replies.pulls).place = .finished
  · refine (congrArg _ (if_pos finished)).trans (Eq.trans ?_ (if_pos (asked.finished.mp finished)).symm)
    refine Logged.rename_bind ((mapCustomer_usageExport _).trans ?_) fun _ => mapCustomer_execute_id ..
    exact congrArg (List.forM · _) asked.logged
  · refine (congrArg _ (if_neg finished)).trans (Eq.trans ?_ (if_neg (mt asked.finished.mpr finished)).symm)
    exact (mapCustomer_usageExport _).trans (congrArg (List.forM · _) (asked.close shape).logged)

end ExportBody

/-! ## The dependencies, the routes and the middleware -/

theorem mapCustomer_requireApiKey (guard : GuardReply) :
    Serving.mapCustomer f id (requireApiKey guard) = requireApiKey guard := by
  cases guard with
  | interrupted interruption => cases interruption <;> rfl
  | _ => rfl

theorem mapCustomer_tier2RateLimit (path : String) (principal : AuthenticatedPrincipal) (tier2 : LimiterReply) :
    Serving.mapCustomer f id (tier2RateLimit path principal tier2) = tier2RateLimit path principal tier2 := by
  cases tier2 with
  | unavailable => rfl
  | cancelled => rfl
  | decided decision =>
    rw [tier2RateLimit]
    split <;> rfl

theorem mapCustomer_requireAdmin (principal : AuthenticatedPrincipal) :
    Serving.mapCustomer f id (requireAdmin principal) = requireAdmin principal := by
  rw [requireAdmin]
  split <;> rfl

theorem mapCustomer_serve (principal : AuthenticatedPrincipal) (route : Route) :
    Serving.mapCustomer f (Response.mapCustomer f) (route.serve principal) = (route.mapCustomer f).serve principal := by
  cases route with
  | postEvent payload receivedAt replies => exact Logged.rename_bind (mapCustomer_createEvent ..) fun _ => rfl
  | putQuota payload replies => exact Logged.rename_bind (mapCustomer_upsertTenantQuota ..) fun _ => rfl
  | listQuotas replies => exact Logged.rename_bind (mapCustomer_listTenantQuotas ..) fun _ => rfl
  | deleteQuota params replies => exact Logged.rename_bind (mapCustomer_deleteTenantQuota ..) fun _ => rfl
  | getUsage query replies => exact Logged.rename_bind (mapCustomer_getUsage ..) fun _ => rfl
  | getUsageDaily date now replies => exact Logged.rename_bind (mapCustomer_getDailyUsage ..) fun _ => rfl
  | getUsageExport params replies =>
    apply Logged.rename_bind (mapCustomer_prepareExport ..)
    intro _
    exact congrArg (fun body => (pure (Response.mk 200 body) : Serving Response)) (mapCustomer_exportBody ..)

theorem adminOnly_mapCustomer (route : Route) : (route.mapCustomer f).adminOnly = route.adminOnly := by
  cases route <;> rfl

theorem mapCustomer_authorize (principal : AuthenticatedPrincipal) (route : Route) :
    Serving.mapCustomer f id (route.authorize principal) = (route.mapCustomer f).authorize principal := by
  rw [Route.authorize, Route.authorize, adminOnly_mapCustomer]
  split
  · exact mapCustomer_requireAdmin _
  · rfl

variable (context : LogContext) (hide : Bool) (exchange : Exchange)

theorem mapCustomer_endpoint :
    Serving.mapCustomer f (Response.mapCustomer f) exchange.endpoint = (exchange.mapCustomer f).endpoint := by
  show Serving.mapCustomer f _ (if exchange.invalidJson then _ else _) = if exchange.invalidJson then _ else _
  split
  · rfl
  · apply Logged.rename_bind (mapCustomer_requireApiKey _)
    intro principal
    apply Logged.rename_bind (mapCustomer_tier2RateLimit ..)
    intro _
    apply Logged.rename_bind (mapCustomer_authorize ..)
    intro _
    show Serving.mapCustomer f _ (if exchange.validationErrors = 0 then _ else _) =
      if exchange.validationErrors = 0 then _ else _
    split
    · exact mapCustomer_serve ..
    · rfl

theorem mapCustomer_exceptionHandlers :
    Serving.mapCustomer f (Response.mapCustomer f) (exchange.exceptionHandlers context) =
      (exchange.mapCustomer f).exceptionHandlers context := by
  apply Logged.rename_tryCatch (mapCustomer_endpoint exchange)
  intro raised
  cases raised with
  | service error => cases error <;> rfl
  | _ => rfl

theorem mapCustomer_tier1EdgeThrottle :
    Serving.mapCustomer f (Response.mapCustomer f) (exchange.tier1EdgeThrottle context) =
      (exchange.mapCustomer f).tier1EdgeThrottle context := by
  have same : (exchange.mapCustomer f).tier1 = exchange.tier1 := rfl
  rw [Exchange.tier1EdgeThrottle, Exchange.tier1EdgeThrottle, same]
  split
  · exact Logged.rename_bind (Logged.rename_emit _) fun _ => mapCustomer_exceptionHandlers context exchange
  · rfl
  · split
    · exact mapCustomer_exceptionHandlers context exchange
    · rfl

theorem mapCustomer_bodySizeLimit :
    Serving.mapCustomer f (Response.mapCustomer f) (exchange.bodySizeLimit context) =
      (exchange.mapCustomer f).bodySizeLimit context := by
  show Serving.mapCustomer f _ (if exchange.tooLarge then _ else _) = if exchange.tooLarge then _ else _
  split
  · rfl
  · exact mapCustomer_tier1EdgeThrottle context exchange

/-- Whether there is anything to report does not depend on the customer. -/
theorem isSome_report_mapCustomer (raised : Raised) :
    ((raised.mapCustomer f).report context hide).isSome = (raised.report context hide).isSome := by
  cases raised with
  | service error => cases error <;> rfl
  | _ => rfl

theorem mapCustomer_requestFailed (raised : Raised) :
    Serving.mapCustomer f (Response.mapCustomer f) (exchange.requestFailed context hide raised) =
      (exchange.mapCustomer f).requestFailed context hide (raised.mapCustomer f) := by
  rw [Exchange.requestFailed, Exchange.requestFailed, isSome_report_mapCustomer]
  split <;> rfl

/-- A request with its customers renamed takes the same course. -/
theorem mapCustomer_requestContext : Serving.mapCustomer f id (exchange.requestContext context hide) =
    (exchange.mapCustomer f).requestContext context hide := by
  refine Logged.rename_bind (Logged.rename_tryCatch (mapCustomer_bodySizeLimit context exchange)
    (mapCustomer_requestFailed context hide exchange)) fun response => ?_
  exact Logged.rename_bind (Logged.rename_emit _) fun _ => rfl

end Meterly
