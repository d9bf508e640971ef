import Meterly.Soundness.LogIndependence
import Meterly.Text.JsonReader

/-! # The log as one stream

Each line goes out through `PrintLogger`, with a line break behind it, and the lines of requests in flight
stand between each other. Whatever a client puts into a path, a method or a trace header, the stream reads back as
the records that were logged, no more and no fewer, and the records that carry the id of a request are
its own lines in their order. What a request logs is followed through the services and the middleware part by part.
-/

namespace Meterly

/-! ## What a call of the logger passes -/

/-- A field that is written whole, and that does not give a line the id of another request. -/
def IsField (requestId : String) (entry : String × LogValue) : Prop :=
  entry.2.IsWritten ∧ (entry.1 = "requestId" → entry.2 = .text requestId)

/-- A call of the logger all of whose fields are those of a request. -/
def LogCall.IsOf (requestId : String) (call : LogCall) : Prop := ∀ entry ∈ call.fields, IsField requestId entry

section Calls

variable {requestId key : String} {α β : Type}

@[simp] theorem isField_text (value : String) :
    IsField requestId (key, .text value) ↔ (key = "requestId" → value = requestId) := by
  simp [IsField, Json.Value.IsWritten]

@[simp] theorem isField_int (value : ℤ) : IsField requestId (key, .int value) ↔ key ≠ "requestId" := by
  simp [IsField, Json.Value.IsWritten]

@[simp] theorem isField_bool (value : Bool) : IsField requestId (key, .bool value) ↔ key ≠ "requestId" := by
  simp [IsField, Json.Value.IsWritten]

@[simp] theorem isField_null : IsField requestId (key, .null) ↔ key ≠ "requestId" := by
  simp [IsField, Json.Value.IsWritten]

@[simp] theorem isField_float (digits : String) : IsField requestId (key, .float digits) ↔
    Json.isFloatText digits.toList ∧ key ≠ "requestId" := by
  simp [IsField, Json.Value.IsWritten]

@[simp] theorem LogCall.isOf_mk (method : LogMethod) (event : String) (fields : EventDict) (excInfo : Option String) :
    LogCall.IsOf requestId ⟨method, event, fields, excInfo⟩ ↔ ∀ entry ∈ fields, IsField requestId entry := Iff.rfl

/-- What a computation logs is of the request. -/
abbrev Serving.LogsFor (requestId : String) : Serving α → Prop := Logged.Keeps (LogCall.IsOf requestId) fun _ => True

/-! ## Statements and services -/

theorem logsFor_ofExcept (result : Except Raised α) : Serving.LogsFor requestId (Logged.ofExcept result) :=
  Logged.keeps_ofExcept fun _ _ => trivial

theorem logsFor_pure (a : α) : Serving.LogsFor requestId (pure a : Serving α) := Logged.keeps_pure trivial

theorem logsFor_throw (raised : Raised) : Serving.LogsFor requestId (throw raised : Serving α) := Logged.keeps_throw raised

theorem logsFor_emit {call : LogCall} (own : call.IsOf requestId) : Serving.LogsFor requestId (Logged.emit call) :=
  Logged.keeps_emit own trivial

theorem Serving.LogsFor.bind {first : Serving α} {next : α → Serving β} (begins : Serving.LogsFor requestId first)
    (continues : ∀ a, Serving.LogsFor requestId (next a)) : Serving.LogsFor requestId (first >>= next) :=
  Logged.Keeps.bind begins fun a _ => continues a

theorem logsFor_execute (apiKeyId : ℕ) (statement : Statement) (reply : Except StatementFailure α) :
    Serving.LogsFor requestId (execute apiKeyId statement reply) := logsFor_ofExcept _

theorem logsFor_scopedTransaction {session : SessionReplies} {body : Serving α} (own : Serving.LogsFor requestId body) :
    Serving.LogsFor requestId (scopedTransaction session body) := by
  apply Serving.LogsFor.bind (logsFor_ofExcept _)
  intro _
  apply Serving.LogsFor.bind own
  intro value
  apply Serving.LogsFor.bind (logsFor_ofExcept _)
  intro _
  exact logsFor_pure value

theorem logsFor_single (principal : AuthenticatedPrincipal) (statement : Statement) (replies : SingleReply α) :
    Serving.LogsFor requestId (single principal statement replies) :=
  logsFor_scopedTransaction (logsFor_execute ..)

theorem logsFor_readTenantQuotaStateLocked (apiKeyId : ℕ) (replies : CreateEventReplies) (inserted : EventRecord) :
    Serving.LogsFor requestId (readTenantQuotaStateLocked apiKeyId replies inserted) := by
  apply Serving.LogsFor.bind (logsFor_execute ..)
  intro limitPerWindow
  cases limitPerWindow with
  | none => exact logsFor_pure none
  | some limitPerWindow => exact Serving.LogsFor.bind (logsFor_execute ..) fun _ => logsFor_pure _

theorem logsFor_admitInserted (principal : AuthenticatedPrincipal) (receivedAt : Instant) (replies : CreateEventReplies)
    (inserted : EventRecord) : Serving.LogsFor requestId (admitInserted principal receivedAt replies inserted) := by
  apply Serving.LogsFor.bind (logsFor_readTenantQuotaStateLocked ..)
  intro quotaState
  show Serving.LogsFor requestId (if ∃ state ∈ quotaState, state.Exceeded inserted.quantity then _ else _)
  split
  · exact Serving.LogsFor.bind (logsFor_emit (by simp [LogCall.quotaRejected])) fun _ => logsFor_throw _
  · apply Serving.LogsFor.bind (logsFor_execute ..)
    intro _
    exact Serving.LogsFor.bind (logsFor_emit (by simp [LogCall.eventCreate])) fun _ => logsFor_pure 201

theorem logsFor_replayOriginal (principal : AuthenticatedPrincipal) (payload : EventCreateRequest)
    (replies : CreateEventReplies) : Serving.LogsFor requestId (replayOriginal principal payload replies) := by
  apply Serving.LogsFor.bind (logsFor_execute ..)
  intro original
  cases original with
  | none => exact logsFor_throw _
  | some original => exact Serving.LogsFor.bind (logsFor_emit (by simp [LogCall.eventCreate])) fun _ => logsFor_pure 200

theorem logsFor_createEvent (principal : AuthenticatedPrincipal) (payload : EventCreateRequest) (receivedAt : Instant)
    (replies : CreateEventReplies) : Serving.LogsFor requestId (createEvent principal payload receivedAt replies) := by
  apply logsFor_scopedTransaction
  apply Serving.LogsFor.bind (logsFor_execute ..)
  intro inserted
  cases inserted with
  | none => exact logsFor_replayOriginal ..
  | some inserted => exact logsFor_admitInserted ..

theorem logsFor_upsertTenantQuota (principal : AuthenticatedPrincipal) (payload : QuotaPutRequest)
    (replies : SingleReply QuotaRecord) : Serving.LogsFor requestId (upsertTenantQuota principal payload replies) := by
  apply Serving.LogsFor.bind (logsFor_single ..)
  intro record
  exact Serving.LogsFor.bind (logsFor_emit (by simp [LogCall.quotaUpsert])) fun _ => logsFor_pure _

theorem logsFor_listTenantQuotas (principal : AuthenticatedPrincipal) (replies : SingleReply (List QuotaListItem)) :
    Serving.LogsFor requestId (listTenantQuotas principal replies) :=
  Serving.LogsFor.bind (logsFor_single ..) fun _ => logsFor_pure 200

theorem logsFor_deleteTenantQuota (principal : AuthenticatedPrincipal) (params : QuotaDeleteParams)
    (replies : SingleReply Bool) : Serving.LogsFor requestId (deleteTenantQuota principal params replies) := by
  apply Serving.LogsFor.bind (logsFor_single ..)
  intro removed
  cases removed with
  | false => exact logsFor_throw _
  | true => exact Serving.LogsFor.bind (logsFor_emit (by simp [LogCall.quotaDelete])) fun _ => logsFor_pure 204

theorem logsFor_getUsage (principal : AuthenticatedPrincipal) (query : UsageQueryParams)
    (replies : SingleReply (Option RollupRow)) : Serving.LogsFor requestId (getUsage principal query replies) := by
  apply Serving.LogsFor.bind (logsFor_single ..)
  intro rollup
  exact Serving.LogsFor.bind (logsFor_emit (by simp [LogCall.usageRead])) fun _ => logsFor_pure 200

theorem logsFor_getDailyUsage (principal : AuthenticatedPrincipal) (date : Option String) (now : Instant)
    (replies : SingleReply (List DailyMetricCount)) :
    Serving.LogsFor requestId (getDailyUsage principal date now replies) := by
  apply Serving.LogsFor.bind (logsFor_ofExcept _)
  intro window
  apply Serving.LogsFor.bind (logsFor_single ..)
  intro records
  exact Serving.LogsFor.bind (logsFor_emit (by simp [LogCall.usageDailyRead])) fun _ => logsFor_pure 200

theorem logsFor_prepareExport (principal : AuthenticatedPrincipal) (params : UsageExportQueryParams)
    (count : SingleReply ℕ) : Serving.LogsFor requestId (prepareExport principal params count) := by
  apply Serving.LogsFor.bind (logsFor_single ..)
  intro rowCount
  show Serving.LogsFor requestId (if maxExportRows < rowCount then _ else _)
  split
  · exact Serving.LogsFor.bind (logsFor_emit (by simp [LogCall.usageExportRejected])) fun _ => logsFor_throw _
  · exact logsFor_pure ()

theorem logsFor_exportLines (lines : List UsageExportLine) :
    Serving.LogsFor requestId (lines.forM fun line => Logged.emit (.usageExport line)) :=
  Logged.keeps_forM fun _ _ => logsFor_emit (by simp [LogCall.usageExport])

theorem logsFor_exportBody (principal : AuthenticatedPrincipal) (params : UsageExportQueryParams)
    (replies : ExportReplies) : Serving.LogsFor requestId (exportBody principal params replies) := by
  rw [exportBody]
  split
  · exact Serving.LogsFor.bind (logsFor_exportLines _) fun _ => logsFor_execute ..
  · exact logsFor_exportLines _

/-! ## The dependencies, the routes and the stack -/

theorem logsFor_requireApiKey (guard : GuardReply) : Serving.LogsFor requestId (requireApiKey guard) := by
  cases guard with
  | missingOrMalformedHeader =>
    exact Serving.LogsFor.bind (logsFor_emit (by simp [LogCall.apiKeyDenied])) fun _ => logsFor_throw _
  | malformedToken => exact Serving.LogsFor.bind (logsFor_emit (by simp [LogCall.apiKeyDenied])) fun _ => logsFor_throw _
  | cacheHit principal =>
    exact Serving.LogsFor.bind (logsFor_emit (by simp [LogCall.apiKeyAllowed])) fun _ => logsFor_pure principal
  | interrupted interruption => exact logsFor_throw _
  | verificationFailed =>
    exact Serving.LogsFor.bind (logsFor_emit (by simp [LogCall.apiKeyDenied])) fun _ => logsFor_throw _
  | verified principal =>
    exact Serving.LogsFor.bind (logsFor_emit (by simp [LogCall.apiKeyAllowed])) fun _ => logsFor_pure principal

theorem logsFor_tier2RateLimit (path : String) (principal : AuthenticatedPrincipal) (reply : LimiterReply) :
    Serving.LogsFor requestId (tier2RateLimit path principal reply) := by
  cases reply with
  | unavailable => exact logsFor_emit (by simp [LogCall.ratelimitBackendUnavailable])
  | cancelled => exact logsFor_throw _
  | decided decision =>
    rw [tier2RateLimit]
    split
    · exact logsFor_pure ()
    · exact Serving.LogsFor.bind (logsFor_emit (by simp [LogCall.ratelimitExceeded])) fun _ => logsFor_throw _

theorem logsFor_authorize (principal : AuthenticatedPrincipal) (route : Route) :
    Serving.LogsFor requestId (route.authorize principal) := by
  rw [Route.authorize]
  split
  · rw [requireAdmin]
    split
    · exact logsFor_pure ()
    · exact Serving.LogsFor.bind (logsFor_emit (by simp [LogCall.quotaForbidden])) fun _ => logsFor_throw _
  · exact logsFor_pure ()

/-- What a computation logs is of the request, and so is what the body of its response logs. -/
abbrev Serving.AnswersFor (requestId : String) : Serving Response → Prop :=
  Logged.Keeps (LogCall.IsOf requestId) fun response => Serving.LogsFor requestId response.body

/-- A response whose body is there logs nothing any more. -/
theorem answersFor_pure (statusCode : ℕ) :
    Serving.AnswersFor requestId (pure ⟨statusCode, pure ()⟩ : Serving Response) :=
  Logged.keeps_pure (logsFor_pure ())

theorem answersFor_serve (principal : AuthenticatedPrincipal) (route : Route) :
    Serving.AnswersFor requestId (route.serve principal) := by
  cases route with
  | postEvent payload receivedAt replies => exact Logged.Keeps.bind (logsFor_createEvent ..) fun _ _ => answersFor_pure _
  | putQuota payload replies => exact Logged.Keeps.bind (logsFor_upsertTenantQuota ..) fun _ _ => answersFor_pure _
  | listQuotas replies => exact Logged.Keeps.bind (logsFor_listTenantQuotas ..) fun _ _ => answersFor_pure _
  | deleteQuota params replies => exact Logged.Keeps.bind (logsFor_deleteTenantQuota ..) fun _ _ => answersFor_pure _
  | getUsage query replies => exact Logged.Keeps.bind (logsFor_getUsage ..) fun _ _ => answersFor_pure _
  | getUsageDaily date now replies => exact Logged.Keeps.bind (logsFor_getDailyUsage ..) fun _ _ => answersFor_pure _
  | getUsageExport params replies =>
    exact Logged.Keeps.bind (logsFor_prepareExport ..) fun _ _ => Logged.keeps_pure (logsFor_exportBody ..)

end Calls

section Stack

variable {context : LogContext} {hide : Bool} {exchange : Exchange}

theorem answersFor_endpoint {requestId : String} : Serving.AnswersFor requestId exchange.endpoint := by
  rw [Exchange.endpoint]
  split
  · exact Logged.keeps_throw _
  · apply Logged.Keeps.bind (logsFor_requireApiKey exchange.guard)
    intro principal _
    apply Logged.Keeps.bind (logsFor_tier2RateLimit exchange.path principal exchange.tier2)
    intro _ _
    apply Logged.Keeps.bind (logsFor_authorize principal exchange.route)
    intro _ _
    split
    · exact answersFor_serve principal exchange.route
    · exact Logged.keeps_throw _

theorem answersFor_exceptionHandlers : Serving.AnswersFor context.requestId (exchange.exceptionHandlers context) := by
  apply Logged.Keeps.tryCatch answersFor_endpoint
  intro raised
  cases raised with
  | service error =>
    cases error with
    | http exception => exact answersFor_pure _
    | _ => exact Logged.keeps_throw _
  | requestValidation errorCount =>
    apply Logged.Keeps.bind (logsFor_emit (by simp [LogCall.validationFailed]))
    intro _ _
    exact answersFor_pure 422
  | failedStatement apiKeyId statement error => exact Logged.keeps_throw _
  | other error => exact Logged.keeps_throw _

theorem answersFor_tier1EdgeThrottle : Serving.AnswersFor context.requestId (exchange.tier1EdgeThrottle context) := by
  rw [Exchange.tier1EdgeThrottle]
  cases exchange.tier1 with
  | unavailable =>
    apply Logged.Keeps.bind (logsFor_emit (by simp [LogCall.ratelimitBackendUnavailable]))
    intro _ _
    exact answersFor_exceptionHandlers
  | cancelled => exact Logged.keeps_throw _
  | decided decision =>
    show Serving.AnswersFor context.requestId (if decision.allowed then _ else _)
    split
    · exact answersFor_exceptionHandlers
    · apply Logged.Keeps.bind (logsFor_emit (by simp [LogCall.ratelimitExceeded]))
      intro _ _
      exact answersFor_pure 429

theorem answersFor_bodySizeLimit : Serving.AnswersFor context.requestId (exchange.bodySizeLimit context) := by
  rw [Exchange.bodySizeLimit]
  split
  · exact answersFor_pure 413
  · exact answersFor_tier1EdgeThrottle

variable (duration : Json.isFloatText context.duration.toList)
include duration

theorem logsFor_requestContext : Serving.LogsFor context.requestId (exchange.requestContext context hide) := by
  have failed : ∀ raised, Serving.AnswersFor context.requestId (exchange.requestFailed context hide raised) := by
    intro raised
    show Serving.AnswersFor context.requestId (if _ then _ else _)
    split
    · exact Logged.Keeps.bind (logsFor_emit (by simp [LogCall.requestFailed, duration])) fun _ _ => Logged.keeps_throw _
    · exact Logged.keeps_throw _
  apply Logged.Keeps.bind (answersFor_bodySizeLimit.tryCatch failed)
  intro response body
  apply Serving.LogsFor.bind (logsFor_emit (by simp [LogCall.requestCompleted, duration]))
  intro _
  exact body

/-- All that a request logs is of the request. -/
theorem logsFor_application : Serving.LogsFor context.requestId (exchange.application context hide) := by
  apply (logsFor_requestContext duration).tryCatch
  intro raised
  rw [Exchange.handleUnexpectedError]
  split
  · exact Serving.LogsFor.bind (logsFor_emit (by simp [LogCall.requestUnhandledError])) fun _ => logsFor_throw _
  · exact logsFor_throw _

end Stack

/-! ## Records -/

/-- A record of the log: no key stands twice, the value of a sensitive key does not show, and outside of a
traceback no text goes over its line. -/
structure IsRecord (record : EventDict) : Prop where
  keys : (record.map Prod.fst).Nodup
  redacted : ∀ entry ∈ record, lower entry.1 ∈ sensitiveKeys → entry.2 = .text redacted
  oneLine : ∀ entry ∈ record, entry.1 ≠ "exception" → ∀ value : String, entry.2 = .text value →
    '\r' ∉ value.toList ∧ '\n' ∉ value.toList

section Records

variable {bound dict : EventDict} {entry : String × LogValue} {timestamp : String} {call : LogCall}
  {P : String × LogValue → Prop}

theorem any_key (key : String) :
    (dict.any fun other => other.1 = key) = decide (key ∈ dict.map Prod.fst) := by
  simp [List.any_eq]

theorem keys_assign : (assign dict entry).map Prod.fst =
    if entry.1 ∈ dict.map Prod.fst then dict.map Prod.fst else dict.map Prod.fst ++ [entry.1] := by
  simp only [assign, any_key, decide_eq_true_eq]
  split
  · rw [List.map_map]
    apply List.map_congr_left
    intro other _
    show (if other.1 = entry.1 then entry else other).1 = other.1
    split
    · next same => exact same.symm
    · rfl
  · exact List.map_append

theorem keys_setDefault : (setDefault dict entry).map Prod.fst =
    if entry.1 ∈ dict.map Prod.fst then dict.map Prod.fst else dict.map Prod.fst ++ [entry.1] := by
  simp only [setDefault, any_key, decide_eq_true_eq]
  split
  · rfl
  · exact List.map_append

theorem nodup_assign (nodup : (dict.map Prod.fst).Nodup) : ((assign dict entry).map Prod.fst).Nodup := by
  rw [keys_assign]
  split
  · exact nodup
  · next fresh => exact List.nodup_append.mpr ⟨nodup, List.nodup_singleton _, fun key member other last => by
      rw [List.mem_singleton.mp last]
      rintro rfl
      exact fresh member⟩

theorem nodup_setDefault (nodup : (dict.map Prod.fst).Nodup) : ((setDefault dict entry).map Prod.fst).Nodup := by
  rw [keys_setDefault, ← keys_assign]
  exact nodup_assign nodup

theorem keys_subset_assign : dict.map Prod.fst ⊆ (assign dict entry).map Prod.fst := by
  rw [keys_assign]
  split
  · exact List.Subset.refl _
  · exact List.subset_append_left ..

theorem keys_subset_setDefault : entry.1 :: dict.map Prod.fst ⊆ (setDefault dict entry).map Prod.fst := by
  rw [keys_setDefault]
  split
  · next there => exact List.cons_subset.mpr ⟨there, List.Subset.refl _⟩
  · exact List.cons_subset.mpr ⟨List.mem_append_right _ (List.mem_singleton_self _), List.subset_append_left ..⟩

theorem keys_subset_mergeContextvars :
    bound.map Prod.fst ++ dict.map Prod.fst ⊆ (mergeContextvars bound dict).map Prod.fst := by
  induction bound generalizing dict with
  | nil => exact List.Subset.refl _
  | cons entry rest ih =>
    obtain ⟨first, before⟩ := List.cons_subset.mp (@keys_subset_setDefault dict entry)
    obtain ⟨later, kept⟩ := List.append_subset.mp (@ih (setDefault dict entry))
    exact List.append_subset.mpr ⟨List.cons_subset.mpr ⟨kept first, later⟩, List.Subset.trans before kept⟩

/-- Each bound value has its key in what is gathered. -/
theorem mem_keys_gathered (member : entry ∈ bound) : entry.1 ∈ (gathered bound timestamp call).map Prod.fst := by
  apply keys_subset_assign
  apply keys_subset_assign
  apply keys_subset_mergeContextvars
  exact List.mem_append_left _ (List.mem_map_of_mem member)

theorem mem_formatExcInfo {excInfo : Option String} (member : entry ∈ dict) (other : entry.1 ≠ "exception") :
    entry ∈ formatExcInfo excInfo dict := by
  cases excInfo with
  | none => exact member
  | some traceback =>
    show entry ∈ assign dict ("exception", .text traceback)
    rw [assign]
    split
    · exact List.mem_map.mpr ⟨entry, member, if_neg other⟩
    · exact List.mem_append_left _ member

theorem forall_assign (entries : ∀ other ∈ dict, P other) (assigned : P entry) : ∀ other ∈ assign dict entry, P other := by
  intro other member
  rw [assign] at member
  split at member
  · obtain ⟨before, there, rfl⟩ := List.mem_map.mp member
    split
    · exact assigned
    · exact entries before there
  · rcases List.mem_append.mp member with there | last
    · exact entries other there
    · rwa [List.mem_singleton.mp last]

theorem forall_setDefault (entries : ∀ other ∈ dict, P other) (added : P entry) : ∀ other ∈ setDefault dict entry, P other := by
  intro other member
  rw [setDefault] at member
  split at member
  · exact entries other member
  · rcases List.mem_append.mp member with there | last
    · exact entries other there
    · rwa [List.mem_singleton.mp last]

theorem nodup_gathered : ((gathered bound timestamp call).map Prod.fst).Nodup := by
  have called : (call.eventDict.map Prod.fst).Nodup := by
    apply nodup_assign
    refine List.foldlRecOn (motive := fun dict : EventDict => (dict.map Prod.fst).Nodup) call.fields assign ?_ ?_
    · exact List.nodup_singleton _
    · exact fun dict nodup entry _ => nodup_assign nodup
  apply nodup_assign
  apply nodup_assign
  exact List.foldlRecOn (motive := fun dict : EventDict => (dict.map Prod.fst).Nodup) bound setDefault called
    fun dict nodup entry _ => nodup_setDefault nodup

/-- What holds of the bound entries, of the fields of a call and of what the processors add holds of all that they gather. -/
theorem forall_gathered (ids : ∀ other ∈ bound, P other) (fields : ∀ other ∈ call.fields, P other)
    (service : P ("service", .text "meterly")) (event : P ("event", .text call.event))
    (level : P ("level", .text call.method.name)) (time : P ("timestamp", .text timestamp)) :
    ∀ other ∈ gathered bound timestamp call, P other := by
  have start : ∀ other ∈ [("service", Json.Value.text "meterly")], P other := by
    intro other member
    rwa [List.mem_singleton.mp member]
  have called : ∀ other ∈ call.eventDict, P other := by
    refine forall_assign ?_ event
    exact List.foldlRecOn (motive := fun dict : EventDict => ∀ other ∈ dict, P other) call.fields assign start
      fun dict entries entry member => forall_assign entries (fields entry member)
  refine forall_assign (forall_assign ?_ level) time
  exact List.foldlRecOn (motive := fun dict : EventDict => ∀ other ∈ dict, P other) bound setDefault called
    fun dict entries entry member => forall_setDefault entries (ids entry member)

/-- An entry that is redacted and put on one line. -/
def cleanEntry (entry : String × LogValue) : String × LogValue := (entry.1, stripValue (redactEntry entry).2)

theorem processed_eq : processed bound timestamp call =
    formatExcInfo call.excInfo ((gathered bound timestamp call).map cleanEntry) := by
  simp only [processed, stripControlCharacters, redactSensitiveFields, List.map_map, Function.comp_def, redactEntry_fst]
  rfl

theorem forall_processed (cleaned : ∀ other ∈ gathered bound timestamp call, P (cleanEntry other))
    (exception : ∀ traceback, P ("exception", .text traceback)) : ∀ other ∈ processed bound timestamp call, P other := by
  have before : ∀ other ∈ (gathered bound timestamp call).map cleanEntry, P other := List.forall_mem_map.mpr cleaned
  rw [processed_eq, formatExcInfo]
  cases call.excInfo with
  | none => exact before
  | some traceback => exact forall_assign before (exception traceback)

theorem not_mem_flatMap_neutralise (text : List Char) : '\r' ∉ text.flatMap neutralise ∧ '\n' ∉ text.flatMap neutralise := by
  have kept : ∀ c, '\r' ∉ neutralise c ∧ '\n' ∉ neutralise c := by
    intro c
    unfold neutralise
    split_ifs with carriage line
    · decide
    · decide
    · simp [Ne.symm carriage, Ne.symm line]
  simp only [List.mem_flatMap, not_exists, not_and]
  exact ⟨fun c _ => (kept c).1, fun c _ => (kept c).2⟩

/-- Every call of the logger, under whatever bound entries, leaves a record. -/
theorem isRecord_processed (bound : EventDict) (timestamp : String) (call : LogCall) :
    IsRecord (processed bound timestamp call) where
  keys := by
    have cleaned : (((gathered bound timestamp call).map cleanEntry).map Prod.fst).Nodup := by
      rw [List.map_map]
      exact nodup_gathered
    rw [processed_eq, formatExcInfo]
    cases call.excInfo with
    | none => exact cleaned
    | some traceback => exact nodup_assign cleaned
  redacted := by
    apply forall_processed
    · intro other _ sensitive
      have hidden : redactEntry other = (other.1, .text redacted) := if_pos sensitive
      rw [cleanEntry, hidden]
      rfl
    · have plain : lower "exception" ∉ sensitiveKeys := by decide +kernel
      exact fun traceback sensitive => absurd sensitive plain
  oneLine := by
    apply forall_processed
    · intro other _ _ value same
      rw [cleanEntry] at same
      cases kind : (redactEntry other).2 with
      | text text =>
        rw [kind] at same
        obtain rfl := Json.Value.text.inj same
        rw [String.toList_ofList]
        exact not_mem_flatMap_neutralise text.toList
      | _ =>
        rw [kind] at same
        exact absurd same (by rintro ⟨⟩)
    · intro traceback other
      exact absurd rfl other

end Records

/-! ## The stream -/

/-- A line on its way to the printer: the bound values, the time and the call. -/
structure LogLine where
  bound : EventDict
  timestamp : String
  call : LogCall
deriving DecidableEq, Repr

def LogLine.record (line : LogLine) : EventDict := processed line.bound line.timestamp line.call

/-- The lines of a request, before they are rendered. -/
def Exchange.logged (context : LogContext) (hide : Bool) (exchange : Exchange) : List LogLine :=
  (exchange.application context hide).lines.zipIdx.map fun entry =>
    ⟨context.bound, context.timestamp entry.2, entry.1⟩

/-- `PrintLogger`: every line with a line break behind it. -/
def printed (lines : List LogLine) : List Char :=
  lines.flatMap fun line => rendered line.bound line.timestamp line.call ++ ['\n']

/-- The text of `uuid.uuid4()`: hexadecimal digits and dashes. -/
def IsUuidText (text : String) : Prop := ∀ c ∈ text.toList, c = '-' ∨ (Json.hexValue c).isSome

instance (text : String) : Decidable (IsUuidText text) := inferInstanceAs (Decidable (∀ _ ∈ _, _))

/-- Lines of many requests in one stream: those of each request are the first of what it logs, in their order. -/
def Interleaves {Request : Type} [DecidableEq Request] (logged : Request → List LogLine)
    (stream : List (Request × LogLine)) : Prop :=
  ∀ request, (stream.filter fun line => line.1 = request).map Prod.snd <+: logged request

section Stream

variable {context : LogContext} {hide : Bool} {exchange : Exchange} {line : LogLine}

theorem stripValue_of_isUuidText {text : String} (uuid : IsUuidText text) : stripValue (.text text) = .text text := by
  have kept : ∀ c ∈ text.toList, neutralise c = [c] := by
    intro c member
    have carriage : c ≠ '\r' := by
      rintro rfl
      exact absurd (uuid _ member) (by decide)
    have newline : c ≠ '\n' := by
      rintro rfl
      exact absurd (uuid _ member) (by decide)
    rw [neutralise, if_neg carriage, if_neg newline]
  have same : text.toList.flatMap neutralise = text.toList :=
    (List.flatMap_congr kept).trans (List.flatMap_singleton' _)
  rw [stripValue, same, String.ofList_toList]

variable (duration : Json.isFloatText context.duration.toList)
include duration

theorem isOf_of_mem_logged (member : line ∈ exchange.logged context hide) :
    line.bound = context.bound ∧ line.call.IsOf context.requestId := by
  obtain ⟨⟨call, index⟩, numbered, rfl⟩ := List.mem_map.mp member
  exact ⟨rfl, (logsFor_application duration).lines call (List.fst_mem_of_mem_zipIdx numbered)⟩

/-- All that is gathered for a line of a request is of the request. -/
theorem isField_of_mem_gathered (member : line ∈ exchange.logged context hide) :
    ∀ entry ∈ gathered line.bound line.timestamp line.call, IsField context.requestId entry := by
  obtain ⟨bound, own⟩ := isOf_of_mem_logged duration member
  apply forall_gathered
  · rw [bound, LogContext.bound]
    simp
  · exact own
  all_goals simp

theorem isWritten_of_mem_record (member : line ∈ exchange.logged context hide) :
    ∀ entry ∈ line.record, entry.2.IsWritten := by
  apply forall_processed
  · intro entry there
    have written := (isField_of_mem_gathered duration member entry there).1
    rw [cleanEntry, redactEntry]
    split
    · trivial
    · obtain ⟨key, value⟩ := entry
      cases value <;> exact written
  · exact fun _ => trivial

/-- A line of a request carries its id, and no other. -/
theorem requestId_mem_record_iff (uuid : IsUuidText context.requestId) (member : line ∈ exchange.logged context hide)
    {other : String} : ("requestId", .text other) ∈ line.record ↔ other = context.requestId := by
  have fields := isField_of_mem_gathered duration member
  have plain : lower "requestId" ∉ sensitiveKeys := by decide +kernel
  have cleaned : cleanEntry ("requestId", .text context.requestId) = ("requestId", .text context.requestId) := by
    rw [cleanEntry, redactEntry, if_neg plain, stripValue_of_isUuidText uuid]
  constructor
  · have held : ∀ entry ∈ line.record, entry.1 = "requestId" → entry.2 = .text context.requestId := by
      apply forall_processed
      · rintro ⟨key, value⟩ there rfl
        obtain rfl : value = .text context.requestId := (fields _ there).2 rfl
        rw [cleaned]
      · have differs : "exception" ≠ "requestId" := by decide
        exact fun traceback same => absurd same differs
    intro there
    exact Json.Value.text.inj (held _ there rfl)
  · rintro rfl
    have key : "requestId" ∈ (gathered line.bound line.timestamp line.call).map Prod.fst := by
      rw [(isOf_of_mem_logged duration member).1]
      exact mem_keys_gathered (List.mem_cons_self ..)
    obtain ⟨⟨name, value⟩, there, rfl⟩ := List.mem_map.mp key
    obtain rfl : value = .text context.requestId := (fields _ there).2 rfl
    have differs : "requestId" ≠ "exception" := by decide
    rw [← cleaned, LogLine.record, processed_eq]
    exact mem_formatExcInfo (List.mem_map_of_mem there) differs

end Stream

section Interleaving

variable {Request : Type} [DecidableEq Request]

theorem Interleaves.mem {logged : Request → List LogLine} {stream : List (Request × LogLine)}
    (interleaves : Interleaves logged stream) {line : Request × LogLine} (member : line ∈ stream) :
    line.2 ∈ logged line.1 :=
  (interleaves line.1).subset (List.mem_map_of_mem (List.mem_filter.mpr ⟨member, decide_eq_true rfl⟩))

section Read

variable {context : Request → LogContext} {hide : Bool} {exchange : Request → Exchange}
  {stream : List (Request × LogLine)}
  (interleaves : Interleaves (fun request => (exchange request).logged (context request) hide) stream)
  (durations : ∀ request, Json.isFloatText (context request).duration.toList)
include interleaves durations

theorem isWritten_of_mem_stream :
    ∀ record ∈ stream.map fun line => line.2.record, ∀ entry ∈ record, entry.2.IsWritten := by
  rw [List.forall_mem_map]
  intro line member
  exact isWritten_of_mem_record (durations line.1) (interleaves.mem member)

omit [DecidableEq Request] interleaves durations in
theorem printed_eq : printed (stream.map Prod.snd) =
    (stream.map fun line => line.2.record).flatMap fun record => Json.dumps record ++ ['\n'] := by
  rw [printed, List.flatMap_map, List.flatMap_map]
  rfl

/-- Reading the printed stream gives the records of its lines. -/
theorem readStream_printed :
    Json.readStream (printed (stream.map Prod.snd)) = some (stream.map fun line => line.2.record) := by
  rw [printed_eq]
  exact Json.readStream_flatMap_dumps (isWritten_of_mem_stream interleaves durations)

/-- The records that carry the id of a request are those of its lines. -/
theorem filter_requestId (uuids : ∀ request, IsUuidText (context request).requestId)
    (distinct : Function.Injective fun request => (context request).requestId) (request : Request) :
    (stream.map fun line => line.2.record).filter
        (fun record => ("requestId", .text (context request).requestId) ∈ record) =
      (stream.filter fun line => line.1 = request).map fun line => line.2.record := by
  rw [List.filter_map]
  apply congrArg
  apply List.filter_congr
  intro line member
  have carries : ("requestId", .text (context request).requestId) ∈ line.2.record ↔
      (context request).requestId = (context line.1).requestId :=
    requestId_mem_record_iff (durations line.1) (uuids line.1) (interleaves.mem member)
  simp only [Function.comp_apply, carries, distinct.eq_iff]
  exact decide_eq_decide.mpr eq_comm

end Read

/-- However the lines of requests stand between each other, the printed stream is printable ASCII on lines and
reads back as the records of its lines; each of them is a record, and those that carry the id of a request
are the records of that request in their order. -/
theorem log_stream_read_back (context : Request → LogContext) (hide : Bool) (exchange : Request → Exchange)
    (uuids : ∀ request, IsUuidText (context request).requestId)
    (distinct : Function.Injective fun request => (context request).requestId)
    (durations : ∀ request, Json.isFloatText (context request).duration.toList) {stream : List (Request × LogLine)}
    (interleaves : Interleaves (fun request => (exchange request).logged (context request) hide) stream) :
    (∀ c ∈ printed (stream.map Prod.snd), Json.IsPrintable c ∨ c = '\n') ∧
      ∃ records, Json.readStream (printed (stream.map Prod.snd)) = some records ∧ (∀ record ∈ records, IsRecord record) ∧
        ∀ request, records.filter (fun record => ("requestId", .text (context request).requestId) ∈ record) =
          (stream.filter fun line => line.1 = request).map fun line => line.2.record := by
  refine ⟨?_, _, readStream_printed interleaves durations, ?_,
    filter_requestId interleaves durations uuids distinct⟩
  · rw [printed_eq]
    intro c member
    obtain ⟨record, there, inside⟩ := List.mem_flatMap.mp member
    rcases List.mem_append.mp inside with dumped | ending
    · exact .inl (Json.isPrintable_dumps (isWritten_of_mem_stream interleaves durations record there) dumped)
    · exact .inr (List.mem_singleton.mp ending)
  · rw [List.forall_mem_map]
    intro line _
    exact isRecord_processed ..

/-- Two requests in flight, each with its own id. -/
def flightContext (second : Bool) : LogContext :=
  { fixedContext with
    requestId := if second then "6c84fb90-12c4-11e1-840d-7b25c5ee775a" else "0e984725-c51c-4bf4-9960-e1c80e27aba0"
    traceId := "Root=1\n\x7b\"event\": \"forged\"\x7d" }

/-- Their lines, one of the first and one of the second in turn. -/
def flightStream : List (Bool × LogLine) :=
  (((failedInsertion "cust_1").logged (flightContext false) hideParameters).zip
    ((failedInsertion "cust_2").logged (flightContext true) hideParameters)).flatMap fun lines =>
      [(false, lines.1), (true, lines.2)]

theorem isUuidText_flightContext (second : Bool) : IsUuidText (flightContext second).requestId := by
  cases second <;> simp [IsUuidText, flightContext, Json.hexValue]

theorem injective_flightContext : Function.Injective fun second => (flightContext second).requestId := by
  rintro (_ | _) (_ | _) <;> simp [flightContext]

theorem isFloatText_flightContext (second : Bool) : Json.isFloatText (flightContext second).duration.toList := by
  simp [flightContext, fixedContext, Json.isFloatText]

theorem interleaves_flightStream :
    Interleaves (fun second => (failedInsertion (if second then "cust_2" else "cust_1")).logged (flightContext second)
      hideParameters) flightStream := by
  rintro (_ | _)
  · exact ⟨[], rfl⟩
  · exact ⟨[], rfl⟩

theorem log_stream_read_back_forged_trace :
    (∀ c ∈ printed (flightStream.map Prod.snd), Json.IsPrintable c ∨ c = '\n') ∧
      ∃ records, Json.readStream (printed (flightStream.map Prod.snd)) = some records ∧
        (∀ record ∈ records, IsRecord record) ∧
        ∀ second, records.filter (fun record => ("requestId", .text (flightContext second).requestId) ∈ record) =
          (flightStream.filter fun line => line.1 = second).map fun line => line.2.record := by
  apply log_stream_read_back flightContext hideParameters fun second =>
    failedInsertion (if second then "cust_2" else "cust_1")
  · exact isUuidText_flightContext
  · exact injective_flightContext
  · exact isFloatText_flightContext
  · exact interleaves_flightStream

end Interleaving

end Meterly
