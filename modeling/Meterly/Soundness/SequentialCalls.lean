import Meterly.Model.Transcript
import Meterly.Soundness.ExportAudit

/-! # Every interleaved call is an execution of its service

Whatever else runs beside it, a call logs and comes to what the code of its service logs and comes to on the
replies that the database gave it. While a call runs, the phase it is in says which replies those are; a call
that is broken off, or whose commit is lost, is one to which the next reply never came.
-/

namespace Meterly

variable {txn other : CallId} {db target : Database} {lines : List LogCall} {rateLimitPerSec : ℤ} {scope : Scope}

/-- The principal of a call; its rate and its scope are nothing to a service. -/
def CallId.principal (txn : CallId) (rateLimitPerSec : ℤ) (scope : Scope) : AuthenticatedPrincipal :=
  ⟨txn.apiKeyId, rateLimitPerSec, scope⟩

/-- What the code of a service logs and raises or returns. -/
def Serving.ends (lines : List LogCall) (outcome : Except ServiceError ℕ) : Serving ℕ :=
  ⟨lines, outcome.mapError Raised.service⟩

/-! ## `create_event` -/

namespace CreateEventReplies

def begun : CreateEventReplies := { unheard with session.opened := .ok () }

/-- The insertion has replied, with the new event or with none. -/
def insertion (inserted : Option EventRecord) : CreateEventReplies := { begun with insertEventIfNew := .ok inserted }

/-- The quota has been looked for and, if it is there, its total has been read. -/
def judged (inserted : EventRecord) (quotaState : Option QuotaState) : CreateEventReplies :=
  { insertion (some inserted) with
    lockQuota := .ok (quotaState.map QuotaState.limitPerWindow)
    readCurrentTotal := quotaState.elim Meterly.unheard fun state => .ok state.currentTotal }

end CreateEventReplies

namespace CreateEvent

/-- What `create_event` has been told and has logged, in each phase of it. -/
inductive Heard (txn : CallId) (payload : EventCreateRequest) (receivedAt : Instant) (rateLimitPerSec : ℤ)
    (scope : Scope) : Phase → CreateEventReplies → List LogCall → Prop
  | received : Heard txn payload receivedAt rateLimitPerSec scope .received .unheard []
  | begun {startedAt : Instant} : Heard txn payload receivedAt rateLimitPerSec scope (.begun startedAt) .begun []
  | inserting {startedAt : Instant} {id : ℕ} :
      Heard txn payload receivedAt rateLimitPerSec scope (.inserting startedAt id) .begun []
  | inserted {row : EventRow} : Heard txn payload receivedAt rateLimitPerSec scope (.inserted row)
      (.insertion (some (row.record (payload.eventKey txn.apiKeyId)))) []
  | lockingQuota {row : EventRow} {version : Option CallId} :
      Heard txn payload receivedAt rateLimitPerSec scope (.lockingQuota row version)
        (.insertion (some (row.record (payload.eventKey txn.apiKeyId)))) []
  | quotaLocked {row : EventRow} {limitPerWindow : LimitPerWindow} :
      Heard txn payload receivedAt rateLimitPerSec scope (.quotaLocked row limitPerWindow)
        { CreateEventReplies.insertion (some (row.record (payload.eventKey txn.apiKeyId))) with
          lockQuota := .ok (some limitPerWindow) } []
  | judging {row : EventRow} {quotaState : Option QuotaState} :
      Heard txn payload receivedAt rateLimitPerSec scope (.judging row quotaState)
        (.judged (row.record (payload.eventKey txn.apiKeyId)) quotaState) []
  | incremented {row : EventRow} {quotaState : Option QuotaState} {rollup : RollupRow}
      (accepted : ¬ Rejected quotaState row) :
      Heard txn payload receivedAt rateLimitPerSec scope (.incremented row quotaState rollup)
        { CreateEventReplies.judged (row.record (payload.eventKey txn.apiKeyId)) quotaState with
          incrementUsageRollup := .ok () }
        [.eventCreate txn.apiKeyId "create" row.id false]
  | conflicted : Heard txn payload receivedAt rateLimitPerSec scope .conflicted (.insertion none) []
  | replayed {original : EventRecord} : Heard txn payload receivedAt rateLimitPerSec scope (.replayed original)
      { CreateEventReplies.insertion none with findEventByIdempotencyKey := .ok (some original) }
      [.eventCreate txn.apiKeyId "read" original.id true]
  | answered {outcome : Except ServiceError EventCreationOutcome} {replies : CreateEventReplies} {lines : List LogCall}
      (runs : createEvent (txn.principal rateLimitPerSec scope) payload receivedAt replies =
        Serving.ends lines (outcome.map EventCreationOutcome.httpStatus)) :
      Heard txn payload receivedAt rateLimitPerSec scope (.answered outcome) replies lines

variable {payload : EventCreateRequest} {receivedAt : Instant} {phase after : Phase} {replies : CreateEventReplies}

/-- `create_event` behind what it reads for its verdict on an inserted event. -/
theorem createEvent_judged {row : EventRow} {quotaState : Option QuotaState}
    (inserted : replies.insertEventIfNew = .ok (some (row.record (payload.eventKey txn.apiKeyId))))
    (locked : replies.lockQuota = .ok (quotaState.map QuotaState.limitPerWindow))
    (total : ∀ state ∈ quotaState, replies.readCurrentTotal = .ok state.currentTotal) :
    createEvent (txn.principal rateLimitPerSec scope) payload receivedAt replies =
      scopedTransaction replies.session (if Rejected quotaState row then do
          Logged.emit (.quotaRejected txn.apiKeyId row.customerId row.metric)
          throw (.service (quotaExceededError
            (secondsUntilNextHourBoundary receivedAt (EventCreateRequest.windowStart receivedAt))))
        else do
          execute txn.apiKeyId (.incrementUsageRollup row.customerId row.metric row.windowStart row.quantity)
            replies.incrementUsageRollup
          Logged.emit (.eventCreate txn.apiKeyId "create" row.id false)
          return 201) := by
  have reads : readTenantQuotaStateLocked txn.apiKeyId replies (row.record (payload.eventKey txn.apiKeyId)) =
      pure quotaState := by
    rw [readTenantQuotaStateLocked, locked]
    cases quotaState with
    | none => rfl
    | some state =>
      show (do let currentTotal ← execute _ _ _; _) = _
      rw [total state rfl]
      rfl
  have admits : createEvent (txn.principal rateLimitPerSec scope) payload receivedAt replies =
      scopedTransaction replies.session (admitInserted (txn.principal rateLimitPerSec scope) receivedAt replies
        (row.record (payload.eventKey txn.apiKeyId))) := by
    rw [createEvent, inserted]
    rfl
  rw [admits, admitInserted]
  change scopedTransaction _ (do let quotaState ← readTenantQuotaStateLocked txn.apiKeyId _ _; _) = _
  rw [reads]
  rfl

theorem not_rejected_none {row : EventRow} : ¬ Rejected none row := by
  rintro ⟨state, absent, -⟩
  contradiction

/-- Broken off while it runs, the code of `create_event` has logged what the call has. -/
theorem Heard.broken_off (heard : Heard txn payload receivedAt rateLimitPerSec scope phase replies lines)
    (running : ∀ outcome, phase ≠ .answered outcome) :
    createEvent (txn.principal rateLimitPerSec scope) payload receivedAt (breakOff replies phase) =
      Serving.ends lines (.error .interrupted) := by
  cases heard with
  | received | begun | inserting | inserted | lockingQuota | quotaLocked | conflicted | replayed => rfl
  | @judging row quotaState =>
    cases quotaState with
    | none =>
      simp only [breakOff]
      rw [createEvent_judged rfl rfl (by rintro state ⟨⟩), if_neg not_rejected_none]
      rfl
    | some state => rfl
  | incremented accepted =>
    simp only [breakOff]
    rw [createEvent_judged rfl rfl (by rintro state ⟨⟩; rfl), if_neg accepted]
    rfl
  | answered => exact absurd rfl (running _)

/-- One step of `create_event` goes on with what the code does on the reply that the step gets. -/
theorem Heard.advanced (heard : Heard txn payload receivedAt rateLimitPerSec scope phase replies lines)
    (moves : Advanced txn payload receivedAt db phase after target) :
    Heard txn payload receivedAt rateLimitPerSec scope after (hear txn payload receivedAt db replies phase)
      (lines ++ logged txn phase after) := by
  cases moves with
  | opens =>
    cases heard
    exact .begun
  | draws =>
    cases heard
    exact .inserting
  | inserts free fresh =>
    cases heard
    rw [hear, Database.insertEventIfNew, if_pos free, fresh]
    exact .inserted
  | conflicts free found =>
    cases heard
    rw [hear, Database.insertEventIfNew, if_pos free, found]
    exact .conflicted
  | seesNoQuota absent =>
    cases heard
    rw [hear, if_pos absent]
    exact .judging
  | seesQuota seen =>
    cases heard
    rw [hear, if_neg (by rw [seen]; exact Option.some_ne_none _)]
    exact .lockingQuota
  | losesQuota free gone =>
    cases heard
    rw [hear, Database.lockQuota, if_pos free, gone]
    exact .judging
  | locksQuota free latest =>
    cases heard
    rw [hear, Database.lockQuota, if_pos free, latest]
    exact .quotaLocked
  | readsTotal =>
    cases heard
    exact .judging
  | rejects rejected =>
    cases heard
    rw [hear, if_pos rejected]
    refine .answered ?_
    rw [createEvent_judged rfl rfl (by rintro state ⟨⟩; rfl), if_pos rejected]
    rfl
  | increments accepted free =>
    cases heard
    rw [hear, if_neg accepted, Database.incrementUsageRollup, if_pos free]
    exact .incremented accepted
  | commits =>
    cases heard with
    | incremented accepted =>
      refine .answered ?_
      rw [createEvent_judged rfl rfl (by rintro state ⟨⟩; rfl), if_neg accepted]
      rfl
  | finds found =>
    cases heard
    rw [hear, Database.findEventByIdempotencyKey, found]
    exact .replayed
  | findsNothing missing =>
    cases heard
    rw [hear, Database.findEventByIdempotencyKey, missing]
    exact .answered rfl
  | replays =>
    cases heard
    exact .answered rfl

end CreateEvent

/-! ## The services of one statement -/

namespace SingleReply

variable {α : Type}

def begun : SingleReply α := { unheard with session.opened := .ok () }

def replied (value : α) : SingleReply α := { (begun : SingleReply α) with reply := .ok value }

end SingleReply

namespace UpsertQuota

/-- What `upsert_tenant_quota` has been told and has logged, in each phase of it. -/
inductive Heard (txn : CallId) (payload : QuotaPutRequest) (rateLimitPerSec : ℤ) (scope : Scope) :
    Phase → SingleReply QuotaRecord → List LogCall → Prop
  | received : Heard txn payload rateLimitPerSec scope .received .unheard []
  | begun : Heard txn payload rateLimitPerSec scope .begun .begun []
  | written {record : QuotaRecord} {row : QuotaRow} :
      Heard txn payload rateLimitPerSec scope (.written record row) (.replied record) []
  | answered {outcome : Except ServiceError QuotaUpsertOutcome} {replies : SingleReply QuotaRecord} {lines : List LogCall}
      (runs : upsertTenantQuota (txn.principal rateLimitPerSec scope) payload replies =
        Serving.ends lines (outcome.map QuotaUpsertOutcome.httpStatus)) :
      Heard txn payload rateLimitPerSec scope (.answered outcome) replies lines

variable {payload : QuotaPutRequest} {phase after : Phase} {replies : SingleReply QuotaRecord}

theorem Heard.broken_off (heard : Heard txn payload rateLimitPerSec scope phase replies lines)
    (running : ∀ outcome, phase ≠ .answered outcome) :
    upsertTenantQuota (txn.principal rateLimitPerSec scope) payload replies =
      Serving.ends lines (.error .interrupted) := by
  cases heard with
  | received | begun | written => rfl
  | answered => exact absurd rfl (running _)

theorem Heard.advanced (heard : Heard txn payload rateLimitPerSec scope phase replies lines)
    (moves : Advanced txn payload db phase after target) :
    Heard txn payload rateLimitPerSec scope after (hear txn payload db replies phase)
      (lines ++ logged txn phase after) := by
  cases moves with
  | opens =>
    cases heard
    exact .begun
  | inserts free absent =>
    cases heard
    rw [hear, Database.upsertQuota, if_pos free, absent]
    exact .written
  | replaces free found =>
    cases heard
    rw [hear, Database.upsertQuota, if_pos free, found]
    exact .written
  | commits =>
    cases heard
    exact .answered rfl

end UpsertQuota

namespace DeleteQuota

/-- What `delete_tenant_quota` has been told and has logged, in each phase of it. -/
inductive Heard (txn : CallId) (params : QuotaDeleteParams) (rateLimitPerSec : ℤ) (scope : Scope) :
    Phase → SingleReply Bool → List LogCall → Prop
  | received : Heard txn params rateLimitPerSec scope .received .unheard []
  | begun : Heard txn params rateLimitPerSec scope .begun .begun []
  | deleting {version : Option CallId} : Heard txn params rateLimitPerSec scope (.deleting version) .begun []
  | removed {found : Bool} : Heard txn params rateLimitPerSec scope (.removed found) (.replied found) []
  | answered {outcome : Except ServiceError Unit} {replies : SingleReply Bool} {lines : List LogCall}
      (runs : deleteTenantQuota (txn.principal rateLimitPerSec scope) params replies =
        Serving.ends lines (outcome.map fun _ => 204)) :
      Heard txn params rateLimitPerSec scope (.answered outcome) replies lines

variable {params : QuotaDeleteParams} {phase after : Phase} {replies : SingleReply Bool}

theorem Heard.broken_off (heard : Heard txn params rateLimitPerSec scope phase replies lines)
    (running : ∀ outcome, phase ≠ .answered outcome) :
    deleteTenantQuota (txn.principal rateLimitPerSec scope) params replies =
      Serving.ends lines (.error .interrupted) := by
  cases heard with
  | received | begun | deleting | removed => rfl
  | answered => exact absurd rfl (running _)

theorem Heard.advanced (heard : Heard txn params rateLimitPerSec scope phase replies lines)
    (moves : Advanced txn params db phase after target) :
    Heard txn params rateLimitPerSec scope after (hear txn params db replies phase)
      (lines ++ logged txn params phase after) := by
  cases moves with
  | opens =>
    cases heard
    exact .begun
  | seesNothing absent =>
    cases heard
    rw [hear, if_pos absent]
    exact .removed
  | sees seen =>
    cases heard
    rw [hear, if_neg (by rw [seen]; exact Option.some_ne_none _)]
    exact .deleting
  | loses free gone =>
    cases heard
    rw [hear, Database.deleteQuota, if_pos free, gone]
    exact .removed
  | removes free latest =>
    cases heard
    rw [hear, Database.deleteQuota, if_pos free, latest]
    exact .removed
  | @commits found =>
    cases heard
    cases found with
    | false => exact .answered rfl
    | true => exact .answered rfl

end DeleteQuota

/-! ## The services that read -/

namespace Reading

variable {Args Result Response : Type}

/-- The code of a reading service: its arguments, its transaction around one statement, then its lines. -/
def serve (principal : AuthenticatedPrincipal) (args : Except ServiceError Args) (statement : Args → Statement)
    (lines : Args → Result → List LogCall) (replies : SingleReply Result) : Serving ℕ := do
  let value ← Logged.ofExcept (args.mapError .service)
  let result ← single principal (statement value) replies
  (lines value result).forM Logged.emit
  return 200

/-- What a reading service has been told, in each phase of it, and what it has logged. -/
inductive Heard (args : Except ServiceError Args) (code : SingleReply Result → Serving ℕ) :
    Phase Args Result Response → SingleReply Result → List LogCall → Prop
  | received : Heard args code .received .unheard []
  | begun {value : Args} (valid : args = .ok value) : Heard args code (.begun value) .begun []
  | read {value : Args} {result : Result} (valid : args = .ok value) :
      Heard args code (.read value result) (.replied result) []
  | answered {outcome : Except ServiceError Response} {replies : SingleReply Result} {lines : List LogCall}
      (runs : code replies = Serving.ends lines (outcome.map fun _ => 200)) : Heard args code (.answered outcome) replies lines
  | brokenOff {replies : SingleReply Result} {lines : List LogCall} :
      Heard args code (.answered (.error .interrupted)) replies lines

variable {args : Except ServiceError Args} {statement : Args → Statement} {spoken : Args → Result → List LogCall}
  {query : Args → Database → Result} {respond : Args → Result → Response} {phase after : Phase Args Result Response}
  {replies : SingleReply Result}

theorem forM_emit (lines : List LogCall) : (lines.forM Logged.emit : Serving Unit) = ⟨lines, .ok ()⟩ := by
  induction lines with
  | nil => rfl
  | cons line rest ih =>
    change (Logged.emit line >>= fun _ => rest.forM Logged.emit) = _
    rw [ih]
    rfl

theorem serve_refused {principal : AuthenticatedPrincipal} {error : ServiceError} :
    serve principal (.error error) statement spoken replies = Serving.ends [] (.error error) := rfl

theorem serve_committed {principal : AuthenticatedPrincipal} {value : Args} {result : Result} :
    serve principal (.ok value) statement spoken { SingleReply.replied result with session.committed := .ok () } =
      Serving.ends (spoken value result) (.ok 200) := by
  change ((spoken value result).forM Logged.emit >>= fun _ => pure 200) = _
  rw [forM_emit]
  change Logged.mk (spoken value result ++ []) _ = _
  rw [List.append_nil]
  rfl

theorem Heard.advanced {principal : AuthenticatedPrincipal}
    (heard : Heard args (serve principal args statement spoken) phase replies lines)
    (moves : Advanced txn args query respond db phase after target) :
    Heard args (serve principal args statement spoken) after (hear args query db replies phase)
      (lines ++ logged spoken phase after) := by
  cases moves with
  | refuses invalid =>
    cases heard
    subst invalid
    exact .answered rfl
  | opens valid =>
    cases heard
    subst valid
    exact .begun rfl
  | reads =>
    cases heard with
    | begun valid => exact .read valid
  | commits =>
    cases heard with
    | read valid =>
      subst valid
      exact .answered serve_committed

end Reading

/-! ## Exports -/

namespace ExportUsage

/-- `prepare_export`, and the body of its response. -/
def serve (principal : AuthenticatedPrincipal) (params : UsageExportQueryParams) (replies : ExportReplies) :
    Serving ℕ := do
  prepareExport principal params replies.count
  exportBody principal params replies
  return 200

/-- The count has replied and its transaction has ended. -/
def prepared (rowCount : ℕ) : ExportReplies :=
  { ExportReplies.unheard with count := { SingleReply.replied rowCount with session.committed := .ok () } }

/-- What an export has been told, in each phase of it, and what it has logged. -/
inductive Heard (txn : CallId) (params : UsageExportQueryParams) (rateLimitPerSec : ℤ) (scope : Scope) :
    Phase → ExportReplies → List LogCall → Prop
  | received : Heard txn params rateLimitPerSec scope .received .unheard []
  | begun : Heard txn params rateLimitPerSec scope .begun { ExportReplies.unheard with count := .begun } []
  | counted {rowCount : ℕ} : Heard txn params rateLimitPerSec scope (.counted rowCount)
      { ExportReplies.unheard with count := .replied rowCount } []
  | prepared {rowCount : ℕ} (small : rowCount ≤ maxExportRows) :
      Heard txn params rateLimitPerSec scope .prepared (prepared rowCount) []
  | headerSent {rowCount : ℕ} (small : rowCount ≤ maxExportRows) :
      Heard txn params rateLimitPerSec scope .headerSent { prepared rowCount with pulls := 1 } []
  | streamBegun {rowCount : ℕ} (small : rowCount ≤ maxExportRows) :
      Heard txn params rateLimitPerSec scope .streamBegun { prepared rowCount with pulls := 1 } []
  | streaming {rowCount : ℕ} {records : List UsageRollupExportRecord} (small : rowCount ≤ maxExportRows) :
      Heard txn params rateLimitPerSec scope (.streaming records)
        { prepared rowCount with records, pulls := 1 } []
  | answered {outcome : Except ServiceError ExportBody} {replies : ExportReplies} {lines : List LogCall}
      (runs : serve (txn.principal rateLimitPerSec scope) params replies =
        Serving.ends lines (outcome.map fun _ => 200)) :
      Heard txn params rateLimitPerSec scope (.answered outcome) replies lines
  | brokenOff {replies : ExportReplies} {lines : List LogCall} :
      Heard txn params rateLimitPerSec scope (.answered (.error .interrupted)) replies lines

variable {params : UsageExportQueryParams} {phase after : Phase} {replies : ExportReplies} {rowCount : ℕ}
  {records : List UsageRollupExportRecord}

theorem prepareExport_prepared : prepareExport (txn.principal rateLimitPerSec scope) params (prepared rowCount).count =
    if maxExportRows < rowCount then do
      Logged.emit (.usageExportRejected txn.apiKeyId)
      throw (.service exportTooLarge)
    else return () := rfl

theorem serve_refused (large : maxExportRows < rowCount) :
    serve (txn.principal rateLimitPerSec scope) params (prepared rowCount) =
      Serving.ends [.usageExportRejected txn.apiKeyId] (.error exportTooLarge) := by
  rw [serve, prepareExport_prepared, if_pos large]
  rfl

/-- There are fewer chunks than the server asks for. -/
theorem length_chunks_lt (call : ExportCall) : call.chunks.length < call.records.length + 3 := by
  have full : call.fullBatches ≤ call.records.length := Nat.div_le_self ..
  rw [ExportCall.chunks_eq, List.length_append, ExportCall.length_chunksTo]
  split_ifs
  · rw [List.length_nil]
    omega
  · rw [List.length_singleton]
    omega

theorem exportBody_of_finished {principal : AuthenticatedPrincipal}
    (ended : ((exportCall principal params replies).asked replies.pulls).place = .finished) :
    exportBody principal params replies = (do
      ((exportCall principal params replies).asked replies.pulls).logged.forM fun line => Logged.emit (.usageExport line)
      execute principal.apiKeyId (.streamUsageRollups params maxExportRows) replies.ending) := if_pos ended

/-- A body that is asked for often enough is streamed to its end and logs its line. -/
theorem serve_completed (small : rowCount ≤ maxExportRows) :
    serve (txn.principal rateLimitPerSec scope) params
      { prepared rowCount with records, ending := .ok (), pulls := records.length + 3 } =
      Serving.ends [.usageExport (.ofBody txn.apiKeyId params (streamExportCsv records))] (.ok 200) := by
  let replies : ExportReplies := { prepared rowCount with records, ending := .ok (), pulls := records.length + 3 }
  let call := exportCall (txn.principal rateLimitPerSec scope) params replies
  have ends : call.asked (records.length + 3) = (ExportGenerator.holding (streamExportCsv records).rowCount [] .finished
      (streamExportCsv records).chunks).complete call :=
    ExportCall.asked_eq_streamExportCsv Bool.false_ne_true (length_chunks_lt call)
  have body : exportBody (txn.principal rateLimitPerSec scope) params replies =
      Logged.emit (.usageExport (.ofBody txn.apiKeyId params (streamExportCsv records))) := by
    have logged : (call.asked replies.pulls).logged = [.ofBody txn.apiKeyId params (streamExportCsv records)] := by
      rw [ends]
      rfl
    rw [exportBody_of_finished (by rw [ends]; rfl), logged]
    rfl
  rw [serve, body, prepareExport_prepared, if_neg (not_lt.mpr small)]
  rfl

theorem Heard.advanced (heard : Heard txn params rateLimitPerSec scope phase replies lines)
    (moves : Advanced txn params db phase after target) :
    Heard txn params rateLimitPerSec scope after (hear txn params db replies phase)
      (lines ++ logged txn params phase after) := by
  cases moves with
  | opens =>
    cases heard
    exact .begun
  | counts =>
    cases heard
    exact .counted
  | refuses large =>
    cases heard
    exact .answered (serve_refused large)
  | prepares small =>
    cases heard
    exact .prepared small
  | sendsHeader =>
    cases heard with
    | prepared small => exact .headerSent small
  | opensStream =>
    cases heard with
    | headerSent small => exact .streamBegun small
  | streams =>
    cases heard with
    | streamBegun small => exact .streaming small
  | completes =>
    cases heard with
    | streaming small => exact .answered (serve_completed small)

end ExportUsage

/-! ## Calls -/

/-- What a call has been told and has logged. -/
inductive Call.Heard (txn : CallId) (rateLimitPerSec : ℤ) (scope : Scope) : Call → Option Route → List LogCall → Prop
  | idle : Heard txn rateLimitPerSec scope .idle none []
  | createEvent {payload : EventCreateRequest} {receivedAt : Instant} {phase : CreateEvent.Phase}
      {replies : CreateEventReplies} {lines : List LogCall}
      (heard : CreateEvent.Heard txn payload receivedAt rateLimitPerSec scope phase replies lines) :
      Heard txn rateLimitPerSec scope (.createEvent payload receivedAt phase)
        (some (.postEvent payload receivedAt replies)) lines
  | upsertQuota {payload : QuotaPutRequest} {phase : UpsertQuota.Phase} {replies : SingleReply QuotaRecord}
      {lines : List LogCall} (heard : UpsertQuota.Heard txn payload rateLimitPerSec scope phase replies lines) :
      Heard txn rateLimitPerSec scope (.upsertQuota payload phase) (some (.putQuota payload replies)) lines
  | deleteQuota {params : QuotaDeleteParams} {phase : DeleteQuota.Phase} {replies : SingleReply Bool}
      {lines : List LogCall} (heard : DeleteQuota.Heard txn params rateLimitPerSec scope phase replies lines) :
      Heard txn rateLimitPerSec scope (.deleteQuota params phase) (some (.deleteQuota params replies)) lines
  | listQuotas {phase : ListQuotas.Phase} {replies : SingleReply (List QuotaListItem)} {lines : List LogCall}
      (heard : Reading.Heard (.ok ()) (listTenantQuotas (txn.principal rateLimitPerSec scope)) phase replies lines) :
      Heard txn rateLimitPerSec scope (.listQuotas phase) (some (.listQuotas replies)) lines
  | getUsage {query : UsageQueryParams} {phase : GetUsage.Phase} {replies : SingleReply (Option RollupRow)}
      {lines : List LogCall}
      (heard : Reading.Heard (.ok ()) (Meterly.getUsage (txn.principal rateLimitPerSec scope) query) phase replies lines) :
      Heard txn rateLimitPerSec scope (.getUsage query phase) (some (.getUsage query replies)) lines
  | getDailyUsage {date : Option String} {receivedAt : Instant} {phase : GetDailyUsage.Phase}
      {replies : SingleReply (List DailyMetricCount)} {lines : List LogCall}
      (heard : Reading.Heard (parseDailyDate date receivedAt)
        (Meterly.getDailyUsage (txn.principal rateLimitPerSec scope) date receivedAt) phase replies lines) :
      Heard txn rateLimitPerSec scope (.getDailyUsage date receivedAt phase)
        (some (.getUsageDaily date receivedAt replies)) lines
  | exportUsage {params : UsageExportQueryParams} {phase : ExportUsage.Phase} {replies : ExportReplies}
      {lines : List LogCall} (heard : ExportUsage.Heard txn params rateLimitPerSec scope phase replies lines) :
      Heard txn rateLimitPerSec scope (.exportUsage params phase) (some (.getUsageExport params replies)) lines

section Call

variable {call after : Call} {route : Option Route} {verdict : Except ServiceError ℕ}

theorem listTenantQuotas_eq (principal : AuthenticatedPrincipal) : listTenantQuotas principal =
    Reading.serve principal (.ok ()) (fun _ => .listQuotas) (fun _ _ => []) := rfl

theorem getUsage_eq (principal : AuthenticatedPrincipal) (query : UsageQueryParams) : getUsage principal query =
    Reading.serve principal (.ok ())
      (fun _ => .findUsageRollup query.customerId query.metric (GetUsage.windowStart query))
      (fun _ rollup => [.usageRead principal.apiKeyId rollup.isSome]) := rfl

theorem getDailyUsage_eq (principal : AuthenticatedPrincipal) (date : Option String) (now : Instant) :
    getDailyUsage principal date now = Reading.serve principal (parseDailyDate date now)
      (fun window => .aggregateDailyEventCounts window.dayStart window.dayEnd)
      (fun window records => [.usageDailyRead principal.apiKeyId window.dateStr records.length]) := rfl

/-- A list of quotas logs nothing. -/
theorem spoken_listQuotas (before after : ListQuotas.Phase) :
    Call.spoken txn (.listQuotas before) (.listQuotas after) = Reading.logged (fun _ _ => []) before after := by
  cases before <;> cases after <;> rfl

/-- A step of a call goes on with what the code of its service does on the reply that the step gets. -/
theorem Call.Heard.advanced (heard : Call.Heard txn rateLimitPerSec scope call route lines)
    (moves : Call.Advanced txn db call after target) :
    Call.Heard txn rateLimitPerSec scope after (route.map (Route.hear txn db call)) (lines ++ call.spoken txn after) := by
  cases moves with
  | createEvent moves =>
    cases heard with
    | createEvent heard => exact .createEvent (heard.advanced moves)
  | upsertQuota moves =>
    cases heard with
    | upsertQuota heard => exact .upsertQuota (heard.advanced moves)
  | deleteQuota moves =>
    cases heard with
    | deleteQuota heard => exact .deleteQuota (heard.advanced moves)
  | listQuotas moves =>
    cases heard with
    | listQuotas heard =>
      refine .listQuotas ?_
      rw [spoken_listQuotas]
      rw [listTenantQuotas_eq] at heard ⊢
      exact heard.advanced moves
  | getUsage moves =>
    cases heard with
    | getUsage heard =>
      refine .getUsage ?_
      rw [getUsage_eq] at heard ⊢
      exact heard.advanced moves
  | getDailyUsage moves =>
    cases heard with
    | getDailyUsage heard =>
      refine .getDailyUsage ?_
      rw [getDailyUsage_eq] at heard ⊢
      exact heard.advanced moves
  | exportUsage moves =>
    cases heard with
    | exportUsage heard => exact .exportUsage (heard.advanced moves)

/-- A call that is broken off has done what the code does when the next reply does not come. -/
theorem Call.Heard.broken_off (heard : Call.Heard txn rateLimitPerSec scope call route lines) (running : call.isRunning) :
    Call.Heard txn rateLimitPerSec scope call.interrupt (route.map (Route.breakOff call)) lines := by
  cases heard with
  | idle => contradiction
  | createEvent heard =>
    refine .createEvent (.answered (heard.broken_off ?_))
    rintro outcome rfl
    contradiction
  | upsertQuota heard =>
    refine .upsertQuota (.answered (heard.broken_off ?_))
    rintro outcome rfl
    contradiction
  | deleteQuota heard =>
    refine .deleteQuota (.answered (heard.broken_off ?_))
    rintro outcome rfl
    contradiction
  | listQuotas => exact .listQuotas .brokenOff
  | getUsage => exact .getUsage .brokenOff
  | getDailyUsage => exact .getDailyUsage .brokenOff
  | exportUsage => exact .exportUsage .brokenOff

/-- A response without a body of its own comes to its status. -/
theorem served_status {code : Serving ℕ} {outcome : Except ServiceError ℕ} (runs : code = Serving.ends lines outcome) :
    (do
      let response ← (do return ⟨← code, pure ()⟩ : Serving Response)
      response.body
      return response.statusCode) = Serving.ends lines outcome := by
  subst runs
  cases outcome with
  | error error => rfl
  | ok status =>
    change Logged.mk (lines ++ [] ++ []) _ = _
    rw [List.append_nil, List.append_nil]
    rfl

/-- The body of an export is served behind its status. -/
theorem served_export {principal : AuthenticatedPrincipal} {params : UsageExportQueryParams} {replies : ExportReplies}
    {outcome : Except ServiceError ℕ} (runs : ExportUsage.serve principal params replies = Serving.ends lines outcome) :
    Route.served principal (.getUsageExport params replies) = Serving.ends lines outcome := by
  rw [← runs, ExportUsage.serve, Route.served, Route.serve]
  cases prepareExport principal params replies.count with
  | mk earlier result =>
    cases result with
    | error error => rfl
    | ok value =>
      change Logged.mk ((earlier ++ []) ++ _) _ = _
      rw [List.append_nil]
      rfl

theorem readVerdict_eq_some {α : Type} {outcome : Except ServiceError α} (ended : readVerdict outcome = some verdict) :
    outcome.map (fun _ => 200) = verdict := by
  unfold readVerdict at ended
  split at ended
  · contradiction
  · exact Option.some.inj ended

theorem Reading.Heard.served {Args Result Response : Type} {args : Except ServiceError Args}
    {code : SingleReply Result → Serving ℕ} {outcome : Except ServiceError Response} {replies : SingleReply Result}
    (heard : Reading.Heard args code (.answered outcome) replies lines) (ended : readVerdict outcome = some verdict) :
    code replies = Serving.ends lines verdict := by
  obtain rfl := readVerdict_eq_some ended
  cases heard with
  | answered runs => exact runs
  | brokenOff => contradiction

/-- A call that has come to something is an execution of the code of its service. -/
theorem Call.Heard.served (heard : Call.Heard txn rateLimitPerSec scope call route lines)
    (ended : call.verdict = some verdict) :
    ∃ told, route = some told ∧ call.request = some told.request ∧
      told.served (txn.principal rateLimitPerSec scope) = Serving.ends lines verdict := by
  cases heard with
  | idle => contradiction
  | @createEvent payload receivedAt phase replies lines heard =>
    refine ⟨_, rfl, rfl, ?_⟩
    cases heard with
    | answered runs =>
      obtain rfl := Option.some.inj ended
      exact served_status runs
    | received | begun | inserting | inserted | lockingQuota | quotaLocked | judging | incremented | conflicted |
        replayed => contradiction
  | upsertQuota heard =>
    refine ⟨_, rfl, rfl, ?_⟩
    cases heard with
    | answered runs =>
      obtain rfl := Option.some.inj ended
      exact served_status runs
    | received | begun | written => contradiction
  | deleteQuota heard =>
    refine ⟨_, rfl, rfl, ?_⟩
    cases heard with
    | answered runs =>
      obtain rfl := Option.some.inj ended
      exact served_status runs
    | received | begun | deleting | removed => contradiction
  | @listQuotas phase replies lines heard =>
    refine ⟨_, rfl, rfl, ?_⟩
    cases phase with
    | answered outcome => exact served_status (heard.served ended)
    | received | begun | read => contradiction
  | @getUsage query phase replies lines heard =>
    refine ⟨_, rfl, rfl, ?_⟩
    cases phase with
    | answered outcome => exact served_status (heard.served ended)
    | received | begun | read => contradiction
  | @getDailyUsage date receivedAt phase replies lines heard =>
    refine ⟨_, rfl, rfl, ?_⟩
    cases phase with
    | answered outcome => exact served_status (heard.served ended)
    | received | begun | read => contradiction
  | exportUsage heard =>
    refine ⟨_, rfl, rfl, ?_⟩
    cases heard with
    | answered runs =>
      obtain rfl := readVerdict_eq_some ended
      exact served_export runs
    | brokenOff => contradiction
    | received | begun | counted | prepared | headerSent | streamBegun | streaming => contradiction

theorem Call.Heard.lines_of_idle (heard : Call.Heard txn rateLimitPerSec scope .idle route lines) : lines = [] := by
  cases heard
  rfl

/-- A call that is opened has been told nothing. -/
theorem Request.heard_call (request : Request) :
    Call.Heard txn rateLimitPerSec scope request.call (some request.unanswered) [] := by
  cases request with
  | createEvent => exact .createEvent .received
  | upsertQuota => exact .upsertQuota .received
  | deleteQuota => exact .deleteQuota .received
  | listQuotas => exact .listQuotas .received
  | getUsage => exact .getUsage .received
  | getDailyUsage => exact .getDailyUsage .received
  | exportUsage => exact .exportUsage .received

end Call

/-! ## Runs -/

/-- The call reads, and changes nothing. -/
def Call.reads : Call → Bool
  | listQuotas _ | getUsage .. | getDailyUsage .. | exportUsage .. => true
  | idle | createEvent .. | upsertQuota .. | deleteQuota .. => false

theorem Call.reads_interrupt (call : Call) : call.interrupt.reads = call.reads := by
  cases call <;> rfl

theorem Call.Advanced.reads {call after : Call} (moves : Call.Advanced txn db call after target) :
    after.reads = call.reads := by
  cases moves <;> rfl

theorem Call.Advanced.spoken_eq_logged {call after : Call} (moves : Call.Advanced txn db call after target)
    (writes : ¬ call.reads) : call.spoken txn after = call.logged txn after := by
  cases moves with
  | createEvent | upsertQuota | deleteQuota => rfl
  | listQuotas | getUsage | getDailyUsage | exportUsage => exact absurd rfl writes

namespace Transcript

variable {s current final : Transcript} {action : AuditAction} {schedule : List AuditAction} {next : State}
  {verdict : Except ServiceError ℕ}

/-- Each call stands where the code of its service stands on what the call has been told, with the same lines. -/
def Faithful (rateLimitPerSec : ℤ) (scope : Scope) (s : Transcript) : Prop :=
  ∀ txn, Call.Heard txn rateLimitPerSec scope (s.system.calls txn) (s.routes txn) (ofCall txn s.lines)

/-- A step of one call leaves the others where they stand. -/
theorem Faithful.put {call : Call} {route : Option Route} {added : List LogCall}
    (faithful : s.Faithful rateLimitPerSec scope)
    (heard : Call.Heard txn rateLimitPerSec scope call route (ofCall txn s.lines ++ added)) :
    Faithful rateLimitPerSec scope
      ⟨s.system.record txn call db, s.lines ++ added.map (Prod.mk txn), Function.update s.routes txn route⟩ := by
  intro other
  show Call.Heard other rateLimitPerSec scope ((s.system.record txn call db).calls other)
    (Function.update s.routes txn route other) (ofCall other (s.lines ++ added.map (Prod.mk txn)))
  by_cases own : other = txn
  · subst other
    rwa [State.calls_record_self, Function.update_self, ofCall_append_self]
  · rw [State.calls_record_of_ne own, Function.update_of_ne own, ofCall_append_of_ne own]
    exact faithful other

/-- A step of one call that logs nothing leaves the others where they stand. -/
theorem Faithful.put_silent {call : Call} {route : Option Route} (faithful : s.Faithful rateLimitPerSec scope)
    (heard : Call.Heard txn rateLimitPerSec scope call route (ofCall txn s.lines)) :
    Faithful rateLimitPerSec scope
      { s with system := s.system.record txn call db, routes := Function.update s.routes txn route } := by
  rw [← List.append_nil (ofCall txn s.lines)] at heard
  have put : Faithful rateLimitPerSec scope ⟨s.system.record txn call db, s.lines ++ List.map (Prod.mk txn) [], _⟩ :=
    faithful.put heard
  rwa [List.map_nil, List.append_nil] at put

theorem Faithful.broken_off (faithful : s.Faithful rateLimitPerSec scope) (running : (s.system.calls txn).isRunning) :
    (s.breakOff txn (s.system.record txn (s.system.calls txn).interrupt db)).Faithful rateLimitPerSec scope :=
  faithful.put_silent ((faithful txn).broken_off running)

/-- One action, whatever it is, keeps every call with the code of its service. -/
theorem Faithful.step (faithful : s.Faithful rateLimitPerSec scope) (steps : s.step action = some final) :
    final.Faithful rateLimitPerSec scope := by
  cases action with
  | lostCommit txn =>
    simp only [Transcript.step] at steps
    split_ifs at steps with committing
    obtain rfl := Option.some.inj steps
    exact faithful.broken_off (Call.running_of_commits committing)
  | act a =>
    obtain ⟨next, enabled, rfl⟩ := Option.map_eq_some_iff.mp steps
    cases stepped_of_step enabled with
    | @start txn request idle =>
      have heard := faithful txn
      rw [idle] at heard
      apply faithful.put_silent
      rw [heard.lines_of_idle]
      exact request.heard_call
    | @advance txn call db moves =>
      rw [record, State.calls_record_self]
      exact faithful.put ((faithful txn).advanced moves)
    | @interrupt txn running => exact faithful.broken_off running
    | tick => exact faithful

/-! The machine of the audit lines takes the same steps, and logs what the writing services log here. -/

/-- The same system, and the same lines of the calls that do not read. -/
structure AuditedBy (s : Transcript) (audited : AuditState) : Prop where
  system : audited.system = s.system
  lines : ∀ txn, ¬ (s.system.calls txn).reads → ofCall txn audited.lines = ofCall txn s.lines

/-- A step of a call that stays of its kind keeps the lines of the writing calls together. -/
theorem AuditedBy.lines_put {audited : AuditState} (same : s.AuditedBy audited) {call : Call}
    {logged spoken : List LogCall} (kind : ¬ call.reads → ¬ (s.system.calls txn).reads)
    (agree : ¬ call.reads → logged = spoken) (writes : ¬ ((s.system.record txn call db).calls other).reads) :
    ofCall other (audited.lines ++ logged.map (Prod.mk txn)) = ofCall other (s.lines ++ spoken.map (Prod.mk txn)) := by
  by_cases own : other = txn
  · subst other
    rw [State.calls_record_self] at writes
    rw [ofCall_append_self, ofCall_append_self, same.lines txn (kind writes), agree writes]
  · rw [State.calls_record_of_ne own] at writes
    rw [ofCall_append_of_ne own, ofCall_append_of_ne own, same.lines other writes]

/-- A step that logs nothing, and leaves a writing call one, keeps the lines together. -/
theorem AuditedBy.lines_put_silent {audited : AuditState} (same : s.AuditedBy audited) {call : Call}
    (kind : ¬ call.reads → ¬ (s.system.calls txn).reads)
    (writes : ¬ ((s.system.record txn call db).calls other).reads) :
    ofCall other audited.lines = ofCall other s.lines := by
  have kept : ofCall other (audited.lines ++ List.map (Prod.mk txn) []) = _ := same.lines_put kind (fun _ => rfl) writes
  rwa [List.map_nil, List.append_nil, List.append_nil] at kept

theorem AuditedBy.step {audited : AuditState} (same : s.AuditedBy audited) (steps : s.step action = some final) :
    ∃ next, audited.step action = some next ∧ final.AuditedBy next := by
  cases action with
  | lostCommit txn =>
    simp only [Transcript.step] at steps
    split_ifs at steps with committing
    obtain rfl := Option.some.inj steps
    rw [← same.system] at committing
    refine ⟨_, if_pos committing, ?_, fun other writes => ?_⟩
    · rw [same.system]
      rfl
    · refine same.lines_put_silent ?_ writes
      rw [Call.reads_interrupt]
      exact id
  | act a =>
    obtain ⟨next, enabled, rfl⟩ := Option.map_eq_some_iff.mp steps
    refine ⟨audited.record next a, ?_, ?_, ?_⟩
    · rw [AuditState.step, same.system, enabled]
      rfl
    · rw [AuditState.system_record]
      cases a <;> rfl
    · cases stepped_of_step enabled with
      | @start txn request idle =>
        refine fun other writes => same.lines_put_silent (fun _ => ?_) writes
        rw [idle]
        exact Bool.false_ne_true
      | @advance txn call db moves =>
        intro other writes
        rw [AuditState.record, record, same.system, State.calls_record_self]
        refine same.lines_put ?_ (fun writes => (moves.spoken_eq_logged ?_).symm) writes
        · rw [moves.reads]
          exact id
        · rwa [moves.reads] at writes
      | @interrupt txn running =>
        refine fun other writes => same.lines_put_silent ?_ writes
        rw [Call.reads_interrupt]
        exact id
      | tick => exact same.lines

/-- Under the same schedule the machine of the audit lines is in the same state, and the lines of the calls that
write are the same. -/
theorem exists_audited {db : Database} (reached : Machine.run Transcript.step (.init db) schedule = some final) :
    ∃ audited, Machine.run AuditState.step (.init db) schedule = some audited ∧ final.AuditedBy audited := by
  refine Machine.run_induction (motive := fun schedule final => ∃ audited,
    Machine.run AuditState.step (.init db) schedule = some audited ∧ final.AuditedBy audited) _
    ⟨_, rfl, rfl, fun _ _ => rfl⟩ ?_ reached
  rintro schedule current action final - ⟨audited, before, same⟩ steps
  obtain ⟨next, last, kept⟩ := same.step steps
  exact ⟨next, Machine.run_snoc before last, kept⟩

/-- In every run each call that has come to a status or an error is an execution of the code of its service on what
the database has replied to it, with the lines it has logged. -/
theorem call_executes_service {db : Database} (reached : Machine.run Transcript.step (.init db) schedule = some final)
    (ended : (final.system.calls txn).verdict = some verdict) (rateLimitPerSec : ℤ) (scope : Scope) :
    ∃ route, final.routes txn = some route ∧ (final.system.calls txn).request = some route.request ∧
      route.served (txn.principal rateLimitPerSec scope) = Serving.ends (ofCall txn final.lines) verdict := by
  have start : (Transcript.init db).Faithful rateLimitPerSec scope := fun _ => .idle
  have faithful := Machine.run_invariant start (fun _ _ _ faithful steps => faithful.step steps) reached
  exact (faithful txn).served ended

/-- With a quota of one unit, an event of 0.6 is recorded and a second one is told why it is not. -/
theorem call_executes_service_rejected_event :
    let request (name : String) : Request := .createEvent ⟨"c", "m", ⟨600000, by decide, by decide⟩, name⟩ 0
    let schedule : List AuditAction :=
      ((Request.upsertQuota ⟨"c", "m", ⟨1, by decide, by decide⟩⟩).steps ⟨7, 0⟩ 3 ++ (request "a").steps ⟨7, 1⟩ 8 ++
        (request "b").steps ⟨7, 2⟩ 7).map .act
    ∃ final route verdict, Machine.run Transcript.step (.init (.atRest .codePoint 0 1 (.afterMigration ∅ ∅))) schedule =
        some final ∧
      final.routes ⟨7, 2⟩ = some route ∧ verdict = .error (quotaExceededError 3600) ∧
      route.served (CallId.principal ⟨7, 2⟩ 1 .ingest) = Serving.ends [.quotaRejected 7 "c" "m"] verdict := by
  intro request schedule
  obtain ⟨final, reached, seen⟩ := Option.map_eq_some_iff.mp (show
    (Machine.run Transcript.step (.init (.atRest .codePoint 0 1 (.afterMigration ∅ ∅))) schedule).map
      (fun final => ((final.system.calls ⟨7, 2⟩).verdict, ofCall ⟨7, 2⟩ final.lines)) =
        some (some (.error (quotaExceededError 3600)), [.quotaRejected 7 "c" "m"]) by decide +kernel)
  obtain ⟨ended, lines⟩ := Prod.mk.inj seen
  obtain ⟨route, told, -, runs⟩ := call_executes_service reached ended 1 .ingest
  exact ⟨final, route, _, reached, told, rfl, lines ▸ runs⟩

end Transcript

end Meterly
