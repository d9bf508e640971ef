import Mathlib.Data.List.Basic
import Meterly.Soundness.CustomerRenaming
import Meterly.Soundness.EscapedCells

/-! # When the log of a request does not depend on its customer

Redaction removes a customer id that is logged under its own name. An id that is bound to a parameter of a
failing statement comes back in the text of the error and in its traceback, which `handle_unexpected_error`
logs under names that redaction does not know. So the lines of a request are independent of a customer id
unless a statement fails that binds it.
-/

namespace Meterly

/-- One customer in the place of another. -/
def replaceCustomer (old new customerId : String) : String := if customerId = old then new else customerId

/-- The request comes to a statement that fails, and the failure is not caught. -/
def Exchange.FailsIn (exchange : Exchange) (context : LogContext) (statement : Statement) : Prop :=
  ∃ apiKeyId error, (exchange.requestContext context hideParameters).result =
    .error (.failedStatement apiKeyId statement error)

/-! ## Lines that redaction makes equal -/

section Redacted

variable {f : String → String}

/-- A customer id under its own name is gone after redaction. -/
theorem redactEntry_mapCustomerField (entry : String × LogValue) :
    redactEntry (mapCustomerField f entry) = redactEntry entry := by
  unfold mapCustomerField
  split
  · have sensitive : lower "customer_id" ∈ sensitiveKeys := by decide +kernel
    simp only [redactEntry, if_pos sensitive]
  · rfl

theorem redact_mapCustomer (call : LogCall) : (call.mapCustomer f).redact = call.redact := by
  simp only [LogCall.redact, LogCall.mapCustomer, List.map_map, Function.comp_def, redactEntry_mapCustomerField]

/-- A call and the call with its customer renamed have the same line. -/
theorem rendered_mapCustomer (bound : EventDict) (timestamp : String) (call : LogCall) :
    rendered bound timestamp (call.mapCustomer f) = rendered bound timestamp call := by
  rw [rendered, rendered, ← processed_redact, redact_mapCustomer, processed_redact]

end Redacted

/-! ## The lines of a request and the line of its error -/

section Lines

variable (context : LogContext) (hide : Bool) (exchange : Exchange)

/-- The ids that every line of a request carries. -/
def LogContext.bound : EventDict := [("requestId", .text context.requestId), ("traceId", .text context.traceId)]

/-- The call by which an error is reported, if it is. -/
def Exchange.reported (result : Except Raised Unit) : List LogCall :=
  match result with
  | .ok () => []
  | .error raised =>
    ((raised.report context hide).map fun report =>
      .requestUnhandledError context.requestId exchange.path report.1 report.2.1 report.2.2).toList

theorem lines_application : (exchange.application context hide).lines =
    (exchange.requestContext context hide).lines ++
      exchange.reported context hide (exchange.requestContext context hide).result := by
  rw [Exchange.application]
  generalize exchange.requestContext context hide = inner
  obtain ⟨lines, result⟩ := inner
  cases result with
  | ok value => exact (List.append_nil lines).symm
  | error raised =>
    apply congrArg (lines ++ ·)
    rw [Exchange.handleUnexpectedError, Exchange.reported]
    cases raised.report context hide <;> rfl

/-- The lines of the calls of a request, from one of them on. -/
def LogContext.render (start : ℕ) (calls : List LogCall) : List (List Char) :=
  (calls.zipIdx start).map fun entry => rendered context.bound (context.timestamp entry.2) entry.1

variable {context} in
theorem LogContext.render_append (start : ℕ) (first second : List LogCall) :
    context.render start (first ++ second) = context.render start first ++ context.render (start + first.length) second := by
  simp only [LogContext.render, List.zipIdx_append, List.map_append]

variable {f : String → String}

variable {context} in
theorem LogContext.render_mapCustomer (start : ℕ) (calls : List LogCall) :
    context.render start (calls.map (LogCall.mapCustomer f)) = context.render start calls := by
  induction calls generalizing start with
  | nil => rfl
  | cons call rest ih =>
    simp only [LogContext.render, List.map_cons, List.zipIdx_cons, rendered_mapCustomer] at ih ⊢
    rw [ih]

/-- With a customer renamed only the report of an error can change. -/
theorem logLines_mapCustomer_iff :
    (exchange.mapCustomer f).logLines context hide = exchange.logLines context hide ↔
      context.render (exchange.requestContext context hide).lines.length (exchange.reported context hide
        (Logged.renameResult (Raised.mapCustomer f) id (exchange.requestContext context hide).result)) =
      context.render (exchange.requestContext context hide).lines.length (exchange.reported context hide
        (exchange.requestContext context hide).result) := by
  have lines (exchange : Exchange) : exchange.logLines context hide =
      context.render 0 ((exchange.application context hide).lines) := rfl
  have path : (exchange.mapCustomer f).reported context hide = exchange.reported context hide := rfl
  rw [lines, lines, lines_application, lines_application, ← mapCustomer_requestContext, path]
  simp only [Serving.mapCustomer, Logged.rename, LogContext.render_append, LogContext.render_mapCustomer, List.length_map,
    Nat.zero_add, List.append_cancel_left_eq]

end Lines

/-! ## The bound customer id in the text of an error -/

section Text

variable {f : String → String} {context : LogContext} {apiKeyId : ℕ} {statement : Statement} {error : StatementError}

/-- A statement that names no renamed customer stays as it is. -/
theorem Statement.mapCustomer_eq_self (kept : ∀ customerId ∈ statement.customerId, f customerId = customerId) :
    statement.mapCustomer f = statement := by
  cases statement with
  | insertEventIfNew payload windowStart =>
    simp only [Statement.mapCustomer, EventCreateRequest.mapCustomer, kept _ rfl]
  | countUsageRollups params | streamUsageRollups params limit =>
    have same : params.customerId.map f = params.customerId := by
      obtain ⟨customerId, _, _, _⟩ := params
      cases customerId with
      | none => rfl
      | some customerId => exact congrArg some (kept _ rfl)
    simp only [Statement.mapCustomer, UsageExportQueryParams.mapCustomer, same]
  | findEventByIdempotencyKey | listQuotas | aggregateDailyEventCounts => rfl
  | _ => simp only [Statement.mapCustomer, kept _ rfl]

/-- The customer id is bound behind the tenant's. -/
theorem bound_mapCustomer (apiKeyId : ℕ) (statement : Statement) : ∃ rest, ∀ f : String → String,
    (statement.mapCustomer f).bound apiKeyId =
      .integer apiKeyId :: ((statement.customerId.map f).toList.map .text ++ rest) := by
  refine ⟨(statement.bound apiKeyId).drop (1 + statement.customerId.toList.length), fun f => ?_⟩
  cases statement with
  | countUsageRollups params | streamUsageRollups params limit =>
    obtain ⟨customerId, _, _, _⟩ := params
    cases customerId <;> rfl
  | _ => rfl

variable (context apiKeyId error) in
/-- The text of a failed statement around the customer id. -/
theorem message_mapCustomer {customerId : String} (bound : statement.customerId = some customerId) :
    ∃ head tail, ∀ f : String → String,
      error.message context.reprOther false ((statement.mapCustomer f).bound apiKeyId) =
        head ++ (f customerId).toList ++ tail := by
  obtain ⟨rest, behind⟩ := bound_mapCustomer apiKeyId statement
  refine ⟨error.head ++ "[parameters: ".toList ++ ('(' :: (toString apiKeyId).toList ++ ", '".toList),
    '\'' :: (rest.flatMap fun value => ", ".toList ++ reprValue context.reprOther value) ++ ")]".toList ++ error.tail,
    fun f => ?_⟩
  rw [behind, bound]
  simp [StatementError.message, reprParameters, reprValue]

variable (context apiKeyId error) in
/-- The traceback of a failed statement around the customer id. -/
theorem traceback_mapCustomer {customerId : String} (bound : statement.customerId = some customerId) :
    ∃ head tail, ∀ f : String → String,
      error.traceback context.reprOther false ((statement.mapCustomer f).bound apiKeyId) =
        head ++ (f customerId).toList ++ tail := by
  obtain ⟨head, tail, text⟩ := message_mapCustomer context apiKeyId error bound
  refine ⟨error.tracebackHead ++ head, tail ++ error.tracebackTail, fun f => ?_⟩
  rw [StatementError.traceback, text]
  simp only [List.append_assoc]

end Text

/-! ## The line of an error -/

section ErrorLine

variable {context : LogContext}

theorem redactSensitiveFields_of_plain {dict : EventDict}
    (plain : ∀ key ∈ dict.map Prod.fst, lower key ∉ sensitiveKeys) : redactSensitiveFields dict = dict :=
  (List.map_congr_left fun _ member => if_neg (plain _ (List.mem_map_of_mem member))).trans (List.map_id dict)

variable (context) in
/-- The entries of the report of an error, before redaction. -/
theorem gathered_requestUnhandledError (timestamp path errorType message traceback : String) :
    gathered context.bound timestamp (.requestUnhandledError context.requestId path errorType message traceback) =
      [("service", .text "meterly"), ("requestId", .text context.requestId), ("endpoint", .text path),
        ("error.type", .text errorType), ("error.message", .text message), ("event", .text "request.unhandled_error"),
        ("traceId", .text context.traceId), ("level", .text "error"), ("timestamp", .text timestamp)] := by
  simp [gathered, mergeContextvars, LogContext.bound, LogCall.eventDict, LogCall.requestUnhandledError, assign, setDefault,
    LogMethod.name]

variable (context) in
/-- Redaction leaves the report of an error as it is. -/
theorem processed_requestUnhandledError (timestamp path errorType message traceback : String) :
    processed context.bound timestamp (.requestUnhandledError context.requestId path errorType message traceback) =
      [("service", stripValue (.text "meterly")), ("requestId", stripValue (.text context.requestId)),
        ("endpoint", stripValue (.text path)), ("error.type", stripValue (.text errorType))] ++
      ("error.message", stripValue (.text message)) ::
        ([("event", stripValue (.text "request.unhandled_error")), ("traceId", stripValue (.text context.traceId)),
          ("level", stripValue (.text "error")), ("timestamp", stripValue (.text timestamp))] ++
        [("exception", .text traceback)]) := by
  have plain : ∀ key ∈ ["service", "requestId", "endpoint", "error.type", "error.message", "event", "traceId", "level",
      "timestamp"], lower key ∉ sensitiveKeys := by decide +kernel
  rw [processed, gathered_requestUnhandledError, redactSensitiveFields_of_plain]
  · simp [formatExcInfo, LogCall.requestUnhandledError, stripControlCharacters, assign]
  · exact plain

variable (context) in
/-- The line of an error around its message and its traceback. -/
theorem rendered_requestUnhandledError (timestamp path errorType : String) : ∃ head middle tail : List Char,
    ∀ message traceback : List Char, rendered context.bound timestamp (.requestUnhandledError context.requestId path
      errorType (String.ofList message) (String.ofList traceback)) =
        head ++ (message.flatMap neutralise).flatMap Json.escapeChar ++ middle ++ traceback.flatMap Json.escapeChar ++
          tail := by
  obtain ⟨head, middle, tail, dumped⟩ := Json.exists_dumps_texts
    [("service", stripValue (.text "meterly")), ("requestId", stripValue (.text context.requestId)),
      ("endpoint", stripValue (.text path)), ("error.type", stripValue (.text errorType))]
    [("event", stripValue (.text "request.unhandled_error")), ("traceId", stripValue (.text context.traceId)),
      ("level", stripValue (.text "error")), ("timestamp", stripValue (.text timestamp))] "error.message" "exception"
  refine ⟨head, middle, tail, fun message traceback => ?_⟩
  rw [rendered, processed_requestUnhandledError, ← dumped]
  simp only [stripValue, String.toList_ofList]

theorem isPlain_of_isAlphanum {c : Char} (alphanumeric : c.isAlphanum) : Json.IsPlain c := by
  have range : 48 ≤ c.toNat ∧ c.toNat ≤ 122 := by
    rcases Bool.or_eq_true_iff.mp alphanumeric with letter | digit
    · rcases Bool.or_eq_true_iff.mp letter with upper | lower
      · obtain ⟨first, last⟩ : 'A'.val ≤ c.val ∧ c.val ≤ 'Z'.val := of_decide_eq_true upper
        have lower : 65 ≤ c.toNat := UInt32.le_iff_toNat_le.mp first
        have upper : c.toNat ≤ 90 := UInt32.le_iff_toNat_le.mp last
        omega
      · obtain ⟨first, last⟩ := Bool.and_eq_true_iff.mp lower
        have lower : 97 ≤ c.toNat := UInt32.le_iff_toNat_le.mp (of_decide_eq_true first)
        have upper : c.toNat ≤ 122 := UInt32.le_iff_toNat_le.mp (of_decide_eq_true last)
        omega
    · obtain ⟨first, last⟩ := Char.isDigit_iff_toNat.mp digit
      exact ⟨first, le_trans last (by decide)⟩
  refine ⟨by omega, by omega, ?_, ?_⟩
  · rintro rfl
    contradiction
  · rintro rfl
    contradiction

/-- The characters of a valid customer id are plain. -/
theorem isPlain_of_isCustomerId {customerId : String} (valid : IsCustomerId customerId) :
    ∀ c ∈ customerId.toList, Json.IsPlain c := by
  intro c member
  have allowed := List.all_eq_true.mp valid.2.2 c member
  simp only [allowedInIdentifier, Bool.or_eq_true, decide_eq_true_eq] at allowed
  rcases allowed with (((alphanumeric | rfl) | rfl) | rfl) | rfl
  · exact isPlain_of_isAlphanum alphanumeric
  all_goals decide

theorem neutralise_of_isPlain {c : Char} (plain : Json.IsPlain c) : neutralise c = [c] := by
  have control : c ≠ '\r' ∧ c ≠ '\n' := by
    constructor <;> rintro rfl <;> exact absurd plain.1 (by decide)
  rw [neutralise, if_neg control.1, if_neg control.2]

/-- A valid customer id stands in a line as it is. -/
theorem escape_customerId {customerId : String} (valid : IsCustomerId customerId) :
    customerId.toList.flatMap neutralise = customerId.toList ∧
      customerId.toList.flatMap Json.escapeChar = customerId.toList := by
  refine ⟨?_, Json.flatMap_escapeChar_of_isPlain (isPlain_of_isCustomerId valid)⟩
  have each : ∀ c ∈ customerId.toList, neutralise c = [c] :=
    fun c member => neutralise_of_isPlain (isPlain_of_isCustomerId valid c member)
  rw [List.flatMap_congr each, List.flatMap_singleton']

/-- A text that stands twice in a line is determined by the line. -/
theorem eq_of_twice_within {α : Type} {head middle tail text other : List α}
    (same : head ++ text ++ middle ++ text ++ tail = head ++ other ++ middle ++ other ++ tail) : text = other := by
  have lengths := congrArg List.length same
  simp only [List.length_append] at lengths
  simp only [List.append_assoc, List.append_cancel_left_eq] at same
  exact (List.append_inj same (by omega)).1

end ErrorLine

/-! ## When the log is independent -/

section Independence

variable {f : String → String} {context : LogContext} {exchange : Exchange}

variable (context exchange) in
/-- The line of a failed statement around the customer id that the statement binds. -/
theorem render_failedStatement (start apiKeyId : ℕ) {statement : Statement} (error : StatementError) {customerId : String}
    (bound : statement.customerId = some customerId) : ∃ head middle tail : List Char, ∀ f : String → String,
      IsCustomerId (f customerId) → context.render start (exchange.reported context hideParameters
        (.error (.failedStatement apiKeyId (statement.mapCustomer f) error))) =
          [head ++ (f customerId).toList ++ middle ++ (f customerId).toList ++ tail] := by
  obtain ⟨before, after, message⟩ := message_mapCustomer context apiKeyId error bound
  obtain ⟨above, below, traceback⟩ := traceback_mapCustomer context apiKeyId error bound
  obtain ⟨head, middle, tail, line⟩ := rendered_requestUnhandledError context (context.timestamp start) exchange.path
    error.errorType
  refine ⟨head ++ (before.flatMap neutralise).flatMap Json.escapeChar,
    (after.flatMap neutralise).flatMap Json.escapeChar ++ middle ++ above.flatMap Json.escapeChar,
    below.flatMap Json.escapeChar ++ tail, fun f valid => ?_⟩
  refine congrArg (fun line => [line]) ((line _ _).trans ?_)
  rw [hideParameters, message, traceback]
  simp only [List.flatMap_append, escape_customerId valid, List.append_assoc]

/-- The line of a failed statement tells the customer id that the statement binds. -/
theorem eq_of_render_failedStatement {start apiKeyId : ℕ} {statement : Statement} {error : StatementError}
    {customerId : String} (bound : statement.customerId = some customerId) (valid : IsCustomerId customerId)
    (renamed : IsCustomerId (f customerId))
    (same : context.render start (exchange.reported context hideParameters
        (.error (.failedStatement apiKeyId (statement.mapCustomer f) error))) =
      context.render start (exchange.reported context hideParameters
        (.error (.failedStatement apiKeyId statement error)))) : f customerId = customerId := by
  obtain ⟨head, middle, tail, line⟩ := render_failedStatement context exchange start apiKeyId error bound
  have kept : statement.mapCustomer id = statement := Statement.mapCustomer_eq_self fun _ _ => rfl
  have own := line id valid
  rw [kept] at own
  rw [line f renamed, own] at same
  exact String.toList_inj.mp (eq_of_twice_within (List.singleton_inj.mp same))

/-- Where no statement fails that binds the customer id, its report does not change. -/
theorem mapCustomer_eq_self_of_not_failsIn {old new : String}
    (spared : ¬ ∃ statement, exchange.FailsIn context statement ∧ statement.customerId = some old) :
    Logged.renameResult (Raised.mapCustomer (replaceCustomer old new)) id
      (exchange.requestContext context hideParameters).result =
        (exchange.requestContext context hideParameters).result := by
  cases ended : (exchange.requestContext context hideParameters).result with
  | ok value => rfl
  | error raised =>
    apply congrArg Except.error
    cases raised with
    | failedStatement apiKeyId statement error =>
      refine congrArg (Raised.failedStatement apiKeyId · error) (Statement.mapCustomer_eq_self fun customerId bound => ?_)
      exact if_neg fun same : customerId = old => spared ⟨statement, ⟨apiKeyId, error, ended⟩, same ▸ bound⟩
    | _ => rfl

/-- The lines of two requests that differ in a customer id are the same unless a statement fails that binds it. -/
theorem log_lines_independent_of_customer (context : LogContext) (exchange : Exchange) {old new : String}
    (valid : IsCustomerId old) (replaced : IsCustomerId new) (different : old ≠ new) :
    (exchange.mapCustomer (replaceCustomer old new)).logLines context hideParameters =
        exchange.logLines context hideParameters ↔
      ¬ ∃ statement, exchange.FailsIn context statement ∧ statement.customerId = some old := by
  rw [logLines_mapCustomer_iff]
  constructor
  · rintro same ⟨statement, ⟨apiKeyId, error, ended⟩, bound⟩
    have renamed : replaceCustomer old new old = new := if_pos rfl
    rw [ended] at same
    exact different ((eq_of_render_failedStatement bound valid (by rwa [renamed]) same).symm.trans renamed)
  · intro spared
    rw [mapCustomer_eq_self_of_not_failsIn spared]

/-- An event whose insertion meets a connection that the server has closed. -/
def failedInsertion (customerId : String) : Exchange where
  method := "POST"
  path := "/v1/events"
  tooLarge := false
  tier1 := .decided ⟨true, 0⟩
  invalidJson := false
  guard := .cacheHit ⟨7, 50, .ingest⟩
  tier2 := .decided ⟨true, 0⟩
  validationErrors := 0
  route := .postEvent ⟨customerId, "api_calls", ⟨1500000, by decide, by decide⟩, "k1"⟩ 0
    { session := ⟨.ok (), .ok ()⟩
      insertEventIfNew := .error (.failed ⟨"InterfaceError", "connection is closed\n".toList, "\n".toList, [], []⟩)
      lockQuota := .ok none
      readCurrentTotal := .ok ⟨0, 0⟩
      incrementUsageRollup := .ok ()
      findEventByIdempotencyKey := .ok none }

/-- A context in which the clock stands still. -/
def fixedContext : LogContext where
  requestId := "r1"
  traceId := "t1"
  timestamp := fun _ => "2026-01-01T00:00:00Z"
  duration := "1.5"
  reprOther := fun _ => []
  traceback := fun _ => ""

theorem log_lines_independent_of_customer_failed_insertion :
    ((failedInsertion "cust_1").mapCustomer (replaceCustomer "cust_1" "cust_2")).logLines fixedContext hideParameters =
        (failedInsertion "cust_1").logLines fixedContext hideParameters ↔
      ¬ ∃ statement, (failedInsertion "cust_1").FailsIn fixedContext statement ∧
        statement.customerId = some "cust_1" :=
  log_lines_independent_of_customer fixedContext (failedInsertion "cust_1") (by decide +kernel) (by decide +kernel)
    (by decide)

/-- Two requests that differ in their customer id log different lines when the insertion fails. -/
theorem log_lines_tell_customer :
    IsCustomerId "cust_1" ∧ IsCustomerId "cust_2" ∧
      (failedInsertion "cust_1").mapCustomer (replaceCustomer "cust_1" "cust_2") = failedInsertion "cust_2" ∧
      (failedInsertion "cust_2").logLines fixedContext hideParameters ≠
        (failedInsertion "cust_1").logLines fixedContext hideParameters := by
  have valid : IsCustomerId "cust_1" ∧ IsCustomerId "cust_2" := by decide +kernel
  refine ⟨valid.1, valid.2, rfl, fun same => ?_⟩
  have told : replaceCustomer "cust_1" "cust_2" "cust_1" = "cust_1" :=
    eq_of_render_failedStatement rfl valid.1 valid.2
      ((logLines_mapCustomer_iff fixedContext hideParameters (failedInsertion "cust_1")).mp same)
  exact absurd told (by decide)

end Independence

end Meterly
