import Meterly.Machine.Run
import Meterly.Model.Services.Events
import Meterly.Model.Services.Quotas
import Meterly.Model.Services.Usage
import Meterly.Model.Services.UsageExport

/-! # Concurrent service calls

Any number of calls by any principals share one database. An action starts a call, lets it take
its next step, breaks it off, or lets time pass; any order of actions is a schedule. A call that
waits for a row held by another has no step. Breaking off stands for a failing statement, a failing
commit and a cancellation alike: the open transaction is rolled back. A commit and the answer that it
is for are one step; a commit that takes effect while its caller sees it fail is not among these runs.
-/

namespace Meterly

/-- What a caller asks for, with the clock reading of the services that take one. -/
inductive Request where
  | createEvent (payload : EventCreateRequest) (receivedAt : Instant)
  | upsertQuota (payload : QuotaPutRequest)
  | deleteQuota (params : QuotaDeleteParams)
  | listQuotas
  | getUsage (query : UsageQueryParams)
  | getDailyUsage (date : Option String) (receivedAt : Instant)
  | exportUsage (params : UsageExportQueryParams)

/-- A call: not started yet, or where its service stands. -/
inductive Call where
  | idle
  | createEvent (payload : EventCreateRequest) (receivedAt : Instant) (phase : CreateEvent.Phase)
  | upsertQuota (payload : QuotaPutRequest) (phase : UpsertQuota.Phase)
  | deleteQuota (params : QuotaDeleteParams) (phase : DeleteQuota.Phase)
  | listQuotas (phase : ListQuotas.Phase)
  | getUsage (query : UsageQueryParams) (phase : GetUsage.Phase)
  | getDailyUsage (date : Option String) (receivedAt : Instant) (phase : GetDailyUsage.Phase)
  | exportUsage (params : UsageExportQueryParams) (phase : ExportUsage.Phase)

/-- The call a request opens. -/
def Request.call : Request → Call
  | createEvent payload receivedAt => .createEvent payload receivedAt .received
  | upsertQuota payload => .upsertQuota payload .received
  | deleteQuota params => .deleteQuota params .received
  | listQuotas => .listQuotas .received
  | getUsage query => .getUsage query .received
  | getDailyUsage date receivedAt => .getDailyUsage date receivedAt .received
  | exportUsage params => .exportUsage params .received

namespace Call

/-- The next step of a call. -/
def advance (txn : CallId) (db : Database) : Call → Option (Call × Database)
  | idle => none
  | createEvent payload receivedAt phase =>
    (CreateEvent.advance txn payload receivedAt phase db).map (Prod.map (createEvent payload receivedAt) id)
  | upsertQuota payload phase => (UpsertQuota.advance txn payload phase db).map (Prod.map (upsertQuota payload) id)
  | deleteQuota params phase => (DeleteQuota.advance txn params phase db).map (Prod.map (deleteQuota params) id)
  | listQuotas phase => (ListQuotas.advance txn phase db).map (Prod.map listQuotas id)
  | getUsage query phase => (GetUsage.advance txn query phase db).map (Prod.map (getUsage query) id)
  | getDailyUsage date receivedAt phase =>
    (GetDailyUsage.advance txn date receivedAt phase db).map (Prod.map (getDailyUsage date receivedAt) id)
  | exportUsage params phase => (ExportUsage.advance txn params phase db).map (Prod.map (exportUsage params) id)

/-- The call has ended, with a response or an error. -/
def isAnswered : Call → Bool
  | createEvent _ _ (.answered _) | upsertQuota _ (.answered _) | deleteQuota _ (.answered _)
  | listQuotas (.answered _) | getUsage _ (.answered _) | getDailyUsage _ _ (.answered _)
  | exportUsage _ (.answered _) => true
  | _ => false

/-- The call has been started and has not ended. -/
def isRunning (call : Call) : Bool :=
  match call with
  | idle => false
  | call => !call.isAnswered

/-- A call that is broken off ends in an error. -/
def interrupt : Call → Call
  | idle => idle
  | createEvent payload receivedAt _ => createEvent payload receivedAt (.answered (.error .interrupted))
  | upsertQuota payload _ => upsertQuota payload (.answered (.error .interrupted))
  | deleteQuota params _ => deleteQuota params (.answered (.error .interrupted))
  | listQuotas _ => listQuotas (.answered (.error .interrupted))
  | getUsage query _ => getUsage query (.answered (.error .interrupted))
  | getDailyUsage date receivedAt _ => getDailyUsage date receivedAt (.answered (.error .interrupted))
  | exportUsage params _ => exportUsage params (.answered (.error .interrupted))

/-- Everything that one step of a call can do: a step of its service. -/
inductive Advanced (txn : CallId) (db : Database) : Call → Call → Database → Prop
  | createEvent {payload : EventCreateRequest} {receivedAt : Instant} {phase after : CreateEvent.Phase}
      {next : Database} (moves : CreateEvent.Advanced txn payload receivedAt db phase after next) :
      Advanced txn db (.createEvent payload receivedAt phase) (.createEvent payload receivedAt after) next
  | upsertQuota {payload : QuotaPutRequest} {phase after : UpsertQuota.Phase} {next : Database}
      (moves : UpsertQuota.Advanced txn payload db phase after next) :
      Advanced txn db (.upsertQuota payload phase) (.upsertQuota payload after) next
  | deleteQuota {params : QuotaDeleteParams} {phase after : DeleteQuota.Phase} {next : Database}
      (moves : DeleteQuota.Advanced txn params db phase after next) :
      Advanced txn db (.deleteQuota params phase) (.deleteQuota params after) next
  | listQuotas {phase after : ListQuotas.Phase} {next : Database}
      (moves : Reading.Advanced txn (.ok ()) (ListQuotas.statement txn.apiKeyId) ListQuotas.respond
        db phase after next) :
      Advanced txn db (.listQuotas phase) (.listQuotas after) next
  | getUsage {query : UsageQueryParams} {phase after : GetUsage.Phase} {next : Database}
      (moves : Reading.Advanced txn (.ok ()) (GetUsage.statement txn.apiKeyId query) (GetUsage.respond query)
        db phase after next) :
      Advanced txn db (.getUsage query phase) (.getUsage query after) next
  | getDailyUsage {date : Option String} {receivedAt : Instant} {phase after : GetDailyUsage.Phase}
      {next : Database}
      (moves : Reading.Advanced txn (parseDailyDate date receivedAt) (GetDailyUsage.statement txn.apiKeyId)
        GetDailyUsage.respond db phase after next) :
      Advanced txn db (.getDailyUsage date receivedAt phase) (.getDailyUsage date receivedAt after) next
  | exportUsage {params : UsageExportQueryParams} {phase after : ExportUsage.Phase} {next : Database}
      (moves : ExportUsage.Advanced txn params db phase after next) :
      Advanced txn db (.exportUsage params phase) (.exportUsage params after) next

theorem advanced_of_advance {txn : CallId} {before after : Call} {db next : Database}
    (moves : before.advance txn db = some (after, next)) : Advanced txn db before after next := by
  cases before with
  | idle => contradiction
  | createEvent payload receivedAt phase =>
    obtain ⟨⟨_, _⟩, service, ⟨rfl, rfl⟩⟩ := Option.map_eq_some_iff.mp moves
    exact .createEvent (CreateEvent.advanced_of_advance service)
  | upsertQuota payload phase =>
    obtain ⟨⟨_, _⟩, service, ⟨rfl, rfl⟩⟩ := Option.map_eq_some_iff.mp moves
    exact .upsertQuota (UpsertQuota.advanced_of_advance service)
  | deleteQuota params phase =>
    obtain ⟨⟨_, _⟩, service, ⟨rfl, rfl⟩⟩ := Option.map_eq_some_iff.mp moves
    exact .deleteQuota (DeleteQuota.advanced_of_advance service)
  | listQuotas phase =>
    obtain ⟨⟨_, _⟩, service, ⟨rfl, rfl⟩⟩ := Option.map_eq_some_iff.mp moves
    exact .listQuotas (Reading.advanced_of_advance service)
  | getUsage query phase =>
    obtain ⟨⟨_, _⟩, service, ⟨rfl, rfl⟩⟩ := Option.map_eq_some_iff.mp moves
    exact .getUsage (Reading.advanced_of_advance service)
  | getDailyUsage date receivedAt phase =>
    obtain ⟨⟨_, _⟩, service, ⟨rfl, rfl⟩⟩ := Option.map_eq_some_iff.mp moves
    exact .getDailyUsage (Reading.advanced_of_advance service)
  | exportUsage params phase =>
    obtain ⟨⟨_, _⟩, service, ⟨rfl, rfl⟩⟩ := Option.map_eq_some_iff.mp moves
    exact .exportUsage (ExportUsage.advanced_of_advance service)

end Call

/-- The database, every call, and the calls that have ended, in that order. -/
structure State where
  db : Database
  calls : CallId → Call
  answers : List (CallId × Call)

/-- One scheduling decision. -/
inductive Action where
  | start (txn : CallId) (request : Request)
  | advance (txn : CallId)
  | interrupt (txn : CallId)
  | tick (elapsed : ℕ)

namespace State

/-- Nothing has been asked yet. -/
def init (db : Database) : State := ⟨db, fun _ => .idle, []⟩

/-- Put a call in its new place; one that has ended joins the answers. -/
def record (s : State) (txn : CallId) (call : Call) (db : Database) : State where
  db := db
  calls := Function.update s.calls txn call
  answers := if call.isAnswered then s.answers ++ [(txn, call)] else s.answers

end State

/-- Execute one action, if it is enabled. -/
def step (s : State) : Action → Option State
  | .start txn request =>
    match s.calls txn with
    | .idle => some (s.record txn request.call s.db)
    | _ => none
  | .advance txn => ((s.calls txn).advance txn s.db).map fun next => s.record txn next.1 next.2
  | .interrupt txn =>
    if (s.calls txn).isRunning then some (s.record txn (s.calls txn).interrupt (s.db.rollback txn)) else none
  | .tick elapsed => some { s with db := { s.db with now := s.db.now + elapsed } }

/-- The call an action belongs to. -/
def Action.caller : Action → Option CallId
  | start txn _ | advance txn | interrupt txn => some txn
  | tick _ => none

/-- What one action does to the state. -/
inductive Stepped (s : State) : Action → State → Prop
  | start {txn : CallId} {request : Request} (idle : s.calls txn = .idle) :
      Stepped s (.start txn request) (s.record txn request.call s.db)
  | advance {txn : CallId} {call : Call} {db : Database}
      (moves : Call.Advanced txn s.db (s.calls txn) call db) :
      Stepped s (.advance txn) (s.record txn call db)
  | interrupt {txn : CallId} (running : (s.calls txn).isRunning) :
      Stepped s (.interrupt txn) (s.record txn (s.calls txn).interrupt (s.db.rollback txn))
  | tick {elapsed : ℕ} :
      Stepped s (.tick elapsed) { s with db := { s.db with now := s.db.now + elapsed } }

theorem stepped_of_step {s next : State} {a : Action} (steps : step s a = some next) : Stepped s a next := by
  cases a with
  | start txn request =>
    simp only [step] at steps
    split at steps
    · next idle =>
      obtain rfl := Option.some.inj steps
      exact .start idle
    · contradiction
  | advance txn =>
    obtain ⟨⟨call, db⟩, moves, rfl⟩ := Option.map_eq_some_iff.mp steps
    exact .advance (Call.advanced_of_advance moves)
  | interrupt txn =>
    simp only [step] at steps
    split_ifs at steps with running
    obtain rfl := Option.some.inj steps
    exact .interrupt running
  | tick elapsed =>
    obtain rfl := Option.some.inj steps
    exact .tick

/-- A call that is started and takes its first steps without a pause. -/
def Request.steps (request : Request) (txn : CallId) (count : ℕ) : List Action :=
  .start txn request :: List.replicate count (.advance txn)

end Meterly
