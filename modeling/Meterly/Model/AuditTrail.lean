import Meterly.Model.Logging

/-! # The audit trail of one request

What an auditor expects of the lines of a request, read off their events and a few of their values alone. Who
calls is told before anything is done for the caller, and what is done is told under the same id. A line that
refuses or acts tells the status that the completion then has; a completion without such a line has one of the
statuses that no line stands for. An event is told ahead of its commit, so its line may still be followed by a
failure.
-/

namespace Meterly

/-- Where the trail of a request stands. -/
inductive TrailStage where
  | arrived
  /-- Tier 1 could not be asked. -/
  | unthrottled
  | authenticated (userId : ℤ)
  /-- Tier 2 could not be asked. -/
  | unmetered (userId : ℤ)
  /-- A line has told the status. -/
  | decided (userId : Option ℤ) (status : ℤ)
  /-- The line of an event has told the status, ahead of the commit. -/
  | recorded (userId : ℤ) (status : ℤ)
  | completed (userId : Option ℤ) (status : ℤ)
  /-- The body of an export has ended. -/
  | exported (userId : ℤ)
  | failed
  | reported
deriving DecidableEq, Repr

namespace TrailStage

/-- Who calls, as long as nothing has been decided. -/
def caller : TrailStage → Option ℤ
  | authenticated userId | unmetered userId => some userId
  | _ => none

/-- Nothing has been decided. -/
def isUndecided : TrailStage → Bool
  | arrived | unthrottled | authenticated _ | unmetered _ => true
  | _ => false

/-- A failure may follow: nothing has been decided, or an event is not yet committed. -/
def mayFail : TrailStage → Bool
  | arrived | unthrottled | authenticated _ | unmetered _ | recorded .. => true
  | _ => false

/-- The response has begun. -/
def isAnswered : TrailStage → Bool
  | completed .. | exported _ => true
  | _ => false

/-- The statuses that no line of a service stands for: a listing or an export, a date that is none, no quota. -/
def silentStatuses : List ℤ := [200, 400, 404]

/-- The status of the refusals and the actions, by their event and action. -/
def decisions : List ((String × String) × ℤ) :=
  [(("quota.forbidden", "deny"), 403), (("quota.rejected", "deny"), 429), (("usage.export.rejected", "deny"), 422),
    (("usage.read", "read"), 200), (("usage.daily.read", "read"), 200), (("quota.upsert", "create"), 201),
    (("quota.upsert", "replace"), 200), (("quota.delete", "delete"), 204)]

/-- The status of an event, by its event and action. -/
def recordings : List ((String × String) × ℤ) := [(("event.create", "create"), 201), (("event.create", "read"), 200)]

/-- `ratelimit.backend_unavailable` -/
def openTier : TrailStage → Option LogValue → Option TrailStage
  | arrived, some (.text "tier1") => some unthrottled
  | authenticated userId, some (.text "tier2") => some (unmetered userId)
  | _, _ => none

/-- `ratelimit.exceeded` -/
def exceed : TrailStage → Option LogValue → Option TrailStage
  | arrived, some .null => some (decided none 429)
  | authenticated userId, some (.int told) => if told = userId then some (decided (some userId) 429) else none
  | _, _ => none

/-- `apikey.auth` -/
def authenticate (stage : TrailStage) (action userId : Option LogValue) : Option TrailStage :=
  if stage = arrived ∨ stage = unthrottled then
    match action, userId with
    | some (.text "deny"), some .null => some (decided none 401)
    | some (.text "allow"), some (.int userId) => some (authenticated userId)
    | _, _ => none
  else none

/-- The stage that a line of a caller leads to. -/
def told (caller : ℤ) (event action : String) : Option TrailStage :=
  match recordings.lookup (event, action) with
  | some status => some (recorded caller status)
  | none => (decisions.lookup (event, action)).map (decided (some caller))

/-- A line of a service, or of the scope check: it is the caller's. -/
def act (stage : TrailStage) (event : String) (action userId : Option LogValue) : Option TrailStage :=
  match stage.caller, userId, action with
  | some caller, some (.int userId), some (.text action) => if userId = caller then told caller event action else none
  | _, _, _ => none

/-- The stage behind the completion of a request with a status. -/
def complete (stage : TrailStage) (status : ℤ) : Option TrailStage :=
  match stage with
  | arrived => if status = 413 then some (completed none status) else none
  | authenticated userId | unmetered userId =>
    if status ∈ silentStatuses then some (completed (some userId) status) else none
  | decided userId told => if status = told then some (completed userId status) else none
  | recorded userId told => if status = told then some (completed (some userId) status) else none
  | unthrottled | completed .. | exported _ | failed | reported => none

/-- `request.completed` -/
def answer (stage : TrailStage) : Option LogValue → Option TrailStage
  | some (.int status) => stage.complete status
  | _ => none

/-- `usage.export` -/
def endExport (stage : TrailStage) (userId : Option LogValue) : Option TrailStage :=
  match stage, userId with
  | completed (some caller) 200, some (.int userId) => if userId = caller then some (exported caller) else none
  | _, _ => none

/-- The stage behind an event with its values, if the event may come here. -/
def stepOn (stage : TrailStage) (event : String) (value : String → Option LogValue) : Option TrailStage :=
  match event with
  | "ratelimit.backend_unavailable" => stage.openTier (value "tier")
  | "ratelimit.exceeded" => stage.exceed (value "userId")
  | "apikey.auth" => stage.authenticate (value "action") (value "userId")
  | "validation.failed" => if stage.isUndecided then some (decided stage.caller 422) else none
  | "request.completed" => stage.answer (value "statusCode")
  | "usage.export" => stage.endExport (value "userId")
  | "request.failed" => if stage.mayFail then some failed else none
  | "request.unhandled_error" =>
    match stage with
    | failed | exported _ => some reported
    | _ => none
  | event => stage.act event (value "action") (value "userId")

/-- The stage behind a call of the logger. -/
def step (stage : TrailStage) (line : LogCall) : Option TrailStage :=
  stage.stepOn line.event fun key => line.eventDict.lookup key

end TrailStage

end Meterly
