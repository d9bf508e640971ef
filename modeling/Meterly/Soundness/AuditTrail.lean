import Meterly.Machine.Protocol
import Meterly.Model.AuditTrail
import Meterly.Model.RequestLog
import Meterly.Soundness.ExportAudit

/-! # Every request leaves an audit trail

Whatever a request is and whatever its parts reply, its lines are a run of the trail, up to the completion, up
to the report of an error, or up to a cancellation. The services, the dependencies and the middleware are
followed part by part; between a raise and its handler the stage says which status, or which failure, may come next.
-/

namespace Meterly

/-- Lines that tell who calls begin with an id and an action. -/
def LogCall.Tells (line : LogCall) (userId action : LogValue) : Prop :=
  ∃ rest, line.fields = ("userId", userId) :: ("action", action) :: rest ∧
    ∀ entry ∈ rest, "userId" ≠ entry.1 ∧ "action" ≠ entry.1

section Tells

variable {line : LogCall} {userId action : LogValue}

end Tells

namespace TrailStage

variable {stage next : TrailStage} {userId status : ℕ} {reason path : String} {caller : ℤ}

/-! ## The lines -/

section Caller

variable {customerId metric : String} {resourceId : ℕ} (known : stage.caller = some (userId : ℤ))
include known

end Caller

end TrailStage

open TrailStage

/-! ## Between a raise and its handler -/

section Services

variable {α : Type} {stage : TrailStage} {principal : AuthenticatedPrincipal} {session : SessionReplies}

variable (known : stage.caller = some (principal.apiKeyId : ℤ))
include known

end Services

/-! ## The body of an export -/

section Export

variable {call : ExportCall}

variable {principal : AuthenticatedPrincipal} {raised : Raised → TrailStage → Prop}

end Export

/-! ## The dependencies and the routes -/

section Routes

variable {stage : TrailStage} {principal : AuthenticatedPrincipal}

end Routes

/-! ## The stack -/

/-- What leaves the application: a failure that has been reported, or a cancellation. -/
def Raised.Ended : Raised → TrailStage → Prop
  | .service .interrupted, stage => stage.mayFail ∨ stage.isAnswered
  | .service (.http _), _ | .requestValidation _, _ => False
  | .service (.idempotencyRace _), stage | .service (.overflowError _), stage | .failedStatement .., stage
  | .other _, stage => stage = .reported

section Stack

variable {stage : TrailStage} {context : LogContext} {hide : Bool} {exchange : Exchange}

end Stack

end Meterly
