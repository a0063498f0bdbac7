import Rulebook.Evaluation
import Rulebook.DecisionLog
/-!
Receipts: the decision that was made, whether it was recorded, and the trace if one was kept. A
decision stands even if it could not be recorded.
-/

set_option autoImplicit false

namespace Rulebook

inductive LogStatus where
  | recorded
  | failed (e : LogError)
  deriving DecidableEq, Repr

namespace LogStatus

def ofResult : Except LogError Unit → LogStatus
  | .ok () => .recorded
  | .error e => .failed e

def isRecorded : LogStatus → Bool
  | .recorded => true
  | .failed _ => false

def toJson : LogStatus → Json
  | .recorded => .fields [("status", .text "recorded")]
  | .failed e => .fields [("status", .text "failed"), ("reason", .text e.message)]

end LogStatus

structure Receipt where
  decision : Decision
  status : LogStatus
  trace : List TraceLine

namespace Receipt

def toJson (r : Receipt) : Json :=
  .fields ([("decision", r.decision.toJson), ("log_status", r.status.toJson)] ++
    if r.trace.isEmpty then []
    else [("evaluation_trace", .list (r.trace.map fun line => .text line.message))])

def text (r : Receipt) : String := r.toJson.compact

end Receipt

end Rulebook
