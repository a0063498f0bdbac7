import Rulebook.Score
import Rulebook.Json.Fields
import Rulebook.Json.Printer
/-! What a rule contributes, and what a decision comes to. -/

set_option autoImplicit false

namespace Rulebook

namespace Json

/-- A constructor with its data: `type` and `value` in an object, or the two items of a list, of
which the first is a plain text. -/
def tagged? (j : Json) : Option (String × Option Json) :=
  match j with
  | .fields es => do
    let kind ← (← field? es "type").bind (tag? isNull)
    pure (kind, ← field? es "value")
  | .list [.text kind, value] => some (kind, some value)
  | _ => none

def tagged (kind : String) (value : Json) : Json :=
  .fields [("type", .text kind), ("value", value)]

end Json

inductive Outcome where
  | action (name : String)
  | contribution (score : Score)
  | violation (message : String)
  deriving DecidableEq

inductive DecisionOutcome where
  | action (name : String)
  | score (total : Score)
  | violations (messages : List String)
  | noDecision
  deriving DecidableEq

namespace Outcome

inductive Kind where
  | action
  | contribution
  | violation
  deriving DecidableEq, Repr

def Kind.name : Kind → String
  | .action => "action"
  | .contribution => "score_contribution"
  | .violation => "violation"

def kind : Outcome → Kind
  | .action _ => .action
  | .contribution _ => .contribution
  | .violation _ => .violation

def alone : Outcome → DecisionOutcome
  | .action name => .action name
  | .contribution score => .score score
  | .violation message => .violations [message]

def score? : Outcome → Option Score
  | .contribution score => some score
  | _ => none

def message? : Outcome → Option String
  | .violation message => some message
  | _ => none

def toJson : Outcome → Json
  | .action name => Json.tagged "action" (.text name)
  | .contribution score => Json.tagged "score_contribution" score.toJson
  | .violation message => Json.tagged "violation" (.text message)

def ofJson? (j : Json) : Option Outcome := do
  match ← j.tagged? with
  | ("action", some (.text name)) => some (.action name)
  | ("score_contribution", some value) => (Score.ofJson? value).map .contribution
  | ("violation", some (.text message)) => some (.violation message)
  | _ => none

end Outcome

namespace DecisionOutcome

def kindName : DecisionOutcome → String
  | .action _ => "action"
  | .score _ => "score"
  | .violations _ => "violations"
  | .noDecision => "no_decision"

def isDecided : DecisionOutcome → Bool
  | .noDecision => false
  | _ => true

def action? : DecisionOutcome → Option String
  | .action name => some name
  | _ => none

def score? : DecisionOutcome → Option Score
  | .score total => some total
  | _ => none

def messages : DecisionOutcome → List String
  | .violations messages => messages
  | _ => []

def toJson : DecisionOutcome → Json
  | .action name => Json.tagged "action" (.text name)
  | .score total => Json.tagged "score" total.toJson
  | .violations messages => Json.tagged "violations" (.list (messages.map .text))
  | .noDecision => .fields [("type", .text "no_decision")]

def ofJson? (j : Json) : Option DecisionOutcome := do
  match ← j.tagged? with
  | ("action", some (.text name)) => some (.action name)
  | ("score", some value) => (Score.ofJson? value).map .score
  | ("violations", some value) => (Json.listOf? Json.text? value).map .violations
  | ("no_decision", none) | ("no_decision", some .null) => some .noDecision
  | _ => none

end DecisionOutcome

end Rulebook
