import Rulebook.Expression
import Rulebook.Outcome
import Rulebook.Derivation
import Rulebook.Instant.Text
/-!
Rule set definitions as they are handed in: nothing is checked yet beyond their shape. The
conditions of a rule are a list, each a structure or an expression, or an object of suffixed keys.
-/

set_option autoImplicit false

namespace Rulebook

namespace Instant

def toJson (t : Instant) : Json := .text t.text

def ofJson? : Json → Option Instant
  | .text s => read? s
  | _ => none

end Instant

inductive Mode where
  | firstMatch
  | accumulate
  deriving DecidableEq, Repr

namespace Mode

def name : Mode → String
  | .firstMatch => "first_match"
  | .accumulate => "accumulate"

def ofJson? (j : Json) : Option Mode := do
  match ← j.tag? Json.isNull with
  | "first_match" => some .firstMatch
  | "accumulate" => some .accumulate
  | _ => none

end Mode

inductive Clause where
  | structured (field operator : String) (literal : Json)
  | expression (text : String)
  deriving BEq

namespace Clause

def eitherField? (es : List (String × Json)) (name other : String) : Option (Option Json) :=
  match es.filter fun e => e.1 == name || e.1 == other with
  | [] => some none
  | [(_, j)] => some (some j)
  | _ => none

def ofJson? : Json → Option Clause
  | .text s => some (.expression s)
  | .fields es => do
    let field ← Json.required? Json.text? (← eitherField? es "attribute" "field")
    let operator ← Json.required? Json.text? (← Json.field? es "operator")
    let literal ← Json.withDefault? .null Json.value? (← eitherField? es "value" "literal")
    pure (.structured field operator literal)
  | _ => none

def toJson : Clause → Json
  | .structured field operator literal =>
    .fields [("attribute", .text field), ("operator", .text operator), ("value", literal)]
  | .expression text => .text text

def lower : Clause → Except ConditionError Condition
  | .structured field operator literal => do
    Condition.build field operator (← Condition.literalOfJson literal)
  | .expression text => do (← Expression.read text).toCondition

end Clause

inductive Clauses where
  | list (clauses : List Clause)
  | suffixed (entries : List (String × Json))
  deriving BEq

namespace Clauses

/-- Every part of the conditions must have a value, the parts passed over too. -/
def ofJson? (j : Json) : Option Clauses := do
  let value ← j.value?
  match j, value with
  | .list items, _ => (items.mapM Clause.ofJson?).map .list
  | .fields _, .fields entries => some (.suffixed entries)
  | _, _ => none

def toJson : Clauses → Json
  | .list clauses => .list (clauses.map Clause.toJson)
  | .suffixed entries => .fields entries

end Clauses

structure RuleDefinition where
  id : String
  name : String
  conditions : Clauses
  outcome : Outcome
  deriving BEq

namespace RuleDefinition

def ofJson? (j : Json) : Option RuleDefinition := do
  match ← j.structure? ["id", "name", "conditions", "outcome"] with
  | [id, name, conditions, outcome] =>
    pure {
      id := ← Json.required? Json.text? id
      name := ← Json.withDefault? "" Json.text? name
      conditions := ← Json.required? Clauses.ofJson? conditions
      outcome := ← Json.required? Outcome.ofJson? outcome }
  | _ => none

def toJson (d : RuleDefinition) : Json :=
  .fields [("id", .text d.id), ("name", .text d.name), ("conditions", d.conditions.toJson),
    ("outcome", d.outcome.toJson)]

end RuleDefinition

structure Definition where
  id : String
  name : String
  description : Option String
  rules : List RuleDefinition
  mode : Mode
  fallback : Option Outcome
  derived : List Derivation
  definedAt : Option Instant
  deriving BEq

namespace Definition

def ofJson? (j : Json) : Option Definition := do
  match ← j.structure? ["id", "name", "description", "rules", "evaluation_mode",
      "fallback_outcome", "derived_fields", "defined_at"] with
  | [id, name, description, rules, mode, fallback, derived, definedAt] =>
    pure {
      id := ← Json.required? Json.text? id
      name := ← Json.required? Json.text? name
      description := ← Json.optional? Json.text? description
      rules := ← Json.required? (Json.listOf? RuleDefinition.ofJson?) rules
      mode := ← Json.withDefault? .firstMatch Mode.ofJson? mode
      fallback := ← Json.optional? Outcome.ofJson? fallback
      derived := ← Json.withDefault? [] (Json.listOf? Derivation.ofJson?) derived
      definedAt := ← Json.optional? Instant.ofJson? definedAt }
  | _ => none

def read? (s : String) : Option Definition := (Json.read? s).bind ofJson?

/-- A description, derived fields and the time of definition are left out if there are none; a
missing fallback is written as `null`. -/
def toJson (d : Definition) : Json :=
  .fields (
    [("id", .text d.id), ("name", .text d.name)] ++
    (d.description.map fun s => ("description", Json.text s)).toList ++
    [("rules", .list (d.rules.map RuleDefinition.toJson)),
      ("evaluation_mode", .text d.mode.name),
      ("fallback_outcome", (d.fallback.map Outcome.toJson).getD .null)] ++
    (if d.derived.isEmpty then [] else
      [("derived_fields", .list (d.derived.map Derivation.toJson))]) ++
    (d.definedAt.map fun t => ("defined_at", t.toJson)).toList)

end Definition

end Rulebook
