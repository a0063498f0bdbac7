import Rulebook.Definition
import Rulebook.Comparison
/-! Rules and rule sets in the form in which they are evaluated. -/

set_option autoImplicit false

namespace Rulebook

structure Rule where
  id : String
  name : String
  conditions : List Condition
  outcome : Outcome
  deriving BEq

namespace Rule

def toJson (r : Rule) : Json :=
  .fields [("id", .text r.id), ("name", .text r.name),
    ("conditions", .list (r.conditions.map Condition.toJson)), ("outcome", r.outcome.toJson)]

def covers (rule : Rule) (r : Record) : Bool :=
  rule.conditions.all fun c => (c.check r).isSatisfied

end Rule

structure RuleSet where
  id : String
  name : String
  description : Option String
  rules : List Rule
  mode : Mode
  fallback : Option Outcome
  derived : List Derivation
  definedAt : Instant
  deriving BEq

namespace RuleSet

def requiredFields (s : RuleSet) : List String :=
  Table.distinct (s.rules.flatMap fun rule => rule.conditions.map (·.field))

def toJson (s : RuleSet) : Json :=
  .fields (
    [("id", .text s.id), ("name", .text s.name)] ++
    (s.description.map fun d => ("description", Json.text d)).toList ++
    [("rules", .list (s.rules.map Rule.toJson)),
      ("evaluation_mode", .text s.mode.name),
      ("fallback_outcome", (s.fallback.map Outcome.toJson).getD .null)] ++
    (if s.derived.isEmpty then [] else
      [("derived_fields", .list (s.derived.map Derivation.toJson))]) ++
    [("defined_at", s.definedAt.toJson)])

def toDefinition (s : RuleSet) : Definition where
  id := s.id
  name := s.name
  description := s.description
  rules := s.rules.map fun rule => {
    id := rule.id
    name := rule.name
    conditions := .list (rule.conditions.map fun c =>
      .structured c.field c.operator.symbol c.literal.toJson)
    outcome := rule.outcome }
  mode := s.mode
  fallback := s.fallback
  derived := s.derived
  definedAt := some s.definedAt

end RuleSet

end Rulebook
