import Rulebook.RuleSet.Basic
/-! What a listing shows of a rule set. -/

set_option autoImplicit false

namespace Rulebook

structure Overview where
  id : String
  name : String
  mode : Mode
  ruleCount : Nat
  hasFallback : Bool
  requiredFields : List String
  definedAt : Instant

namespace Overview

def toJson (o : Overview) : Json :=
  .fields [("id", .text o.id), ("name", .text o.name), ("evaluation_mode", .text o.mode.name),
    ("rules_count", .number (.integer o.ruleCount)), ("has_fallback", .bool o.hasFallback),
    ("required_attributes", .list (o.requiredFields.map .text)),
    ("defined_at", o.definedAt.toJson)]

end Overview

def RuleSet.overview (s : RuleSet) : Overview where
  id := s.id
  name := s.name
  mode := s.mode
  ruleCount := s.rules.length
  hasFallback := s.fallback.isSome
  requiredFields := s.requiredFields
  definedAt := s.definedAt

end Rulebook
