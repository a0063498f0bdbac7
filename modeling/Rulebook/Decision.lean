import Rulebook.Outcome
import Rulebook.Record
import Rulebook.Definition
/-! Decisions: what an evaluation came to, with the record it was made for. Never changed. -/

set_option autoImplicit false

namespace Rulebook

/-- What a decision is given from outside: an identifier of its own, and the time. -/
structure Stamp where
  id : String
  time : Instant

structure Decision where
  id : String
  ruleSetId : String
  record : Record
  matchedRuleIds : List String
  outcome : DecisionOutcome
  evaluatedAt : Instant
  deriving BEq

namespace Decision

def toJson (d : Decision) : Json :=
  .fields [("id", .text d.id), ("ruleset_id", .text d.ruleSetId),
    ("record_snapshot", d.record.toJson),
    ("matched_rule_ids", .list (d.matchedRuleIds.map .text)),
    ("outcome", d.outcome.toJson), ("evaluated_at", d.evaluatedAt.toJson)]

def ofJson? (j : Json) : Option Decision := do
  match ← j.structure? ["id", "ruleset_id", "record_snapshot", "matched_rule_ids", "outcome",
      "evaluated_at"] with
  | [id, ruleSetId, record, matchedRuleIds, outcome, evaluatedAt] =>
    pure {
      id := ← Json.required? Json.text? id
      ruleSetId := ← Json.required? Json.text? ruleSetId
      record := ← Json.required? Record.ofObject? record
      matchedRuleIds := ← Json.required? (Json.listOf? Json.text?) matchedRuleIds
      outcome := ← Json.required? DecisionOutcome.ofJson? outcome
      evaluatedAt := ← Json.required? Instant.ofJson? evaluatedAt }
  | _ => none

def read? (s : String) : Option Decision := (Json.read? s).bind ofJson?

def text (d : Decision) : String := d.toJson.compact

end Decision

end Rulebook
