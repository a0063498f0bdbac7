import Rulebook.RuleSet.Basic
import Rulebook.Decision
/-!
Evaluating a rule set. Rules are scanned in the order of their definition, the conditions of a rule
up to the first that is not satisfied. The trace is the account of the scan; whether it is kept has
no influence on the decision.
-/

set_option autoImplicit false

namespace Rulebook

inductive TraceLine where
  | checked (rule : String) (index : Nat) (condition : Condition) (verdict : Verdict)
  | cutShort (rule : String) (index : Nat)
  | stopped (rule : String)
  | fellBack (kind : Option Outcome.Kind)

def TraceLine.message : TraceLine → String
  | .checked rule index condition verdict =>
    rule ++ ".conditions[" ++ Nat.repr index ++ "]: " ++ condition.display ++ " => " ++
      verdict.display
  | .cutShort rule index => rule ++ ": AND 短路 - 条件 " ++ Nat.repr index ++ " 不满足"
  | .stopped rule => "first_match: 规则 " ++ rule ++ " 命中, 停止扫描"
  | .fellBack kind =>
    "无规则命中, 兜底结果: " ++ ((kind.map Outcome.Kind.name).getD "no_decision")

namespace Rule

def scanFrom (rule : String) (r : Record) (index : Nat) :
    List Condition → Bool × List TraceLine
  | [] => (true, [])
  | c :: cs =>
    let verdict := c.check r
    let line := TraceLine.checked rule index c verdict
    if verdict.isSatisfied then
      let (covered, lines) := scanFrom rule r (index + 1) cs
      (covered, line :: lines)
    else (false, line :: if cs.isEmpty then [] else [.cutShort rule index])

def scan (rule : Rule) (r : Record) : Bool × List TraceLine :=
  scanFrom rule.id r 0 rule.conditions

end Rule

namespace RuleSet

/-- The rules that count, in order, and the account of the scan. -/
def scan (mode : Mode) (r : Record) : List Rule → List Rule × List TraceLine
  | [] => ([], [])
  | rule :: rules =>
    let (covered, lines) := rule.scan r
    if covered then
      match mode with
      | .firstMatch => ([rule], lines ++ [.stopped rule.id])
      | .accumulate =>
        let (matched, rest) := scan mode r rules
        (rule :: matched, lines ++ rest)
    else
      let (matched, rest) := scan mode r rules
      (matched, lines ++ rest)

/-- All matched rules together; the first one says what is being accumulated. -/
def accumulated (matched : List Rule) : Option DecisionOutcome :=
  matched.head?.map fun first =>
    match first.outcome with
    | .contribution _ => .score (Score.sum (matched.filterMap (·.outcome.score?)))
    | .violation _ => .violations (matched.filterMap (·.outcome.message?))
    | .action name => .action name

def matchedOutcome? (mode : Mode) (matched : List Rule) : Option DecisionOutcome :=
  match mode with
  | .firstMatch => matched.head?.map (·.outcome.alone)
  | .accumulate => accumulated matched

def defaultOutcome (s : RuleSet) : DecisionOutcome :=
  (s.fallback.map Outcome.alone).getD .noDecision

end RuleSet

structure Evaluation where
  decision : Decision
  trace : List TraceLine

namespace RuleSet

/-- Derived fields go into a copy of the record; the decision keeps the record as it was given. -/
def evaluate (s : RuleSet) (traced : Bool) (stamp : Stamp) (r : Record) : Evaluation :=
  let (matched, lines) := scan s.mode (Derivation.applyAll s.derived r) s.rules
  let outcome? := matchedOutcome? s.mode matched
  let lines := lines ++ if outcome?.isNone then [.fellBack (s.fallback.map Outcome.kind)] else []
  { decision := {
      id := stamp.id
      ruleSetId := s.id
      record := r
      matchedRuleIds := matched.map (·.id)
      outcome := outcome?.getD s.defaultOutcome
      evaluatedAt := stamp.time }
    trace := if traced then lines else [] }

/-- One evaluation for each record; `stamp k` is for the record at position `k`. -/
def evaluateAll (s : RuleSet) (traced : Bool) (stamp : Nat → Stamp) (rs : List Record) :
    List Evaluation :=
  rs.mapIdx fun k r => s.evaluate traced (stamp k) r

end RuleSet

end Rulebook
