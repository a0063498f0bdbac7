import Rulebook.RuleSet.Basic
import Rulebook.SuffixKey
/-!
Compiling a definition: the identifiers, then rule after rule, then the outcomes, then the derived
fields. The first fault in this order is the one reported.
-/

set_option autoImplicit false

namespace Rulebook

inductive Identifier where
  | ruleSetId
  | ruleSetName
  | ruleId
  deriving DecidableEq, Repr

def Identifier.name : Identifier → String
  | .ruleSetId => "规则集 ID"
  | .ruleSetName => "规则集名称"
  | .ruleId => "规则 ID"

inductive OutcomeFault where
  | action
  | mixed (found expected : Outcome.Kind)
  deriving DecidableEq, Repr

def OutcomeFault.message : OutcomeFault → String
  | .action => "action 结果无法累加"
  | .mixed found expected => "结果类型 " ++ found.name ++ " 与 " ++ expected.name ++ " 不能混用"

inductive DefinitionError where
  | duplicateId (id : String)
  | blankIdentifier (which : Identifier)
  | duplicateRuleId (ruleSet rule : String)
  | noConditions (rule : String)
  | invalidCondition (rule : String) (index : Nat) (reason : ConditionError)
  | incompatibleOutcome (rule : String) (fault : OutcomeFault)
  | invalidDerivation (reason : DerivationError)
  | unreadable
  deriving BEq

namespace DefinitionError

/-- `reason` is what the reader of JSON says of a text that is no definition. -/
def message (e : DefinitionError) (reason : String := "") : String :=
  match e with
  | .duplicateId id => "规则集已存在: " ++ id
  | .blankIdentifier which => which.name ++ " 不能为空"
  | .duplicateRuleId ruleSet rule => "规则 ID 重复: ruleset=" ++ ruleSet ++ " rule=" ++ rule
  | .noConditions rule => "规则 '" ++ rule ++ "' 至少需要一个条件"
  | .invalidCondition rule index fault =>
    "规则 '" ++ rule ++ "' 的第 " ++ Nat.repr index ++ " 个条件无效: " ++ fault.message
  | .incompatibleOutcome rule fault =>
    "规则 '" ++ rule ++ "' 的结果类型不适用于 " ++ Mode.accumulate.name ++ " 模式: " ++
      fault.message
  | .invalidDerivation fault => "派生字段定义无效: " ++ fault.message
  | .unreadable => "规则集定义格式错误: " ++ reason

def code : DefinitionError → String
  | .duplicateId _ => "DUPLICATE_ID"
  | .noConditions _ => "EMPTY_CONDITION_LIST"
  | .invalidCondition _ _ _ => "INVALID_CONDITION"
  | _ => "INVALID_DEFINITION"

end DefinitionError

namespace Clauses

def lowered : Clauses → List (Except ConditionError Condition)
  | .list clauses => clauses.map Clause.lower
  | .suffixed entries => entries.map fun (key, j) => do
    let (field, operator) := SuffixKey.split key
    Condition.build field operator.symbol (← Condition.literalOfJson j)

end Clauses

namespace RuleDefinition

def collect (rule : String) (index : Nat) :
    List (Except ConditionError Condition) → Except DefinitionError (List Condition)
  | [] => .ok []
  | .error reason :: _ => .error (.invalidCondition rule index reason)
  | .ok c :: cs => (collect rule (index + 1) cs).map (c :: ·)

/-- A rule without a name is named by its identifier. -/
def compile (d : RuleDefinition) : Except DefinitionError Rule := do
  let conditions ← collect d.id 0 d.conditions.lowered
  if conditions.isEmpty then .error (.noConditions d.id)
  else .ok ⟨d.id, if Text.allBlank d.name then d.id else d.name, conditions, d.outcome⟩

end RuleDefinition

namespace Definition

def requireName (which : Identifier) (s : String) : Except DefinitionError Unit :=
  if Text.allBlank s then .error (.blankIdentifier which) else .ok ()

/-- `seen` holds the identifiers of the rules before. -/
def compileRules (ruleSet : String) (seen : List String) :
    List RuleDefinition → Except DefinitionError (List Rule)
  | [] => .ok []
  | d :: ds => do
    requireName .ruleId d.id
    if seen.contains d.id then .error (.duplicateRuleId ruleSet d.id)
    else
      let rule ← d.compile
      let rules ← compileRules ruleSet (d.id :: seen) ds
      .ok (rule :: rules)

def checkOutcomes (expected : Option Outcome.Kind) :
    List (String × Outcome) → Except DefinitionError Unit
  | [] => .ok ()
  | (rule, outcome) :: rest =>
    if outcome.kind = .action then .error (.incompatibleOutcome rule .action)
    else match expected with
      | none => checkOutcomes (some outcome.kind) rest
      | some kind =>
        if outcome.kind = kind then checkOutcomes expected rest
        else .error (.incompatibleOutcome rule (.mixed outcome.kind kind))

/-- The outcomes with the rules they belong to, the fallback last under a name of its own. -/
def outcomes (rules : List Rule) (fallback : Option Outcome) : List (String × Outcome) :=
  rules.map (fun rule => (rule.id, rule.outcome)) ++
    (fallback.map fun outcome => ("fallback", outcome)).toList

/-- `now` is the time of definition if the definition names none. -/
def compile (now : Instant) (d : Definition) : Except DefinitionError RuleSet := do
  requireName .ruleSetId d.id
  requireName .ruleSetName d.name
  let rules ← compileRules d.id [] d.rules
  if d.mode = .accumulate then checkOutcomes none (outcomes rules d.fallback)
  match d.derived.findSome? Derivation.fault? with
  | some reason => .error (.invalidDerivation reason)
  | none =>
    .ok ⟨d.id, d.name, d.description, rules, d.mode, d.fallback, d.derived,
      d.definedAt.getD now⟩

def compileText (now : Instant) (s : String) : Except DefinitionError RuleSet :=
  match read? s with
  | some d => d.compile now
  | none => .error .unreadable

end Definition

end Rulebook
