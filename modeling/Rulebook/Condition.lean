import Rulebook.Value
import Rulebook.Operator
/-!
Conditions compare a field of a record with a literal. `Condition.build` is the only way to one: its
field is trimmed and not empty, and its literal is present and, if a number, finite.
-/

set_option autoImplicit false

namespace Rulebook

structure Condition where
  field : String
  operator : Operator
  literal : Value
  deriving BEq

inductive ConditionError where
  | emptyField
  | unsupportedOperator (symbol : String)
  | absentLiteral
  | nonLiteral (document : Json)
  | nonFiniteLiteral (x : Float)
  | unparsable (expression : String)
  deriving BEq

def ConditionError.message : ConditionError → String
  | .emptyField => "条件的属性名不能为空"
  | .unsupportedOperator symbol => "不支持的操作符: " ++ symbol
  | .absentLiteral => "条件必须提供比较值"
  | .nonLiteral document => "比较值必须是字面量, 实际为 " ++ document.compact
  | .nonFiniteLiteral x => "数值字面量必须是有限数: " ++ plainNumber x
  | .unparsable expression => "无法解析条件表达式: '" ++ expression ++ "'"

namespace Condition

def literalFault? : Value → Option ConditionError
  | .absent => some .absentLiteral
  | .number x => if x.isFinite then none else some (.nonFiniteLiteral x)
  | _ => none

/-- The operator is looked at first, then the field, then the literal. -/
def build (field symbol : String) (literal : Value) : Except ConditionError Condition :=
  match Operator.ofText? symbol with
  | none => .error (.unsupportedOperator (Text.trim symbol))
  | some operator =>
    let field := Text.trim field
    if field.isEmpty then .error .emptyField
    else match literalFault? literal with
      | some fault => .error fault
      | none => .ok ⟨field, operator, literal⟩

def literalOfJson (j : Json) : Except ConditionError Value :=
  match Value.ofJson? j with
  | some .absent => .error .absentLiteral
  | some v => .ok v
  | none => .error (.nonLiteral j)

def display (c : Condition) : String :=
  c.field ++ " " ++ c.operator.symbol ++ " " ++ c.literal.display

def toJson (c : Condition) : Json :=
  .fields [("attribute", .text c.field), ("operator", .text c.operator.symbol),
    ("value", c.literal.toJson)]

end Condition

end Rulebook
