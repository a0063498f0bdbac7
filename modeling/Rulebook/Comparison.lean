import Rulebook.Condition
import Rulebook.Record
/-!
Comparing a field with a literal. There are three answers: a comparison that makes no sense is
neither satisfied nor an error. A text literal takes the type of the field; nothing else is
converted.
-/

set_option autoImplicit false

namespace Rulebook

inductive Obstacle where
  | missingField
  | incompatible (record literal : Kind)
  | unreadable (literal : String)
  | unordered (kind : Kind)
  deriving DecidableEq, Repr

def Obstacle.message : Obstacle → String
  | .missingField => "属性缺失"
  | .incompatible record literal =>
    "类型不兼容: 记录为 " ++ record.name ++ ", 字面量为 " ++ literal.name
  | .unreadable literal => "字面量无法解析: " ++ Text.quoted literal
  | .unordered kind => kind.name ++ " 不支持大小比较"

inductive Verdict where
  | satisfied
  | unsatisfied
  | indeterminate (obstacle : Obstacle)
  deriving DecidableEq, Repr

namespace Verdict

def isSatisfied : Verdict → Bool
  | .satisfied => true
  | _ => false

def ofBool (b : Bool) : Verdict := if b then .satisfied else .unsatisfied

def display : Verdict → String
  | .satisfied => "MATCHED"
  | .unsatisfied => "NOT_MATCHED"
  | .indeterminate obstacle => "INDETERMINATE (" ++ obstacle.message ++ ")"

end Verdict

namespace Comparison

def order? (a b : Float) : Option Ordering :=
  if a.isNaN || b.isNaN then none
  else some (if a < b then .lt else if a == b then .eq else .gt)

def numbers (operator : Operator) (a b : Float) : Verdict :=
  match order? a b with
  | some order => .ofBool (operator.holds order)
  | none => .indeterminate (.incompatible .number .number)

def texts (operator : Operator) (a b : String) : Verdict :=
  .ofBool (operator.holds (compare a b))

def booleans (operator : Operator) (a b : Bool) : Verdict :=
  match operator with
  | .eq => .ofBool (a == b)
  | .ne => .ofBool (a != b)
  | _ => .indeterminate (.unordered .boolean)

def readNumber? (s : String) : Option Float := Binary64.finiteOfText? (Text.trim s)

def readBoolean? (s : String) : Option Bool :=
  let word := (Text.trim s).toList.map Char.toLower
  if word = "true".toList then some true
  else if word = "false".toList then some false
  else none

/-- A missing field satisfies no operator. -/
def evaluate (field : Option Value) (operator : Operator) (literal : Value) : Verdict :=
  match field with
  | none | some .absent => .indeterminate .missingField
  | some v =>
    match v, literal with
    | .number a, .number b => numbers operator a b
    | .number a, .text s =>
      match readNumber? s with
      | some b => numbers operator a b
      | none => .indeterminate (.unreadable s)
    | .text a, .text b => texts operator a b
    | .boolean a, .boolean b => booleans operator a b
    | .boolean a, .text s =>
      match readBoolean? s with
      | some b => booleans operator a b
      | none => .indeterminate (.unreadable s)
    | v, literal => .indeterminate (.incompatible v.kind literal.kind)

end Comparison

def Condition.check (c : Condition) (r : Record) : Verdict :=
  Comparison.evaluate (r.get? c.field) c.operator c.literal

end Rulebook
