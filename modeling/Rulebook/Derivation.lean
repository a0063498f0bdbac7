import Rulebook.Record
import Rulebook.Text.Blank
import Rulebook.Json.Fields
/-!
Derived fields: a copy, a constant, or one arithmetic operation on two operands, written into a
record before its conditions are checked. A derivation that has no result removes its field.
-/

set_option autoImplicit false

namespace Rulebook

inductive Arithmetic where
  | add
  | subtract
  | multiply
  | divide
  deriving DecidableEq, Repr

namespace Arithmetic

def name : Arithmetic → String
  | .add => "add"
  | .subtract => "subtract"
  | .multiply => "multiply"
  | .divide => "divide"

def sign : Arithmetic → String
  | .add => "+"
  | .subtract => "-"
  | .multiply => "*"
  | .divide => "/"

def all : List Arithmetic := [.add, .subtract, .multiply, .divide]

def ofName? (s : String) : Option Arithmetic := all.find? fun op => s == op.name || s == op.sign

/-- The finite result, if there is one; nothing is divided by zero. -/
def compute? (op : Arithmetic) (a b : Float) : Option Float :=
  let finite (x : Float) : Option Float := if x.isFinite then some x else none
  match op with
  | .add => finite (a + b)
  | .subtract => finite (a - b)
  | .multiply => finite (a * b)
  | .divide => if b == 0 then none else finite (a / b)

end Arithmetic

inductive Operand where
  | constant (x : Float)
  | field (name : String)
  deriving BEq

namespace Operand

def resolve? (o : Operand) (r : Record) : Option Float :=
  match o with
  | .constant x => some x
  | .field name => (r.get? name).bind Value.asNumber?

def ofJson? : Json → Option Operand
  | .number n => some (.constant n.toFloat)
  | .text s => some (.field s)
  | _ => none

def toJson : Operand → Json
  | .constant x => (Value.number x).toJson
  | .field name => .text name

end Operand

inductive Derivation where
  | copy (source target : String)
  | constant (target : String) (value : Value)
  | arithmetic (target : String) (left : Operand) (op : Arithmetic) (right : Operand)
  deriving BEq

inductive DerivationError where
  | blankTarget
  | blankSource
  | missingConstant (target : String)
  | blankOperand
  | nonFiniteOperand (x : Float)
  deriving BEq

def DerivationError.message : DerivationError → String
  | .blankTarget => "目标字段不能为空"
  | .blankSource => "复制的源字段不能为空"
  | .missingConstant target => "常量字段 '" ++ target ++ "' 缺少值"
  | .blankOperand => "运算数字段名不能为空"
  | .nonFiniteOperand x => "运算常量必须是有限数: " ++ plainNumber x

def Operand.fault? : Operand → Option DerivationError
  | .constant x => if x.isFinite then none else some (.nonFiniteOperand x)
  | .field name => if Text.allBlank name then some .blankOperand else none

namespace Derivation

def target : Derivation → String
  | .copy _ target => target
  | .constant target _ => target
  | .arithmetic target _ _ _ => target

/-- The first fault, if there is one; of two operands the left one comes first. -/
def fault? (d : Derivation) : Option DerivationError :=
  if Text.allBlank d.target then some .blankTarget
  else match d with
    | .copy source _ => if Text.allBlank source then some .blankSource else none
    | .constant target value => if value.isAbsent then some (.missingConstant target) else none
    | .arithmetic _ left _ right => left.fault?.or right.fault?

def result? (d : Derivation) (r : Record) : Option Value :=
  match d with
  | .copy source _ => r.get? source
  | .constant _ value => some value
  | .arithmetic _ left op right => do
    let a ← left.resolve? r
    let b ← right.resolve? r
    (op.compute? a b).map .number

def apply (d : Derivation) (r : Record) : Record :=
  match d.result? r with
  | some v => r.insert d.target v
  | none => r.remove d.target

/-- In order, so that a derivation sees what the ones before it wrote. -/
def applyAll (ds : List Derivation) (r : Record) : Record := ds.foldl (fun r d => d.apply r) r

def toJson : Derivation → Json
  | .copy source target =>
    .fields [("kind", .text "copy"), ("from", .text source), ("to", .text target)]
  | .constant target value =>
    .fields [("kind", .text "constant"), ("to", .text target), ("value", value.toJson)]
  | .arithmetic target left op right =>
    .fields [("kind", .text "arithmetic"), ("to", .text target), ("left", left.toJson),
      ("op", .text op.name), ("right", right.toJson)]

def arithmeticOfJson? (j : Json) : Option Arithmetic :=
  let isEmpty : Json → Bool
    | .null | .fields [] => true
    | _ => false
  (j.tag? isEmpty).bind Arithmetic.ofName?

def ofKind? (kind : String) (j : Json) : Option Derivation :=
  match kind with
  | "copy" => do
    match ← j.structure? ["from", "to"] with
    | [source, target] =>
      pure (.copy (← Json.required? Json.text? source) (← Json.required? Json.text? target))
    | _ => none
  | "constant" => do
    match ← j.structure? ["to", "value"] with
    | [target, value] =>
      pure (.constant (← Json.required? Json.text? target) (← Json.required? Value.ofJson? value))
    | _ => none
  | "arithmetic" => do
    match ← j.structure? ["to", "left", "op", "right"] with
    | [target, left, op, right] =>
      pure (.arithmetic (← Json.required? Json.text? target)
        (← Json.required? Operand.ofJson? left) (← Json.required? arithmeticOfJson? op)
        (← Json.required? Operand.ofJson? right))
    | _ => none
  | _ => none

/-- The kind stands in a field of its own or at the head of a list. Every part of a derivation must
have a value, the parts passed over too. -/
def ofJson? (j : Json) : Option Derivation := do
  let _ ← j.value?
  match j with
  | .fields es =>
    match ← Json.field? es "kind" with
    | some (.text kind) => ofKind? kind (.fields (es.filter (·.1 != "kind")))
    | _ => none
  | .list (.text kind :: items) => ofKind? kind (.list items)
  | _ => none

end Derivation

end Rulebook
