import Rulebook.Json.Basic
import Rulebook.Json.Printer
import Rulebook.Text.Quoted
/-! Typed values, shared by records and by the literals of rules. Types are never converted. -/

set_option autoImplicit false

namespace Rulebook

inductive Value where
  | number (x : Float)
  | text (s : String)
  | boolean (b : Bool)
  | absent
  deriving BEq

inductive Kind where
  | number
  | text
  | boolean
  | absent
  deriving DecidableEq, Repr

def Kind.name : Kind → String
  | .number => "number"
  | .text => "text"
  | .boolean => "boolean"
  | .absent => "absent"

namespace Value

instance : Inhabited Value := ⟨.absent⟩

def ofJson? : Json → Option Value
  | .null => some .absent
  | .bool b => some (.boolean b)
  | .number n => some (.number n.toFloat)
  | .text s => some (.text s)
  | _ => none

/-- A number that is not finite is left without a value. -/
def toJson : Value → Json
  | .number x => if x.isFinite then .number (.real x) else .null
  | .text s => .text s
  | .boolean b => .bool b
  | .absent => .null

def isAbsent : Value → Bool
  | .absent => true
  | _ => false

def asNumber? : Value → Option Float
  | .number x => some x
  | _ => none

def asText? : Value → Option String
  | .text s => some s
  | _ => none

def kind : Value → Kind
  | .number _ => .number
  | .text _ => .text
  | .boolean _ => .boolean
  | .absent => .absent

def display : Value → String
  | .number x => plainNumber x
  | .text s => Text.quoted s
  | .boolean b => if b then "true" else "false"
  | .absent => "absent"

end Value

end Rulebook
