import Rulebook.Decimal.Layout
import Rulebook.Table
/-!
JSON documents. A document keeps the fields of an object as they are written, repeated keys
included. `Json.value?` takes its value: fields in ascending order of keys, the last of equal keys.
-/

set_option autoImplicit false

namespace Rulebook

/-- A number without a point or exponent stays an integer if it fits 64 bits. -/
inductive Json.Number where
  | integer (n : Int)
  | real (x : Float)
  deriving BEq

/-- `unusable` is a part that is well formed and has no value: a number beyond all doubles, a text
with half of a surrogate pair, a container nested too deeply. It does no harm where nobody asks for
the part. -/
inductive Json where
  | null
  | bool (b : Bool)
  | number (n : Json.Number)
  | text (s : String)
  | list (items : List Json)
  | fields (entries : List (String × Json))
  | unusable

namespace Json

instance : Inhabited Json := ⟨.null⟩

mutual

def beq : Json → Json → Bool
  | .null, .null => true
  | .bool a, .bool b => a == b
  | .number a, .number b => a == b
  | .text a, .text b => a == b
  | .list a, .list b => beqItems a b
  | .fields a, .fields b => beqFields a b
  | _, _ => false

def beqItems : List Json → List Json → Bool
  | [], [] => true
  | a :: as, b :: bs => beq a b && beqItems as bs
  | _, _ => false

def beqFields : List (String × Json) → List (String × Json) → Bool
  | [], [] => true
  | (k, a) :: as, (l, b) :: bs => k == l && beq a b && beqFields as bs
  | _, _ => false

end

instance : BEq Json := ⟨beq⟩

mutual

def value? : Json → Option Json
  | .null => some .null
  | .bool b => some (.bool b)
  | .number n => some (.number n)
  | .text s => some (.text s)
  | .list items => (itemValues? items).map .list
  | .fields entries => (fieldValues? entries).map .fields
  | .unusable => none

def itemValues? : List Json → Option (List Json)
  | [] => some []
  | j :: js => do
    let v ← value? j
    let vs ← itemValues? js
    pure (v :: vs)

def fieldValues? : List (String × Json) → Option (List (String × Json))
  | [] => some []
  | (key, j) :: es => do
    let v ← value? j
    let later ← fieldValues? es
    pure (if (later.lookup key).isSome then later else Entries.insert key v later)

end

def Number.toFloat : Number → Float
  | .integer n => Binary64.ofInt n
  | .real x => x

end Json

end Rulebook
