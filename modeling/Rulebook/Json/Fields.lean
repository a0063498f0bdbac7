import Rulebook.Json.Basic
/-!
Taking typed data from a document. A structure is written as an object with its fields in any order
(others are passed over, a repeated one is an error), or as a list of its fields in their own order,
from which the last may be missing.
-/

set_option autoImplicit false

namespace Rulebook.Json

/-- The only entry with this key, if there is one; two are an error. -/
def field? (entries : List (String × Json)) (name : String) : Option (Option Json) :=
  match entries.filter (·.1 == name) with
  | [] => some none
  | [(_, j)] => some (some j)
  | _ => none

def structure? (names : List String) : Json → Option (List (Option Json))
  | .fields entries => names.mapM (field? entries)
  | .list items =>
    if items.length ≤ names.length then
      some (items.map some ++ List.replicate (names.length - items.length) none)
    else none
  | _ => none

variable {α : Type}

def text? : Json → Option String
  | .text s => some s
  | _ => none

def listOf? (decode : Json → Option α) : Json → Option (List α)
  | .list items => items.mapM decode
  | _ => none

def required? (decode : Json → Option α) : Option Json → Option α
  | some j => decode j
  | none => none

/-- A missing field has the default; `null` is no way to leave it out. -/
def withDefault? (default : α) (decode : Json → Option α) : Option Json → Option α
  | some j => decode j
  | none => some default

def optional? (decode : Json → Option α) : Option Json → Option (Option α)
  | none | some .null => some none
  | some j => (decode j).map some

/-- A constructor without data: its name, or an object whose only key is its name. -/
def tag? (isEmpty : Json → Bool) : Json → Option String
  | .text s => some s
  | .fields [(name, j)] => if isEmpty j then some name else none
  | _ => none

def isNull : Json → Bool
  | .null => true
  | _ => false

end Rulebook.Json
