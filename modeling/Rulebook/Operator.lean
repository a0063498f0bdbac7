import Rulebook.Text.Blank
/-! The six comparison operators. -/

set_option autoImplicit false

namespace Rulebook

inductive Operator where
  | eq
  | ne
  | gt
  | lt
  | ge
  | le
  deriving DecidableEq, Repr

namespace Operator

def all : List Operator := [.eq, .ne, .gt, .lt, .ge, .le]

def symbol : Operator → String
  | .eq => "=="
  | .ne => "!="
  | .gt => ">"
  | .lt => "<"
  | .ge => ">="
  | .le => "<="

def spellings : Operator → List String
  | .eq => ["==", "eq"]
  | .ne => ["!=", "ne", "neq"]
  | .gt => [">", "gt"]
  | .lt => ["<", "lt"]
  | .ge => [">=", "ge", "gte"]
  | .le => ["<=", "le", "lte"]

def ofText? (s : String) : Option Operator :=
  let word := Text.trim s
  all.find? fun op => op.spellings.contains word

def isOrdering : Operator → Bool
  | .eq | .ne => false
  | _ => true

def holds : Operator → Ordering → Bool
  | .eq, o => o == .eq
  | .ne, o => o != .eq
  | .gt, o => o == .gt
  | .lt, o => o == .lt
  | .ge, o => o != .lt
  | .le, o => o != .gt

theorem ofText?_symbol (op : Operator) : ofText? op.symbol = some op := by
  cases op <;> decide +kernel

end Operator

end Rulebook
