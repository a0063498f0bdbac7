import Rulebook.Operator
/-! Conditions written as keys: `amount_gt` compares `amount` by `>`, a key without suffix by `==`. -/

set_option autoImplicit false

namespace Rulebook.SuffixKey

def suffixes : List (String × Operator) :=
  [("_gte", .ge), ("_lte", .le), ("_neq", .ne), ("_gt", .gt), ("_lt", .lt), ("_ge", .ge),
    ("_le", .le), ("_ne", .ne), ("_eq", .eq)]

def strip? (suffix key : List Char) : Option (List Char) :=
  if suffix.isSuffixOf key ∧ suffix.length < key.length then
    some (key.take (key.length - suffix.length))
  else none

def split (key : String) : String × Operator :=
  (suffixes.findSome? fun (suffix, operator) =>
    (strip? suffix.toList key.toList).map fun field => (String.ofList field, operator)).getD
    (key, .eq)

end Rulebook.SuffixKey
