import Rulebook.Value
import Rulebook.Json.Reader
/-!
Records: named fields with their values. A record is taken from a document by flattening: the
name of a scalar is the path to it, with dots between object keys and list positions.
-/

set_option autoImplicit false

namespace Rulebook

structure Record where
  table : Table Value
  deriving BEq

namespace Record

def empty : Record := ⟨.empty⟩

instance : Inhabited Record := ⟨empty⟩

def insert (r : Record) (field : String) (v : Value) : Record := ⟨r.table.insert field v⟩

def remove (r : Record) (field : String) : Record := ⟨r.table.erase field⟩

def stored? (r : Record) (field : String) : Option Value := r.table.get? field

/-- An absent value counts as missing. -/
def get? (r : Record) (field : String) : Option Value :=
  (r.stored? field).filter fun v => !v.isAbsent

def size (r : Record) : Nat := r.table.size

def isEmpty (r : Record) : Bool := r.table.isEmpty

def entries (r : Record) : List (String × Value) := r.table.entries

def ofList (es : List (String × Value)) : Record := ⟨.ofList es⟩

def under (path key : String) : String := path ++ "." ++ key

mutual

/-- The scalars of a document with their paths, in the order of the document. -/
def leaves (path : String) : Json → List (String × Value)
  | .fields es => leavesOfFields path es
  | .list js => leavesOfItems path 0 js
  | .null => [(path, .absent)]
  | .bool b => [(path, .boolean b)]
  | .number n => [(path, .number n.toFloat)]
  | .text s => [(path, .text s)]
  | .unusable => []

def leavesOfFields (path : String) : List (String × Json) → List (String × Value)
  | [] => []
  | (key, j) :: es => leaves (under path key) j ++ leavesOfFields path es

def leavesOfItems (path : String) (position : Nat) : List Json → List (String × Value)
  | [] => []
  | j :: js => leaves (under path (Nat.repr position)) j ++ leavesOfItems path (position + 1) js

end

/-- The leaves of a whole document. What is no object is filed under `value`. -/
def documentLeaves : Json → List (String × Value)
  | .fields es => es.flatMap fun (key, j) => leaves key j
  | j => leaves "value" j

/-- Of two leaves with the same path the later one counts. -/
def ofJson (j : Json) : Record := ofList (documentLeaves j)

def ofObject? : Json → Option Record
  | .fields es => (Json.fields es).value?.map ofJson
  | _ => none

def read? (s : String) : Option Record := (Json.readValue? s).map ofJson

def toJson (r : Record) : Json := .fields (r.entries.map fun (k, v) => (k, v.toJson))

end Record

end Rulebook
