import Rulebook.Settings.Setting
/-!
The tables of a TOML text while they are being written. No name is given twice, and where a table
comes from says what may still be added to it.
-/

set_option autoImplicit false

namespace Rulebook.Toml

/-- `above`: stands above a table with a header. `header`: has a header of its own. `dotted`: made
by a key with points. -/
inductive Origin where
  | above
  | header
  | dotted
  deriving DecidableEq, Repr

/-- Of tables in a list, each with a header of its own, only the last can grow. -/
inductive Item where
  | value (s : Setting)
  | table (origin : Origin) (entries : List (String × Item))
  | tables (finished : List Setting) (entries : List (String × Item))

abbrev Items := List (String × Item)

mutual

def Item.setting : Item → Setting
  | .value s => s
  | .table _ es => .table (settings es)
  | .tables finished es => .list (finished ++ [.table (settings es)])

def settings : List (String × Item) → List (String × Setting)
  | [] => []
  | (name, item) :: es => (name, item.setting) :: settings es

end

def Items.put (name : String) (item : Item) (es : Items) : Items :=
  match es with
  | [] => [(name, item)]
  | (n, i) :: es => if n = name then (name, item) :: es else (n, i) :: Items.put name item es

/-- Gives a key its value. Points in a key lead into tables that have no header. -/
def assign (s : Setting) : List String → Items → Option Items
  | [], _ => none
  | [name], es => if (es.lookup name).isSome then none else some (es.put name (.value s))
  | name :: names, es =>
    match es.lookup name with
    | none => (assign s names []).map fun sub => es.put name (.table .dotted sub)
    | some (.table origin sub) =>
      if origin = .header then none
      else (assign s names sub).map fun sub => es.put name (.table origin sub)
    | some _ => none

def inside (change : Items → Option Items) (name : String) (es : Items) : Option Items :=
  match es.lookup name with
  | none => (change []).map fun sub => es.put name (.table .above sub)
  | some (.table origin sub) => (change sub).map fun sub => es.put name (.table origin sub)
  | some (.tables finished sub) => (change sub).map fun sub => es.put name (.tables finished sub)
  | some (.value _) => none

def within (change : Items → Option Items) : List String → Items → Option Items
  | [] => change
  | name :: names => inside (within change names) name

def declare (name : String) (es : Items) : Option Items :=
  match es.lookup name with
  | none => some (es.put name (.table .header []))
  | some (.table .above sub) => some (es.put name (.table .header sub))
  | some _ => none

def declareNext (name : String) (es : Items) : Option Items :=
  match es.lookup name with
  | none => some (es.put name (.tables [] []))
  | some (.tables finished sub) =>
    some (es.put name (.tables (finished ++ [.table (settings sub)]) []))
  | some _ => none

def openTable (open? : String → Items → Option Items) (names : List String) (es : Items) :
    Option Items :=
  match names.getLast? with
  | some name => within (open? name) names.dropLast es
  | none => none

/-- A table written between braces. Nothing can be added to it later. -/
def inlineTable? (fields : List (List String × Setting)) : Option Setting :=
  (fields.foldlM (fun es (names, s) => assign s names es) ([] : Items)).map fun es =>
    .table (settings es)

end Rulebook.Toml
