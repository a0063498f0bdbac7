import Rulebook.Settings.Setting
/-!
Keys of settings: a name, and steps that lead from there into tables and lists. What a key goes
through is made if it is not there.
-/

set_option autoImplicit false

namespace Rulebook

/-- A step into a table, or into a list at a position. Positions below zero count from the end. -/
inductive KeyStep where
  | name (s : String)
  | position (n : Int)
  deriving DecidableEq, Repr

structure Key where
  name : String
  steps : List KeyStep
  deriving DecidableEq, Repr

namespace Key

def isNameChar (c : Char) : Bool := c.isAlphanum || c = '_' || c = '-'

def readName (cs : List Char) : Option (String × List Char) :=
  match cs.takeWhile isNameChar with
  | [] => none
  | name => some (String.ofList name, cs.dropWhile isNameChar)

def isSpace (c : Char) : Bool := c = ' ' || c = '\t'

def readPosition (cs : List Char) : Option (Int × List Char) := do
  let (negative, cs) := match cs.dropWhile isSpace with
    | '-' :: cs => (true, cs)
    | cs => (false, cs)
  let (digits, cs) := Numeral.readDigits cs
  let n : Int := Numeral.digitsValue digits
  let n := if negative then -n else n
  match digits, cs.dropWhile isSpace with
  | _ :: _, ']' :: rest => if Setting.isWord n then some (n, rest) else none
  | _, _ => none

def readSteps : Nat → List Char → Option (List KeyStep)
  | 0, _ => none
  | _, [] => some []
  | fuel + 1, '.' :: cs => do
    let (name, cs) ← readName cs
    pure (.name name :: (← readSteps fuel cs))
  | fuel + 1, '[' :: cs => do
    let (n, cs) ← readPosition cs
    pure (.position n :: (← readSteps fuel cs))
  | _, _ => none

/-- Names between points, positions in brackets. A text that is not made like this is a name by
itself. -/
def ofText (s : String) : Key :=
  let read : Option Key := do
    let (name, cs) ← readName s.toList
    pure ⟨name, ← readSteps (cs.length + 1) cs⟩
  read.getD ⟨s, []⟩

/-- What stands before a position of a list, at it and behind it. The list is made longer where it
does not reach the position, at its end or, for positions below zero, at its start. -/
def split (items : List Setting) (n : Int) : List Setting × Setting × List Setting :=
  let k : Int := if n < 0 then items.length + n else n
  if k < 0 then ([], .null, List.replicate (k.natAbs - 1) .null ++ items)
  else
    let k := k.toNat
    (items.take k ++ List.replicate (k - items.length) .null, (items[k]?).getD .null,
      items.drop (k + 1))

def alter (change : Setting → Setting) : List KeyStep → Setting → Setting
  | [], s => change s
  | .name name :: steps, s =>
    .table (Entries.insert name (alter change steps ((s.entries.lookup name).getD .null)) s.entries)
  | .position n :: steps, s =>
    let (before, item, after) := split s.items n
    .list (before ++ alter change steps item :: after)

def set (base : List (String × Setting)) (key : Key) (s : Setting) : List (String × Setting) :=
  (alter (·.onTop s) (.name key.name :: key.steps) (.table base)).entries

end Key

/-- Lays a layer over others. Only the names at its top are keys. -/
def Setting.addLayer (base layer : List (String × Setting)) : List (String × Setting) :=
  layer.foldl (fun base (key, s) => (Key.ofText key).set base s) base

end Rulebook
