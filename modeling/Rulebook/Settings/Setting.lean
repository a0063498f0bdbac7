import Rulebook.Decimal.Layout
import Rulebook.Table
/-!
Settings before they have a meaning: single values, lists of them and tables of them under names. A
setting is taken as a value of a type where it is used, not where it is written.
-/

set_option autoImplicit false

namespace Rulebook

abbrev Variables := List (String × String)

inductive Setting where
  | null
  | text (s : String)
  | integer (n : Int)
  | real (x : Float)
  | bool (b : Bool)
  | list (items : List Setting)
  | table (entries : List (String × Setting))

namespace Setting

def entries : Setting → List (String × Setting)
  | .table es => es
  | _ => []

def items : Setting → List Setting
  | .list ss => ss
  | _ => []

mutual

/-- A table is laid over a table entry by entry; any other setting takes the place of what was
there. -/
def onTop (below : Setting) : Setting → Setting
  | .table es => .table (layOver below.entries es)
  | s => s

def layOver (base : List (String × Setting)) : List (String × Setting) → List (String × Setting)
  | [] => base
  | (name, s) :: es =>
    layOver (Entries.insert name (onTop ((base.lookup name).getD .null) s) base) es

end

def lower (s : String) : String := s.map Char.toLower

def isWord (n : Int) : Bool := decide (-0x8000000000000000 ≤ n ∧ n < 0x8000000000000000)

def integer? (s : String) : Option Int :=
  let (negative, cs) := Numeral.readSign s.toList
  let n : Int := Numeral.digitsValue cs
  let n := if negative then -n else n
  if !cs.isEmpty && cs.all Char.isDigit && isWord n then some n else none

def natural? (s : String) : Option Nat :=
  let (negative, cs) := Numeral.readSign s.toList
  if !negative && !cs.isEmpty && cs.all Char.isDigit then some (Numeral.digitsValue cs) else none

/-- Text from where there are no types: truth values in any case and numbers are told apart. -/
def ofText (s : String) : Setting :=
  if lower s = "true" then .bool true
  else if lower s = "false" then .bool false
  else match integer? s with
    | some n => .integer n
    | none =>
      match Binary64.ofText? s with
      | some x => .real x
      | none => .text s

def text? : Setting → Option String
  | .text s => some s
  | .integer n => some (toString n)
  | .real x => some (plainNumber x)
  | .bool b => some (if b then "true" else "false")
  | .null | .list _ | .table _ => none

def yes : List String := ["true", "on", "yes"]

def no : List String := ["false", "off", "no"]

def bool? : Setting → Option Bool
  | .bool b => some b
  | .integer n => some (n != 0)
  | .real x => some (x != 0)
  | .text s =>
    if ("1" :: yes).contains (lower s) then some true
    else if ("0" :: no).contains (lower s) then some false
    else none
  | .null | .list _ | .table _ => none

/-- A number of 16 bits. A real is rounded, and below zero it counts as zero; of texts, digits and
a few words count. -/
def portNumber? (s : Setting) : Option UInt16 := do
  let n : Int ← match s with
    | .integer n => some n
    | .real x => some (Int.ofNat (Binary64.roundNat x))
    | .bool b => some (if b then 1 else 0)
    | .text s =>
      if yes.contains (lower s) then some 1
      else if no.contains (lower s) then some 0
      else (natural? s).map Int.ofNat
    | .null | .list _ | .table _ => none
  if 0 ≤ n ∧ n < 0x10000 then some (UInt16.ofNat n.toNat) else none

end Setting

end Rulebook
