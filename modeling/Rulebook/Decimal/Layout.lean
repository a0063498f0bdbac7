import Rulebook.Decimal.Shortest
/-! How a finite double is laid out as text, and the two layouts in use. -/

set_option autoImplicit false

namespace Rulebook

/-- `positional e` holds if a number `d.ddd · 10 ^ e` is written without an exponent part; with
`point` a whole number is written with a fraction. -/
structure Layout where
  positional : Int → Bool
  point : Bool
  tie : Shortest.Tie

namespace Layout

def plain : Layout := ⟨fun _ => true, false, .up⟩

/-- In documents a number always shows that it is not an integer. -/
def document : Layout := ⟨fun e => decide (-5 ≤ e ∧ e ≤ 15), true, .even⟩

def zeros (n : Nat) : List Char := List.replicate n '0'

def written (layout : Layout) (ds : List Char) (scale : Int) : List Char :=
  let e := scale + ds.length - 1
  if layout.positional e then
    if 0 ≤ scale then
      ds ++ zeros scale.toNat ++ (if layout.point then ['.', '0'] else [])
    else if 0 ≤ e then
      ds.take (e.toNat + 1) ++ '.' :: ds.drop (e.toNat + 1)
    else
      '0' :: '.' :: zeros (-e - 1).toNat ++ ds
  else
    ds.take 1 ++ (if 1 < ds.length then '.' :: ds.drop 1 else []) ++
      'e' :: (if 0 ≤ e then '+' else '-') :: Nat.toDigits 10 e.natAbs

def sign (negative : Bool) : List Char := if negative then ['-'] else []

def numeralChars (layout : Layout) (n : Numeral) : List Char :=
  sign n.negative ++ layout.written n.digitChars n.scale

def chars (layout : Layout) (x : Float) : List Char :=
  layout.numeralChars (Shortest.numeral layout.tie x)

end Layout

def plainNumber (x : Float) : String :=
  if x.isNaN then "NaN"
  else if x.isFinite then String.ofList (Layout.plain.chars x)
  else if Binary64.isNegative x then "-inf"
  else "inf"

end Rulebook
