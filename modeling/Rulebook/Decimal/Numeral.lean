/-!
Decimal numerals: `digits · 10 ^ scale` with a sign. The text of a numeral is read in pieces
(sign, digits, exponent), each of which returns the rest of the text.
-/

set_option autoImplicit false

namespace Rulebook

structure Numeral where
  negative : Bool
  digits : Nat
  scale : Int
  deriving DecidableEq, Repr

namespace Numeral

def digitsValue (ds : List Char) : Nat :=
  ds.foldl (fun n c => 10 * n + (c.toNat - '0'.toNat)) 0

def ofParts (negative : Bool) (whole fraction : List Char) (exponent : Int) : Numeral :=
  ⟨negative, digitsValue (whole ++ fraction), exponent - fraction.length⟩

def readDigits (cs : List Char) : List Char × List Char :=
  (cs.takeWhile Char.isDigit, cs.dropWhile Char.isDigit)

def readSign : List Char → Bool × List Char
  | '-' :: cs => (true, cs)
  | '+' :: cs => (false, cs)
  | cs => (false, cs)

/-- An optional exponent part. An `e` without digits is an error. -/
def readExponent : List Char → Option (Int × List Char)
  | [] => some (0, [])
  | c :: cs =>
    if c = 'e' ∨ c = 'E' then
      let (negative, cs) := readSign cs
      match readDigits cs with
      | ([], _) => none
      | (ds, rest) =>
        let n : Int := digitsValue ds
        some (if negative then -n else n, rest)
    else some (0, c :: cs)

/-- Digits with an optional point, at least one digit on either side of it, and an optional
exponent. Nothing may follow. -/
def ofChars? (cs : List Char) : Option Numeral :=
  let (negative, cs) := readSign cs
  let (whole, cs) := readDigits cs
  let (fraction, cs) := match cs with
    | '.' :: cs => readDigits cs
    | cs => ([], cs)
  if whole.isEmpty && fraction.isEmpty then none
  else match readExponent cs with
    | some (exponent, []) => some (ofParts negative whole fraction exponent)
    | _ => none

def dropZeros : Nat → Nat → Int → Nat × Int
  | fuel + 1, digits, scale =>
    if digits % 10 = 0 then dropZeros fuel (digits / 10) (scale + 1) else (digits, scale)
  | 0, digits, scale => (digits, scale)

def normal (n : Numeral) : Numeral :=
  if n.digits = 0 then ⟨n.negative, 0, 0⟩
  else
    let (digits, scale) := dropZeros n.digits n.digits n.scale
    ⟨n.negative, digits, scale⟩

def digitChars (n : Numeral) : List Char := Nat.toDigits 10 n.digits

end Numeral

end Rulebook
