import Rulebook.Decimal.Numeral
/-!
Doubles as exact dyadic numbers. `nearestBits` rounds a ratio of naturals to the nearest double,
ties to the even significand, and every conversion to a double goes through it.
-/

set_option autoImplicit false

namespace Rulebook.Binary64

def signBit : Nat := 0x8000000000000000

def hiddenBit : Nat := 0x10000000000000

/-- The bits of positive infinity; smaller bits are the finite magnitudes in order. -/
def infinityBits : Nat := 0x7FF0000000000000

def roundDiv (num den : Nat) : Nat :=
  let floor := num / den
  let twice := 2 * (num % den)
  if den < twice ∨ (twice = den ∧ floor % 2 = 1) then floor + 1 else floor

def unscale (num den : Nat) (q : Int) : Nat × Nat :=
  if 0 ≤ q then (num, den * Nat.pow 2 q.toNat) else (num * Nat.pow 2 (-q).toNat, den)

def floorLog2 (num den : Nat) : Int :=
  let k : Int := (num.log2 : Int) - den.log2
  let (n, d) := unscale num den k
  if d ≤ n then k else k - 1

/-- A significand of 53 bits, or what is left of it below the least normal exponent. Carry out of
the significand moves on to the next exponent by itself. -/
def nearestBits (num den : Nat) : Nat :=
  if num = 0 then 0
  else
    let q := max (floorLog2 num den - 52) (-1074)
    let (n, d) := unscale num den q
    min ((q + 1074).toNat * hiddenBit + roundDiv n d) infinityBits

def magnitude (bits : Nat) : Nat × Int :=
  let e : Nat := bits / hiddenBit
  let f : Nat := bits % hiddenBit
  if e = 0 then (f, -1074) else (hiddenBit + f, (e : Int) - 1075)

def ofMagnitude (negative : Bool) (bits : Nat) : Float :=
  Float.ofBits (UInt64.ofNat (if negative then signBit + bits else bits))

def isNegative (x : Float) : Bool := signBit ≤ x.toBits.toNat

def magnitudeBits (x : Float) : Nat := x.toBits.toNat % signBit

/-- The nearest natural number, a half goes up. What is below zero or no number counts as zero. -/
def roundNat (x : Float) : Nat :=
  if x.isNaN || isNegative x then 0
  else
    let (m, q) := magnitude (magnitudeBits x)
    let den := Nat.pow 2 (-q).toNat
    (2 * (m * Nat.pow 2 q.toNat) + den) / (2 * den)

def ratio (digits : Nat) (scale : Int) : Nat × Nat :=
  if 0 ≤ scale then (digits * Nat.pow 10 scale.toNat, 1) else (digits, Nat.pow 10 (-scale).toNat)

/-- Scales far outside the range of doubles are settled by the number of digits. -/
def decimalBits (digits : Nat) (scale : Int) : Nat :=
  let top := scale + (Nat.toDigits 10 digits).length
  if digits = 0 ∨ top < -330 then 0
  else if 310 < top then infinityBits
  else
    let (num, den) := ratio digits scale
    nearestBits num den

end Rulebook.Binary64

namespace Rulebook

def Numeral.toFloat (n : Numeral) : Float :=
  let n := n.normal
  Binary64.ofMagnitude n.negative (Binary64.decimalBits n.digits n.scale)

end Rulebook

namespace Rulebook.Binary64

def ofInt (n : Int) : Float := (Numeral.mk (decide (n < 0)) n.natAbs 0).toFloat

def specialWord? (negative : Bool) (cs : List Char) : Option Float :=
  let word := cs.map Char.toLower
  if word = "inf".toList ∨ word = "infinity".toList then some (ofMagnitude negative infinityBits)
  else if word = "nan".toList then some (ofMagnitude negative (infinityBits + hiddenBit / 2))
  else none

def ofText? (s : String) : Option Float :=
  let (negative, cs) := Numeral.readSign s.toList
  match specialWord? negative cs with
  | some x => some x
  | none => (Numeral.ofChars? s.toList).map Numeral.toFloat

def finiteOfText? (s : String) : Option Float := (ofText? s).filter Float.isFinite

end Rulebook.Binary64
