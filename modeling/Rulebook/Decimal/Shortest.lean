import Rulebook.Decimal.Binary64
/-!
The fewest digits that read back. On ever finer decimal grids the two neighbours of a magnitude are
tried; the first grid on which one of them rounds to the magnitude wins, and of two such neighbours
the nearer one.
-/

set_option autoImplicit false

namespace Rulebook.Shortest

inductive Tie where
  | up
  | even
  deriving DecidableEq, Repr

/-- The neighbour on the grid of step `10 ^ scale` that rounds to `bits`. -/
def onGrid? (tie : Tie) (bits m : Nat) (q scale : Int) : Option Nat :=
  let num := m * Nat.pow 2 q.toNat * Nat.pow 10 (-scale).toNat
  let den := Nat.pow 2 (-q).toNat * Nat.pow 10 scale.toNat
  let low := num / den
  let twice := 2 * (num % den)
  let hits (d : Nat) : Bool := Binary64.decimalBits d scale == bits
  match hits low, hits (low + 1) with
  | true, false => some low
  | false, true => some (low + 1)
  | true, true =>
    if twice < den then some low
    else if den < twice then some (low + 1)
    else match tie with
      | .up => some (low + 1)
      | .even => some (if low % 2 = 0 then low else low + 1)
  | false, false => none

def search (tie : Tie) (bits m : Nat) (q : Int) : Nat → Int → Nat × Int
  | 0, _ => if 0 ≤ q then (m * Nat.pow 2 q.toNat, 0) else (m * Nat.pow 5 (-q).toNat, q)
  | fuel + 1, scale =>
    match onGrid? tie bits m q scale with
    | some d => (d, scale)
    | none => search tie bits m q fuel (scale - 1)

/-- A power of ten above the magnitude `m · 2 ^ q`, from `log10 2 < 0.30103`. -/
def coarsest (m : Nat) (q : Int) : Int := ((m.log2 : Int) + q + 1) * 30103 / 100000 + 1

/-- Seventeen digits always suffice, so twenty steps from a grid too coarse by two are enough; past
them the exact value is taken. -/
def digits (tie : Tie) (bits : Nat) : Nat × Int :=
  if bits = 0 then (0, 0)
  else
    let (m, q) := Binary64.magnitude bits
    search tie bits m q 20 (coarsest m q)

def numeral (tie : Tie) (x : Float) : Numeral :=
  let (digits, scale) := digits tie (Binary64.magnitudeBits x)
  ⟨Binary64.isNegative x, digits, scale⟩

end Rulebook.Shortest
