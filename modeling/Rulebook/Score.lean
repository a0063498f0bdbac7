import Rulebook.Json.Basic
/-! Scores: integers of 64 bits. A sum that leaves the range stops at its end. -/

set_option autoImplicit false

namespace Rulebook

structure Score where
  value : Int
  least_le : -0x8000000000000000 ≤ value
  lt_limit : value < 0x8000000000000000
  deriving DecidableEq, Repr

namespace Score

@[ext] theorem ext {a b : Score} (h : a.value = b.value) : a = b := by
  cases a; cases b; cases h; rfl

def ofInt? (n : Int) : Option Score :=
  if h : -0x8000000000000000 ≤ n ∧ n < 0x8000000000000000 then some ⟨n, h.1, h.2⟩ else none

def clamp (n : Int) : Score :=
  ⟨max (-0x8000000000000000) (min n 0x7FFFFFFFFFFFFFFF), by omega, by omega⟩

def zero : Score := ⟨0, by decide, by decide⟩

instance : Inhabited Score := ⟨zero⟩

def add (a b : Score) : Score := clamp (a.value + b.value)

def sum (scores : List Score) : Score := scores.foldl add zero

def compare (a b : Score) : Ordering := Ord.compare a.value b.value

def toJson (s : Score) : Json := .number (.integer s.value)

def ofJson? : Json → Option Score
  | .number (.integer n) => ofInt? n
  | _ => none

def toFloat (s : Score) : Float := Binary64.ofInt s.value

theorem clamp_of_inRange (s : Score) : clamp s.value = s := by
  have := s.least_le
  have := s.lt_limit
  ext
  simp only [clamp]
  omega

end Score

end Rulebook
