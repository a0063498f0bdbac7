import Rulebook.Score
import Rulebook.Value
import Rulebook.Proofs.Json.Document
/-!
Values and scores read back. A number that is not finite has no text of its own: it is written as if
there were no value.
-/

set_option autoImplicit false

namespace Rulebook

namespace Value

def isFinite : Value → Bool
  | .number x => x.isFinite
  | _ => true

theorem toJson_fits (v : Value) (room : Nat) : Json.Fits room v.toJson := by
  cases v with
  | number x =>
    by_cases h : x.isFinite = true
    · simpa [toJson, h] using .real h
    · simpa [toJson, h] using .null
  | text s => exact .text s
  | boolean b => exact .bool b
  | absent => exact .null

theorem value?_toJson (v : Value) : v.toJson.value? = some v.toJson := by
  cases v with
  | number x => by_cases h : x.isFinite = true <;> simp [toJson, h, Json.value?]
  | text s => rfl
  | boolean b => rfl
  | absent => rfl

/-- A value as it is written: a number that is not finite is left without a value. -/
def written (v : Value) : Value := if v.isFinite then v else .absent

theorem ofJson?_toJson (v : Value) : ofJson? v.toJson = some v.written := by
  cases v with
  | number x =>
    by_cases h : x.isFinite = true <;>
      simp [toJson, written, isFinite, h, ofJson?, Json.Number.toFloat]
  | text s => rfl
  | boolean b => rfl
  | absent => rfl

end Value

namespace Score

theorem toJson_fits (s : Score) (room : Nat) : Json.Fits room s.toJson := by
  have := s.lt_limit
  exact .integer s.least_le (by omega)

theorem ofJson?_toJson (s : Score) : ofJson? s.toJson = some s := by
  have h : -0x8000000000000000 ≤ s.value ∧ s.value < 0x8000000000000000 := ⟨s.least_le, s.lt_limit⟩
  simp [toJson, ofJson?, ofInt?, h]

end Score

end Rulebook
