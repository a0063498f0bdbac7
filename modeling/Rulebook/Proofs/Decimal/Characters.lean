import Rulebook.Decimal.Binary64
/-!
What the text of a number is made of. Everything read as a number is digits, letters, signs and
points, so that no blank and no quote belongs to it.
-/

set_option autoImplicit false

namespace Rulebook

def isNumberChar (c : Char) : Bool := c.isAlphanum || c = '+' || c = '-' || c = '.'

namespace Numeral

theorem all_of_readSign {cs : List Char} (h : (readSign cs).2.all isNumberChar = true) :
    cs.all isNumberChar = true := by
  unfold readSign at h
  split at h
  · simpa [isNumberChar] using h
  · simpa [isNumberChar] using h
  · exact h

theorem all_of_readDigits {cs : List Char} (h : (readDigits cs).2.all isNumberChar = true) :
    cs.all isNumberChar = true := by
  have hdigits : (cs.takeWhile Char.isDigit).all isNumberChar = true :=
    List.all_eq_true.2 fun c hc => by
      have hd : c.isDigit = true := List.all_eq_true.1 List.all_takeWhile c hc
      simp [isNumberChar, Char.isAlphanum, hd]
  rw [← List.takeWhile_append_dropWhile (p := Char.isDigit) (l := cs), List.all_append, hdigits]
  exact h

theorem all_of_readExponent {cs rest : List Char} {e : Int}
    (h : readExponent cs = some (e, rest)) (hrest : rest.all isNumberChar = true) :
    cs.all isNumberChar = true := by
  cases cs with
  | nil => rfl
  | cons c cs =>
    simp only [readExponent] at h
    split at h
    · rename_i hc
      have hmark : isNumberChar c = true := by rcases hc with rfl | rfl <;> rfl
      split at h
      · cases h
      · rename_i ds later _ hdigits
        cases h
        have hlater : (readDigits (readSign cs).2).2.all isNumberChar = true := by
          rw [hdigits]
          exact hrest
        rw [List.all_cons, hmark, all_of_readSign (all_of_readDigits hlater)]
        rfl
    · cases h
      exact hrest

theorem all_of_end {negative : Bool} {whole fraction cs : List Char} {n : Numeral}
    (h : (if whole.isEmpty && fraction.isEmpty then none
      else match readExponent cs with
        | some (exponent, []) => some (ofParts negative whole fraction exponent)
        | _ => none) = some n) : cs.all isNumberChar = true := by
  split at h
  · cases h
  · split at h
    · rename_i hexponent
      exact all_of_readExponent hexponent rfl
    · cases h

theorem all_of_ofChars? {cs : List Char} {n : Numeral} (h : ofChars? cs = some n) :
    cs.all isNumberChar = true := by
  apply all_of_readSign
  apply all_of_readDigits
  simp only [ofChars?] at h
  generalize (readDigits (readSign cs).2).2 = later at h ⊢
  split at h
  · have hfraction := all_of_readDigits (all_of_end h)
    rw [List.all_cons, hfraction]
    rfl
  · exact all_of_end h

theorem readSign_of_isAlpha {c : Char} (h : c.isAlpha = true) (cs : List Char) :
    readSign (c :: cs) = (false, c :: cs) := by
  unfold readSign
  split <;> simp_all

theorem ofChars?_of_isAlpha {c : Char} (h : c.isAlpha = true) (cs : List Char) :
    ofChars? (c :: cs) = none := by
  have hdigit : c.isDigit = false := by
    cases hd : c.isDigit with
    | false => rfl
    | true =>
      unfold Char.isDigit at hd
      unfold Char.isAlpha Char.isUpper Char.isLower at h
      simp only [Bool.or_eq_true, Bool.and_eq_true, decide_eq_true_eq,
        UInt32.le_iff_toNat_le] at h hd
      simp at h hd
      omega
  have hpoint : c ≠ '.' := by
    rintro rfl
    cases h
  have hdigits : readDigits (c :: cs) = ([], c :: cs) := by simp [readDigits, hdigit]
  simp only [ofChars?, readSign_of_isAlpha h, hdigits]
  split
  · simp_all
  · rfl

end Numeral

namespace Binary64

theorem isAlpha_of_toLower {c : Char} (h : c.toLower.isAlpha = true) : c.isAlpha = true := by
  unfold Char.toLower at h
  split at h
  · rename_i hc
    unfold Char.isAlpha Char.isUpper
    simpa using .inl hc
  · exact h

theorem all_of_specialWord? {negative : Bool} {cs : List Char} {x : Float}
    (h : specialWord? negative cs = some x) : cs.all isNumberChar = true := by
  have hword : (cs.map Char.toLower).all Char.isAlpha = true := by
    simp only [specialWord?] at h
    split at h
    · rename_i hw
      rcases hw with hw | hw <;> rw [hw] <;> rfl
    · split at h
      · rename_i hw
        rw [hw]
        rfl
      · cases h
  rw [List.all_map] at hword
  refine List.all_eq_true.2 fun c hc => ?_
  have ha := isAlpha_of_toLower (List.all_eq_true.1 hword c hc)
  simp [isNumberChar, Char.isAlphanum, ha]

theorem all_of_ofText? {s : String} {x : Float} (h : ofText? s = some x) :
    s.toList.all isNumberChar = true := by
  simp only [ofText?] at h
  split at h
  · rename_i hword
    exact Numeral.all_of_readSign (all_of_specialWord? hword)
  · obtain ⟨n, hn, -⟩ := Option.map_eq_some_iff.1 h
    exact Numeral.all_of_ofChars? hn

end Binary64

end Rulebook
