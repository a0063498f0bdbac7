import Rulebook.Proofs.Json.Document
/-! A document in tight spacing stands on one line: no character of it ends a line. -/

set_option autoImplicit false

namespace Rulebook.Json

theorem lineEnd_not_mem_digits {ds : List Char} (h : ∀ c ∈ ds, c.isDigit = true) : '\n' ∉ ds :=
  fun hc => absurd (h _ hc) (by decide)

theorem lineEnd_not_mem_toDigits (n : Nat) : '\n' ∉ Nat.toDigits 10 n :=
  lineEnd_not_mem_digits fun _ => Numeral.isDigit_of_mem_toDigits

theorem lineEnd_not_mem_zeros (n : Nat) : '\n' ∉ Layout.zeros n :=
  lineEnd_not_mem_digits fun _ => Numeral.isDigit_of_mem_zeros

theorem lineEnd_not_mem_sign (negative : Bool) : '\n' ∉ Layout.sign negative := by
  cases negative <;> simp [Layout.sign]

theorem lineEnd_not_mem_written (layout : Layout) {ds : List Char} (h : '\n' ∉ ds)
    (scale : Int) : '\n' ∉ layout.written ds scale := by
  have htake : ∀ k, '\n' ∉ ds.take k := fun k hc => h (List.mem_of_mem_take hc)
  have hdrop : ∀ k, '\n' ∉ ds.drop k := fun k hc => h (List.mem_of_mem_drop hc)
  have htail : '\n' ∉ ds.tail := fun hc => h (List.mem_of_mem_tail hc)
  have hz := lineEnd_not_mem_zeros
  have hd := lineEnd_not_mem_toDigits
  simp only [Layout.written]
  split
  · split
    · split <;> simp [h, hz]
    · split <;> simp [h, hz, htake, hdrop]
  · split <;> split <;> simp [hd, htake, htail]

theorem lineEnd_not_mem_numberChars (n : Number) : '\n' ∉ numberChars n := by
  cases n with
  | integer n => simp [numberChars, intChars, lineEnd_not_mem_sign, lineEnd_not_mem_toDigits]
  | real x =>
    have hw := lineEnd_not_mem_written .document (lineEnd_not_mem_toDigits
      (Shortest.numeral Layout.document.tie x).digits)
      (Shortest.numeral Layout.document.tie x).scale
    simp only [numberChars, realChars]
    split
    · simp [Layout.chars, Layout.numeralChars, lineEnd_not_mem_sign, Numeral.digitChars, hw]
    · decide

theorem lineEnd_not_mem_escapeChar (c : Char) : '\n' ∉ escapeChar c := by
  unfold escapeChar
  simp only [hexDigits2]
  grind

theorem lineEnd_not_mem_textChars (s : String) : '\n' ∉ textChars s := by
  simp [textChars, lineEnd_not_mem_escapeChar]

theorem Spacing.tight_line (level : Nat) : tight.line level = [] := rfl

theorem Spacing.tight_colon : tight.colon = [] := rfl

mutual

theorem lineEnd_not_mem_chars (level : Nat) : ∀ j : Json, '\n' ∉ chars .tight level j
  | .null | .unusable => by simp [chars]
  | .bool b => by cases b <;> simp [chars, boolChars]
  | .number n => lineEnd_not_mem_numberChars n
  | .text s => lineEnd_not_mem_textChars s
  | .list [] | .fields [] => by simp [chars]
  | .list (j :: js) => by
    have hj := lineEnd_not_mem_chars (level + 1) j
    have hjs := lineEnd_not_mem_itemChars level js
    simp [chars, Spacing.tight_line, hj, hjs]
  | .fields ((key, j) :: es) => by
    have hj := lineEnd_not_mem_chars (level + 1) j
    have hes := lineEnd_not_mem_fieldChars level es
    simp [chars, Spacing.tight_line, Spacing.tight_colon, lineEnd_not_mem_textChars, hj, hes]

theorem lineEnd_not_mem_itemChars (level : Nat) : ∀ js : List Json, '\n' ∉ itemChars .tight level js
  | [] => by simp [itemChars, Spacing.tight_line]
  | j :: js => by
    have hj := lineEnd_not_mem_chars (level + 1) j
    have hjs := lineEnd_not_mem_itemChars level js
    simp [itemChars, Spacing.tight_line, hj, hjs]

theorem lineEnd_not_mem_fieldChars (level : Nat) :
    ∀ es : List (String × Json), '\n' ∉ fieldChars .tight level es
  | [] => by simp [fieldChars, Spacing.tight_line]
  | (key, j) :: es => by
    have hj := lineEnd_not_mem_chars (level + 1) j
    have hes := lineEnd_not_mem_fieldChars level es
    simp [fieldChars, Spacing.tight_line, Spacing.tight_colon, lineEnd_not_mem_textChars, hj, hes]

end

theorem lineEnd_not_mem_compact (j : Json) : '\n' ∉ j.compact.toList := by
  rw [compact, String.toList_ofList]
  exact lineEnd_not_mem_chars 0 j

end Rulebook.Json
