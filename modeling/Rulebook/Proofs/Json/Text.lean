import Rulebook.Json.Printer
import Rulebook.Json.Reader
/-! Quoted text is read back, whatever characters are in it, and never holds a line end. -/

set_option autoImplicit false

namespace Rulebook.Json

theorem hexDigit?_digitChar : ∀ n < 16, hexDigit? (Nat.digitChar n) = some n := by decide

theorem hexUnit?_control {n : Nat} (h : n < 0x20) :
    hexUnit? '0' '0' (Nat.digitChar (n / 16)) (Nat.digitChar (n % 16)) = some n := by
  have hhigh := hexDigit?_digitChar (n / 16) (by omega)
  have hlow := hexDigit?_digitChar (n % 16) (by omega)
  have hzero : hexDigit? '0' = some 0 := rfl
  simp only [hexUnit?, hhigh, hlow, hzero, Option.bind_eq_bind, Option.bind_some, Option.pure_def]
  congr 1
  omega

theorem readUnits_plain {c : Char} (cs : List Char) (hq : c ≠ '"') (hb : c ≠ '\\')
    (hc : ¬ c.toNat < 0x20) :
    readUnits (c :: cs) = (readUnits cs).map fun (us, rest) => (.whole c :: us, rest) := by
  rw [readUnits]
  · exact if_neg hc
  · exact hq
  · exact fun _ _ _ _ _ he _ => hb he
  · exact fun _ _ he _ => hb he

theorem readUnits_escapeChar (c : Char) (cs : List Char) :
    readUnits (escapeChar c ++ cs) =
      (readUnits cs).map fun (us, rest) => (.whole c :: us, rest) := by
  unfold escapeChar
  split
  · subst_vars; rfl
  split
  · subst_vars; rfl
  split
  · subst_vars; rfl
  split
  · subst_vars; rfl
  split
  · subst_vars; rfl
  split
  · subst_vars; rfl
  split
  · subst_vars; rfl
  split
  · rename_i h
    have hunit : TextUnit.ofUnit c.toNat = .whole c := by
      have hh : isHighHalf c.toNat = false := by simp [isHighHalf]; omega
      have hl : isLowHalf c.toNat = false := by simp [isLowHalf]; omega
      simp [TextUnit.ofUnit, hh, hl]
    simp only [hexDigits2, List.cons_append, List.nil_append]
    rw [readUnits]
    simp only [hexUnit?_control h, hunit]
  · rename_i hq hb _ _ _ _ _ hc
    exact readUnits_plain cs hq hb hc

theorem readUnits_escaped (cs tail : List Char) :
    readUnits (cs.flatMap escapeChar ++ '"' :: tail) = some (cs.map .whole, tail) := by
  induction cs with
  | nil => rfl
  | cons c cs ih =>
    rw [List.flatMap_cons, List.append_assoc, readUnits_escapeChar, ih]
    rfl

theorem joinUnits?_whole (cs : List Char) : joinUnits? (cs.map .whole) = some cs := by
  induction cs with
  | nil => rfl
  | cons c cs ih => simp [joinUnits?, ih]

theorem readText_textChars (s : String) (tail : List Char) :
    ∃ cs, textChars s ++ tail = '"' :: cs ∧ readText cs = some (some s, tail) := by
  refine ⟨s.toList.flatMap escapeChar ++ '"' :: tail, by simp [textChars], ?_⟩
  simp [readText, readUnits_escaped, joinUnits?_whole]

end Rulebook.Json
