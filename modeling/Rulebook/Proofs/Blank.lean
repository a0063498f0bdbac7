import Rulebook.Text.Blank
/-!
Blanks around a text. Trimming is told from its result: what is left has no blank at either end, and
nothing but blanks stood around it.
-/

set_option autoImplicit false

namespace Rulebook.Text

def Blanks (cs : List Char) : Prop := ∀ c ∈ cs, isBlank c = true

instance (cs : List Char) : Decidable (Blanks cs) :=
  List.decidableBAll _ cs

structure Trimmed (cs : List Char) : Prop where
  front : cs.head?.any isBlank = false
  back : cs.getLast?.any isBlank = false

theorem head?_trimStart (cs : List Char) : (trimStart cs).head?.any isBlank = false := by
  induction cs with
  | nil => rfl
  | cons c cs ih =>
    unfold trimStart at ih ⊢
    cases h : isBlank c with
    | true => simpa [h] using ih
    | false => simp [h]

theorem trimStart_eq_self {cs : List Char} (h : cs.head?.any isBlank = false) :
    trimStart cs = cs := by
  cases cs with
  | nil => rfl
  | cons c cs =>
    have hc : isBlank c = false := h
    simp [trimStart, hc]

theorem trimStart_cons {c : Char} {cs : List Char} (h : isBlank c = false) :
    trimStart (c :: cs) = c :: cs := trimStart_eq_self h

theorem trimStart_append {lead : List Char} (h : Blanks lead) (cs : List Char) :
    trimStart (lead ++ cs) = trimStart cs :=
  List.dropWhile_append_of_pos h

theorem trimStart_blanks {cs : List Char} (h : Blanks cs) : trimStart cs = [] := by
  rw [← List.append_nil cs, trimStart_append h]
  rfl

theorem exists_lead (cs : List Char) : ∃ lead, Blanks lead ∧ cs = lead ++ trimStart cs :=
  ⟨cs.takeWhile isBlank, List.all_eq_true.1 List.all_takeWhile,
    List.takeWhile_append_dropWhile.symm⟩

theorem trimEnd_eq_reverse (cs : List Char) : trimEnd cs = (trimStart cs.reverse).reverse := rfl

theorem getLast?_trimEnd (cs : List Char) : (trimEnd cs).getLast?.any isBlank = false := by
  rw [trimEnd_eq_reverse, List.getLast?_reverse]
  exact head?_trimStart _

theorem trimEnd_eq_self {cs : List Char} (h : cs.getLast?.any isBlank = false) :
    trimEnd cs = cs := by
  rw [trimEnd_eq_reverse, trimStart_eq_self (by rwa [List.head?_reverse]), List.reverse_reverse]

theorem trimEnd_append {trail : List Char} (h : Blanks trail) (cs : List Char) :
    trimEnd (cs ++ trail) = trimEnd cs := by
  have hr : Blanks trail.reverse := fun c hc => h c (List.mem_reverse.1 hc)
  rw [trimEnd_eq_reverse, List.reverse_append, trimStart_append hr, trimEnd_eq_reverse]

theorem exists_trail (cs : List Char) : ∃ trail, Blanks trail ∧ cs = trimEnd cs ++ trail := by
  obtain ⟨lead, hlead, hcs⟩ := exists_lead cs.reverse
  refine ⟨lead.reverse, fun c hc => hlead c (List.mem_reverse.1 hc), ?_⟩
  rw [trimEnd_eq_reverse, ← List.reverse_append, ← hcs, List.reverse_reverse]

theorem head?_trimEnd {cs : List Char} (h : cs.head?.any isBlank = false) :
    (trimEnd cs).head?.any isBlank = false := by
  obtain ⟨trail, -, hcs⟩ := exists_trail cs
  cases hu : trimEnd cs with
  | nil => rfl
  | cons c u =>
    rw [hcs, hu] at h
    exact h

theorem trimmed_trim (cs : List Char) : Trimmed (trimEnd (trimStart cs)) :=
  ⟨head?_trimEnd (head?_trimStart cs), getLast?_trimEnd _⟩

theorem Trimmed.trim_eq_self {cs : List Char} (h : Trimmed cs) : trimEnd (trimStart cs) = cs := by
  rw [trimStart_eq_self h.front, trimEnd_eq_self h.back]

theorem trim_trim (s : String) : trim (trim s) = trim s := by
  rw [trim, trim, String.toList_ofList, (trimmed_trim s.toList).trim_eq_self]

theorem trimmed_of_not_blank {cs : List Char} (h : ∀ c ∈ cs, isBlank c = false) : Trimmed cs := by
  constructor <;> refine Option.any_eq_false _ _ |>.2 fun c hc => ?_
  · exact h c (List.mem_of_mem_head? hc)
  · exact h c (List.mem_of_mem_getLast? hc)

theorem not_blank_of_printed {c : Char} (h : 0x20 < c.toNat ∧ c.toNat < 0x85) :
    isBlank c = false := by
  simp [isBlank]
  omega

theorem printed_of_isAlphanum {c : Char} (h : c.isAlphanum = true) :
    0x20 < c.toNat ∧ c.toNat < 0x85 := by
  unfold Char.isAlphanum Char.isAlpha Char.isUpper Char.isLower Char.isDigit at h
  simp only [Bool.or_eq_true, Bool.and_eq_true, decide_eq_true_eq, UInt32.le_iff_toNat_le] at h
  have hc : c.toNat = c.val.toNat := rfl
  simp at h
  omega

/-- Trimming gives `text` if that is trimmed and stands between blanks. -/
theorem trim_eq_iff {cs text : List Char} :
    trimEnd (trimStart cs) = text ↔
      Trimmed text ∧ ∃ lead trail, Blanks lead ∧ Blanks trail ∧ cs = lead ++ text ++ trail := by
  constructor
  · rintro rfl
    obtain ⟨lead, hlead, hcs⟩ := exists_lead cs
    obtain ⟨trail, htrail, hrest⟩ := exists_trail (trimStart cs)
    exact ⟨trimmed_trim cs, lead, trail, hlead, htrail,
      by rw [List.append_assoc, ← hrest, ← hcs]⟩
  · rintro ⟨htrimmed, lead, trail, hlead, htrail, rfl⟩
    rw [List.append_assoc, trimStart_append hlead]
    cases text with
    | nil =>
      rw [List.nil_append, trimStart_blanks htrail]
      rfl
    | cons c cs =>
      have hfront : trimStart (c :: cs ++ trail) = c :: cs ++ trail :=
        trimStart_eq_self htrimmed.front
      rw [hfront, trimEnd_append htrail, trimEnd_eq_self htrimmed.back]

end Rulebook.Text
