import Rulebook.Report
/-!
The orders of instants and of scores. What a report takes for the first and the last instant, and
for the least and the greatest score, is so among all that there are.
-/

set_option autoImplicit false

namespace Rulebook

namespace Instant

instance : Std.TransOrd Instant :=
  inferInstanceAs (Std.TransCmp (compareLex (compareOn fun t : Instant => t.date.year)
    (compareLex (compareOn fun t : Instant => t.date.month)
      (compareLex (compareOn fun t : Instant => t.date.day)
        (compareLex (compareOn Instant.second) (compareOn Instant.nanosecond))))))

theorem eq_of_compare {s t : Instant} (h : compare s t = .eq) : s = t := by
  simp only [compare, compareLex, compareOn, Ordering.then_eq_eq, Std.compare_eq_iff_eq] at h
  obtain ⟨⟨year, month, day⟩, second, nanosecond⟩ := s
  obtain ⟨⟨year', month', day'⟩, second', nanosecond'⟩ := t
  obtain ⟨rfl, rfl, rfl, rfl, rfl⟩ := h
  rfl

instance : Std.LawfulEqOrd Instant := ⟨eq_of_compare⟩

instance : LE Instant := leOfOrd

instance : Std.IsLinearOrder Instant := .of_ord

theorem le_iff {s t : Instant} : s ≤ t ↔ t.compare s ≠ .lt := by
  have hswap : s.compare t = (t.compare s).swap :=
    Std.OrientedOrd.eq_swap (a := s) (b := t)
  change (s.compare t).isLE = true ↔ _
  rw [hswap]
  cases compare t s <;> decide

instance : Min Instant := ⟨min⟩

instance : Max Instant := ⟨max⟩

instance : Std.LawfulOrderLeftLeaningMin Instant where
  min_eq_left _ _ h := if_neg (le_iff.1 h)
  min_eq_right _ _ h := if_pos (Decidable.of_not_not (mt le_iff.2 h))

instance : Std.LawfulOrderLeftLeaningMax Instant where
  max_eq_left _ _ h := if_neg (le_iff.1 h)
  max_eq_right _ _ h := if_pos (Decidable.of_not_not (mt le_iff.2 h))

end Instant

namespace Score

instance : LE Score := ⟨fun a b => a.value ≤ b.value⟩

theorem le_iff {a b : Score} : a ≤ b ↔ a.value ≤ b.value := Iff.rfl

instance : Std.IsLinearOrder Score where
  le_refl a := Int.le_refl a.value
  le_trans _ _ _ := Int.le_trans
  le_antisymm _ _ h h' := Score.ext (Int.le_antisymm h h')
  le_total a b := Int.le_total a.value b.value

instance : Min Score := ⟨ScoreStatistics.lesser⟩

instance : Max Score := ⟨ScoreStatistics.greater⟩

instance : Std.LawfulOrderLeftLeaningMin Score where
  min_eq_left _ _ h := if_neg (Int.not_lt.2 h)
  min_eq_right _ _ h := if_pos (Int.not_le.1 h)

instance : Std.LawfulOrderLeftLeaningMax Score where
  max_eq_left _ _ h := if_neg (Int.not_lt.2 h)
  max_eq_right _ _ h := if_pos (Int.not_le.1 h)

end Score

variable {α : Type} [LE α] [Std.IsLinearOrder α]

theorem min?_append [Min α] [Std.LawfulOrderLeftLeaningMin α] (as bs : List α) :
    (as ++ bs).min? = Option.merge min as.min? bs.min? := by
  cases as with
  | nil => simp
  | cons a as =>
    cases bs with
    | nil => simp
    | cons b bs =>
      simp only [List.cons_append, List.min?_cons', List.foldl_append, List.foldl_cons,
        List.foldl_assoc, Option.merge_some_some]

theorem max?_append [Max α] [Std.LawfulOrderLeftLeaningMax α] (as bs : List α) :
    (as ++ bs).max? = Option.merge max as.max? bs.max? := by
  cases as with
  | nil => simp
  | cons a as =>
    cases bs with
    | nil => simp
    | cons b bs =>
      simp only [List.cons_append, List.max?_cons', List.foldl_append, List.foldl_cons,
        List.foldl_assoc, Option.merge_some_some]

instance commutative_max [Max α] [Std.LawfulOrderLeftLeaningMax α] :
    Std.Commutative (max : α → α → α) where
  comm a b := by
    by_cases hba : b ≤ a
    · by_cases hab : a ≤ b
      · rw [Std.le_antisymm hab hba]
      · rw [Std.LawfulOrderLeftLeaningMax.max_eq_left a b hba,
          Std.LawfulOrderLeftLeaningMax.max_eq_right b a hab]
    · have hab : a ≤ b := (Std.le_total (a := a)).resolve_right hba
      rw [Std.LawfulOrderLeftLeaningMax.max_eq_right a b hba,
        Std.LawfulOrderLeftLeaningMax.max_eq_left b a hab]

end Rulebook
