/-! Lists split at one of their members. -/

set_option autoImplicit false

namespace Rulebook

variable {α : Type}

theorem exists_split_cons {a : α} {as : List α} {P : List α → α → Prop} :
    (∃ before x after, a :: as = before ++ x :: after ∧ P before x) ↔
      P [] a ∨ ∃ before x after, as = before ++ x :: after ∧ P (a :: before) x := by
  constructor
  · rintro ⟨before, x, after, hsplit, hx⟩
    cases before with
    | nil =>
      cases hsplit
      exact .inl hx
    | cons b before =>
      cases hsplit
      exact .inr ⟨before, x, after, rfl, hx⟩
  · rintro (ha | ⟨before, x, after, rfl, hx⟩)
    · exact ⟨[], a, as, rfl, ha⟩
    · exact ⟨a :: before, x, after, rfl, hx⟩

/-- Of two places in a list one comes before the other, or they are the same. -/
theorem places_of_splits {before after before' after' : List α} {a b : α}
    (h : before ++ a :: after = before' ++ b :: after') :
    a ∈ before' ∨ (before = before' ∧ a = b ∧ after = after') ∨ b ∈ before := by
  rcases List.append_eq_append_iff.1 h with ⟨between, rfl, hrest⟩ | ⟨between, rfl, hrest⟩
  · cases between with
    | nil =>
      cases hrest
      exact .inr (.inl ⟨(List.append_nil before).symm, rfl, rfl⟩)
    | cons c between =>
      cases hrest
      exact .inl List.mem_append_cons_self
  · cases between with
    | nil =>
      cases hrest
      exact .inr (.inl ⟨List.append_nil before', rfl, rfl⟩)
    | cons c between =>
      cases hrest
      exact .inr (.inr List.mem_append_cons_self)

end Rulebook
