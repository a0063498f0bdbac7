import Rulebook.SuffixKey
/-!
Keys with suffixes. No listed suffix is the end of another, so that at most one comes off a key, and
the order in which they are tried does not count. Main statement: a key is split in one way only, and
two keys are split alike exactly if they spell one operator behind one field in two ways.
-/

set_option autoImplicit false

namespace Rulebook.SuffixKey

theorem strip?_eq_some {suffix key field : List Char} :
    strip? suffix key = some field ↔ field ≠ [] ∧ key = field ++ suffix := by
  unfold strip?
  constructor
  · intro h
    split at h
    · rename_i hends
      obtain ⟨hsuffix, hlength⟩ := hends
      obtain ⟨front, rfl⟩ := List.isSuffixOf_iff_suffix.1 hsuffix
      have hfront : 0 < front.length := by simpa using hlength
      obtain rfl : front = field := by simpa using h
      exact ⟨List.length_pos_iff.1 hfront, rfl⟩
    · cases h
  · rintro ⟨hne, rfl⟩
    have hlength : 0 < field.length := List.length_pos_iff.2 hne
    rw [if_pos ⟨List.isSuffixOf_iff_suffix.2 (List.suffix_append _ _), by simpa⟩]
    simp

theorem suffixes_apart : ∀ e ∈ suffixes, ∀ f ∈ suffixes, e.1.toList <:+ f.1.toList → e = f := by
  decide

theorem suffix_unique {key : List Char} {e f : String × Operator} (he : e ∈ suffixes)
    (hf : f ∈ suffixes) (hkey : e.1.toList <:+ key) (hkey' : f.1.toList <:+ key) : e = f := by
  rcases List.suffix_or_suffix_of_suffix hkey hkey' with h | h
  · exact suffixes_apart e he f hf h
  · exact (suffixes_apart f hf e he h).symm

def parts? (key : String) (e : String × Operator) : Option (String × Operator) :=
  (strip? e.1.toList key.toList).map fun field => (String.ofList field, e.2)

theorem split_eq (key : String) :
    split key = (suffixes.findSome? (parts? key)).getD (key, .eq) := rfl

theorem split_of_strip {key : String} {e : String × Operator} {field : List Char}
    (he : e ∈ suffixes) (h : strip? e.1.toList key.toList = some field) :
    split key = (String.ofList field, e.2) := by
  rw [split_eq]
  cases hfound : suffixes.findSome? (parts? key) with
  | none =>
    have hnone := List.findSome?_eq_none_iff.1 hfound e he
    rw [parts?, h] at hnone
    cases hnone
  | some found =>
    obtain ⟨f, hf, hpart⟩ := List.exists_of_findSome?_eq_some hfound
    obtain ⟨field', hfield', rfl⟩ := Option.map_eq_some_iff.1 hpart
    have hkey := (strip?_eq_some.1 h).2
    have hkey' := (strip?_eq_some.1 hfield').2
    obtain rfl : e = f := suffix_unique he hf ⟨field, hkey.symm⟩ ⟨field', hkey'.symm⟩
    rw [h] at hfield'
    cases hfield'
    rfl

theorem split_append {field suffix : String} {op : Operator} (hne : field ≠ "")
    (h : (suffix, op) ∈ suffixes) : split (field ++ suffix) = (field, op) := by
  have hfield : field.toList ≠ [] := by simpa using hne
  have hstrip := strip?_eq_some.2 ⟨hfield, String.toList_append (s := field) (t := suffix)⟩
  rw [split_of_strip h hstrip, String.ofList_toList]

/-- A key that ends in no suffix is a field, and so is a suffix alone. -/
theorem split_plain {key : String}
    (h : ∀ e ∈ suffixes, e.1.toList <:+ key.toList → key = e.1) : split key = (key, .eq) := by
  have hnone : suffixes.findSome? (parts? key) = none := by
    refine List.findSome?_eq_none_iff.2 fun e he => ?_
    cases hstrip : strip? e.1.toList key.toList with
    | none => rw [parts?, hstrip, Option.map_none]
    | some field =>
      obtain ⟨hne, hkey⟩ := strip?_eq_some.1 hstrip
      have hsame := h e he ⟨field, hkey.symm⟩
      rw [hsame] at hkey
      exact absurd (List.self_eq_append_left.1 hkey) hne
  rw [split_eq, hnone, Option.getD_none]

def Plain (key : String) : Prop :=
  (∀ e ∈ suffixes, ¬ e.1.toList <:+ key.toList) ∨ ∃ e ∈ suffixes, key = e.1

/-- How a key is made up of a field and what picks the operator. -/
inductive Splits : String → String → Operator → Prop where
  | suffix {field suffix : String} {op : Operator} (named : field ≠ "")
      (listed : (suffix, op) ∈ suffixes) : Splits (field ++ suffix) field op
  | plain {key : String} (h : Plain key) : Splits key key .eq

def pairs : List (String × String) := [("_ge", "_gte"), ("_le", "_lte"), ("_ne", "_neq")]

/-- The same field in front of two spellings of one operator. Equality is also spelled by nothing. -/
inductive Respelled : String → String → Prop where
  | suffix {field short long : String} (named : field ≠ "") (pair : (short, long) ∈ pairs) :
      Respelled (field ++ short) (field ++ long)
  | plain {field : String} (named : field ≠ "") (h : Plain field) :
      Respelled field (field ++ "_eq")

def splitBy (table : List (String × Operator)) (key : String) : String × Operator :=
  (table.findSome? (parts? key)).getD (key, .eq)

variable {key field : String} {op : Operator}

theorem plain_iff :
    Plain key ↔ ∀ e ∈ suffixes, e.1.toList <:+ key.toList → key = e.1 := by
  constructor
  · rintro (hno | ⟨f, hf, rfl⟩) e he hends
    · exact absurd hends (hno e he)
    · rw [suffixes_apart e he f hf hends]
  · intro h
    by_cases hends : ∃ e ∈ suffixes, e.1.toList <:+ key.toList
    · obtain ⟨e, he, hends⟩ := hends
      exact .inr ⟨e, he, h e he hends⟩
    · exact .inl fun e he hsuffix => hends ⟨e, he, hsuffix⟩

theorem parts?_eq_some {e : String × Operator} :
    parts? key e = some (field, op) ↔ field ≠ "" ∧ key = field ++ e.1 ∧ e.2 = op := by
  simp only [parts?, Option.map_eq_some_iff, strip?_eq_some, Prod.mk.injEq]
  constructor
  · rintro ⟨front, ⟨hne, hkey⟩, rfl, rfl⟩
    refine ⟨by simpa using hne, String.toList_inj.1 ?_, rfl⟩
    rw [hkey, String.toList_append, String.toList_ofList]
  · rintro ⟨hne, rfl, rfl⟩
    exact ⟨field.toList, ⟨by simpa using hne, String.toList_append⟩, String.ofList_toList, rfl⟩

theorem ends_of_parts? {e part : String × Operator} (h : parts? key e = some part) :
    e.1.toList <:+ key.toList := by
  obtain ⟨-, rfl, -⟩ := parts?_eq_some.1 h
  exact ⟨part.1.toList, String.toList_append.symm⟩

/-- No suffix comes off exactly if the key is plain: what is left in front would be empty. -/
theorem plain_iff_parts? : Plain key ↔ ∀ e ∈ suffixes, parts? key e = none := by
  rw [plain_iff]
  refine forall₂_congr fun e _ => ⟨fun h => ?_, fun h hends => ?_⟩
  · refine Option.eq_none_iff_forall_ne_some.2 fun part hpart => ?_
    obtain ⟨hne, hkey, -⟩ := parts?_eq_some.1 hpart
    have hkey := congrArg String.toList hkey
    rw [String.toList_append, ← h (ends_of_parts? hpart)] at hkey
    exact hne (String.toList_eq_nil_iff.1 (List.self_eq_append_left.1 hkey))
  · obtain ⟨front, hfront⟩ := hends
    by_cases hne : front = []
    · exact String.toList_inj.1 (by rw [← hfront, hne, List.nil_append])
    · have hpart : parts? key e = some (String.ofList front, e.2) :=
        parts?_eq_some.2 ⟨by simpa using hne, String.toList_inj.1 (by simp [hfront]), rfl⟩
      rw [h] at hpart
      cases hpart

theorem split_iff : split key = (field, op) ↔ Splits key field op := by
  constructor
  · rw [split_eq]
    intro h
    cases hfound : suffixes.findSome? (parts? key) with
    | none =>
      rw [hfound] at h
      cases h
      exact .plain (plain_iff_parts?.2 (List.findSome?_eq_none_iff.1 hfound))
    | some part =>
      obtain ⟨⟨suffix, op'⟩, he, hpart⟩ := List.exists_of_findSome?_eq_some hfound
      rw [hfound] at h
      cases h
      obtain ⟨hne, rfl, rfl⟩ := parts?_eq_some.1 hpart
      exact .suffix hne he
  · rintro (⟨hne, hlisted⟩ | h)
    · exact split_append hne hlisted
    · exact split_plain (plain_iff.1 h)

theorem parts?_unique {e f : String × Operator} (he : e ∈ suffixes) (hf : f ∈ suffixes)
    (hpart : (parts? key e).isSome = true) (hpart' : (parts? key f).isSome = true) : e = f := by
  obtain ⟨part, hpart⟩ := Option.isSome_iff_exists.1 hpart
  obtain ⟨part', hpart'⟩ := Option.isSome_iff_exists.1 hpart'
  exact suffix_unique he hf (ends_of_parts? hpart) (ends_of_parts? hpart')

theorem splitBy_of_perm {table : List (String × Operator)} (h : table.Perm suffixes)
    (key : String) : splitBy table key = split key := by
  rw [splitBy, split_eq]
  cases hfound : suffixes.findSome? (parts? key) with
  | none =>
    rw [List.findSome?_eq_none_iff.2 fun e he =>
      List.findSome?_eq_none_iff.1 hfound e (h.mem_iff.1 he)]
  | some part =>
    obtain ⟨e, he, hpart⟩ := List.exists_of_findSome?_eq_some hfound
    have hsome : (table.findSome? (parts? key)).isSome = true :=
      List.findSome?_isSome_iff.2 ⟨e, h.mem_iff.2 he, by rw [hpart, Option.isSome_some]⟩
    obtain ⟨part', hfound'⟩ := Option.isSome_iff_exists.1 hsome
    obtain ⟨f, hf, hpart'⟩ := List.exists_of_findSome?_eq_some hfound'
    obtain rfl : e = f := parts?_unique he (h.mem_iff.1 hf) (by rw [hpart, Option.isSome_some])
      (by rw [hpart', Option.isSome_some])
    rw [hfound', ← hpart', hpart]

theorem pairs_complete : ∀ e ∈ suffixes, ∀ f ∈ suffixes, e.2 = f.2 →
    e = f ∨ (e.1, f.1) ∈ pairs ∨ (f.1, e.1) ∈ pairs := by decide

theorem suffix_eq_of_eq : ∀ e ∈ suffixes, e.2 = .eq → e.1 = "_eq" := by decide

theorem pairs_listed : ∀ d ∈ pairs, ∃ e ∈ suffixes, ∃ f ∈ suffixes,
    e.1 = d.1 ∧ f.1 = d.2 ∧ e.2 = f.2 := by decide

theorem Respelled.split_eq {key other : String} (h : Respelled key other) :
    split key = split other := by
  cases h with
  | suffix named pair =>
    obtain ⟨⟨_, op⟩, he, ⟨_, _⟩, hf, rfl, rfl, rfl⟩ := pairs_listed _ pair
    rw [split_append named he, split_append named hf]
  | plain named h =>
    have hlisted : ("_eq", Operator.eq) ∈ suffixes := by decide
    rw [split_plain (plain_iff.1 h), split_append named hlisted]

theorem respelled_of_splits {key other : String} (h : Splits key field op)
    (h' : Splits other field op) : key = other ∨ Respelled key other ∨ Respelled other key := by
  cases h with
  | @suffix _ suffix _ named listed =>
    cases h' with
    | @suffix _ suffix' _ _ listed' =>
      rcases pairs_complete _ listed _ listed' rfl with heq | hpair | hpair
      · cases heq
        exact .inl rfl
      · exact .inr (.inl (.suffix named hpair))
      · exact .inr (.inr (.suffix named hpair))
    | plain hplain =>
      obtain rfl := suffix_eq_of_eq _ listed rfl
      exact .inr (.inr (.plain named hplain))
  | plain hplain =>
    cases h' with
    | suffix named listed =>
      obtain rfl := suffix_eq_of_eq _ listed rfl
      exact .inr (.inl (.plain named hplain))
    | plain _ => exact .inl rfl

/-- A key has one field and one operator. At most one suffix comes off it, so that any order of the
table gives the same, and another key gives the same only if it is a second spelling. -/
theorem split_unambiguous (key : String) :
    (∀ field op, split key = (field, op) ↔ Splits key field op) ∧
    (∀ e ∈ suffixes, ∀ f ∈ suffixes, (parts? key e).isSome = true →
      (parts? key f).isSome = true → e = f) ∧
    (∀ table, List.Perm table suffixes → splitBy table key = split key) ∧
    ∀ other, split key = split other ↔ key = other ∨ Respelled key other ∨ Respelled other key := by
  refine ⟨fun field op => split_iff, fun e he f hf => parts?_unique he hf,
    fun table h => splitBy_of_perm h key, fun other => ⟨fun h => ?_, ?_⟩⟩
  · exact respelled_of_splits (split_iff.1 h) (split_iff.1 rfl)
  · rintro (rfl | h | h)
    · rfl
    · exact h.split_eq
    · exact h.split_eq.symm

theorem split_unambiguous_nested :
    split "amount_gt_gte" = ("amount_gt", .ge) ∧ split "_gte" = ("_gte", .eq) ∧
      split "_eq" = split "_eq_eq" ∧ split "amount_gte" ≠ split "amount_gt" := by
  have hfield : Splits ("amount_gt" ++ "_gte") "amount_gt" .ge := .suffix (by decide) (by decide)
  have halone : Plain "_gte" := .inr ⟨("_gte", .ge), by decide, rfl⟩
  have hequality : Plain "_eq" := .inr ⟨("_eq", .eq), by decide, rfl⟩
  have hrespelled : Respelled "_eq" ("_eq" ++ "_eq") := .plain (by decide) hequality
  exact ⟨((split_unambiguous _).1 _ _).2 hfield, ((split_unambiguous _).1 _ _).2 (.plain halone),
    ((split_unambiguous _).2.2.2 _).2 (.inr (.inl hrespelled)), by decide⟩

end Rulebook.SuffixKey
