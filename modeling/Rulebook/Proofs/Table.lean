import Mathlib.Data.List.Nodup
import Rulebook.Table
/-!
Tables through `get?`: what an insertion changes, and that a table is what its entries say. The last
entry under a key counts, so entries with distinct keys may be put in in any order.
-/

set_option autoImplicit false

namespace Rulebook

variable {α : Type}

namespace Entries

theorem lookup_cons (k l : String) (b : α) (es : List (String × α)) :
    ((l, b) :: es).lookup k = if k = l then some b else es.lookup k := by
  by_cases h : k = l
  · simp [h]
  · simp [List.lookup_cons, beq_false_of_ne h, h]

theorem lookup_insert (key k : String) (a : α) (es : List (String × α)) :
    (insert key a es).lookup k = if k = key then some a else es.lookup k := by
  induction es with
  | nil => simp only [insert, lookup_cons]
  | cons e es ih =>
    obtain ⟨l, b⟩ := e
    simp only [insert]
    split
    · rw [lookup_cons]
    · split
      · rename_i hl; subst hl
        simp only [lookup_cons]
        split <;> rfl
      · rename_i hl
        simp only [lookup_cons, ih]
        by_cases h : k = l
        · simp [h, Ne.symm hl]
        · simp [h]

theorem lookup_filter (p : String → Bool) (es : List (String × α)) (k : String) :
    (es.filter fun e => p e.1).lookup k = if p k then es.lookup k else none := by
  induction es with
  | nil => simp
  | cons e es ih =>
    obtain ⟨l, b⟩ := e
    cases hl : p l with
    | true =>
      rw [List.filter_cons_of_pos (by exact hl), lookup_cons, lookup_cons, ih]
      by_cases hk : k = l
      · rw [if_pos hk, if_pos hk, hk, if_pos hl]
      · rw [if_neg hk, if_neg hk]
    | false =>
      rw [List.filter_cons_of_neg (by simp [hl]), ih, lookup_cons]
      by_cases hk : k = l
      · simp [hk, hl]
      · rw [if_neg hk]

theorem lookup_map {β : Type} (g : α → β) (es : List (String × α)) (k : String) :
    (es.map fun e => (e.1, g e.2)).lookup k = (es.lookup k).map g := by
  induction es with
  | nil => rfl
  | cons e es ih =>
    obtain ⟨l, a⟩ := e
    rw [List.map_cons, lookup_cons, lookup_cons, ih]
    split <;> rfl

theorem insert_perm {key : String} (a : α) {es : List (String × α)} (h : key ∉ es.map Prod.fst) :
    (insert key a es).Perm ((key, a) :: es) := by
  induction es with
  | nil => exact .refl _
  | cons e es ih =>
    obtain ⟨l, b⟩ := e
    obtain ⟨hl, hes⟩ : key ≠ l ∧ key ∉ es.map Prod.fst := not_or.1 (mt List.mem_cons.2 h)
    simp only [insert, if_neg hl]
    split
    · exact .refl _
    · exact ((ih hes).cons _).trans (.swap ..)

theorem lookup_eq_some_iff_mem {es : List (String × α)} (h : (es.map Prod.fst).Nodup)
    {k : String} {a : α} : es.lookup k = some a ↔ (k, a) ∈ es := by
  induction es with
  | nil => simp
  | cons e es ih =>
    obtain ⟨l, b⟩ := e
    obtain ⟨hl, hes⟩ := List.nodup_cons.1 h
    by_cases hk : k = l
    · subst hk
      have hn : ∀ a, (k, a) ∉ es := fun a ha => hl (List.mem_map.2 ⟨_, ha, rfl⟩)
      simp [hn, eq_comm]
    · simp [lookup_cons, hk, ih hes]

theorem mem_of_lookup {es : List (String × α)} {k : String} {a : α} (h : es.lookup k = some a) :
    (k, a) ∈ es := by
  obtain ⟨before, after, rfl, -⟩ := List.lookup_eq_some_iff.1 h
  exact List.mem_append_cons_self

theorem Increasing.nodup {es : List (String × α)} (h : Increasing es) :
    (es.map Prod.fst).Nodup := by
  refine List.Pairwise.imp (fun {k l} hlt he => ?_) h
  exact String.lt_irrefl l (he ▸ hlt)

theorem Increasing.eq_of_lookup {es fs : List (String × α)} (he : Increasing es)
    (hf : Increasing fs) (h : ∀ k, es.lookup k = fs.lookup k) : es = fs := by
  have hmem : ∀ e, e ∈ es ↔ e ∈ fs := fun e => by
    rw [← lookup_eq_some_iff_mem he.nodup, h, lookup_eq_some_iff_mem hf.nodup]
  have hperm : es.Perm fs := (List.perm_ext_iff_of_nodup (List.Nodup.of_map _ he.nodup)
    (List.Nodup.of_map _ hf.nodup)).2 hmem
  refine hperm.eq_of_pairwise (fun a b _ _ hab hba => ?_) (List.pairwise_map.1 he)
    (List.pairwise_map.1 hf)
  exact absurd (String.lt_trans hab hba) (String.lt_irrefl _)

end Entries

namespace Table

theorem eq_of_get? {s t : Table α} (h : ∀ k, s.get? k = t.get? k) : s = t :=
  Table.ext (s.increasing.eq_of_lookup t.increasing h)

@[simp] theorem get?_empty (k : String) : (empty : Table α).get? k = none := rfl

theorem contains_eq_false {t : Table α} {k : String} :
    t.contains k = false ↔ k ∉ t.entries.map Prod.fst := by
  rw [contains, get?, Option.isSome_eq_false_iff, Option.isNone_iff_eq_none,
    List.lookup_eq_none_iff]
  simp only [List.mem_map, not_exists, not_and, bne_iff_ne]
  exact forall₂_congr fun _ _ => ⟨Ne.symm, Ne.symm⟩

theorem get?_insert (t : Table α) (key k : String) (a : α) :
    (t.insert key a).get? k = if k = key then some a else t.get? k :=
  Entries.lookup_insert key k a t.entries

theorem get?_erase (t : Table α) (key k : String) :
    (t.erase key).get? k = if k = key then none else t.get? k := by
  rw [get?, erase, Entries.lookup_filter (· != key)]
  by_cases hk : k = key
  · simp [hk]
  · simp [hk, get?]

theorem contains_insert_of_ne (t : Table α) {key k : String} (a : α) (h : k ≠ key) :
    (t.insert key a).contains k = t.contains k := by
  rw [contains, get?_insert, if_neg h, contains]

theorem get?_insertAll (t : Table α) (es : List (String × α)) (k : String) :
    (t.insertAll es).get? k = (es.reverse.lookup k).or (t.get? k) := by
  induction es generalizing t with
  | nil => simp [insertAll]
  | cons e es ih =>
    obtain ⟨key, a⟩ := e
    have hi : t.insertAll ((key, a) :: es) = (t.insert key a).insertAll es := rfl
    rw [hi, ih, get?_insert, List.reverse_cons, List.lookup_append]
    simp only [Entries.lookup_cons, List.lookup_nil]
    split <;> cases es.reverse.lookup k <;> rfl

theorem mem_keys {t : Table α} {k : String} : k ∈ t.keys ↔ (t.get? k).isSome = true := by
  have h := contains_eq_false (t := t) (k := k)
  rw [contains, Bool.eq_false_iff, not_iff_not] at h
  exact h.symm

theorem mem_values {t : Table α} {a : α} : a ∈ t.values ↔ ∃ k, t.get? k = some a := by
  simp only [values, get?, Entries.lookup_eq_some_iff_mem t.increasing.nodup, List.mem_map]
  constructor
  · rintro ⟨⟨k, b⟩, hmem, rfl⟩
    exact ⟨k, hmem⟩
  · rintro ⟨k, hmem⟩
    exact ⟨_, hmem, rfl⟩

theorem get?_ofList_last (es : List (String × α)) (k : String) :
    (ofList es).get? k = es.reverse.lookup k := by
  rw [ofList, get?_insertAll, get?_empty, Option.or_none]

theorem get?_ofList_iff {es : List (String × α)} {k : String} {a : α} :
    (ofList es).get? k = some a ↔
      ∃ before after, es = before ++ (k, a) :: after ∧ ∀ e ∈ after, e.1 ≠ k := by
  rw [get?_ofList_last, List.lookup_eq_some_iff]
  constructor
  · rintro ⟨later, earlier, heq, hlater⟩
    refine ⟨earlier.reverse, later.reverse, ?_, fun e he heq => ?_⟩
    · rw [← List.reverse_reverse es, heq]
      simp
    · have hne := hlater e (List.mem_reverse.1 he)
      simp [heq] at hne
  · rintro ⟨before, after, rfl, hafter⟩
    refine ⟨after.reverse, before.reverse, by simp, fun e he => ?_⟩
    exact bne_iff_ne.2 (hafter e (List.mem_reverse.1 he)).symm

theorem mem_of_get?_ofList {es : List (String × α)} {k : String} {a : α}
    (h : (ofList es).get? k = some a) : (k, a) ∈ es := by
  obtain ⟨before, after, rfl, -⟩ := get?_ofList_iff.1 h
  exact List.mem_append_cons_self

theorem mem_keys_ofList {es : List (String × α)} {k : String} :
    k ∈ (ofList es).keys ↔ k ∈ es.map Prod.fst := by
  rw [mem_keys, get?_ofList_last, Option.isSome_iff_ne_none, ne_eq, List.lookup_eq_none_iff]
  simp [@eq_comm _ k]

theorem mem_distinct {keys : List String} {k : String} : k ∈ distinct keys ↔ k ∈ keys := by
  rw [distinct, mem_keys_ofList, List.map_map]
  simp

theorem get?_ofList {es : List (String × α)} (h : (es.map Prod.fst).Nodup) (k : String) :
    (ofList es).get? k = es.lookup k := by
  have hr : (es.reverse.map Prod.fst).Nodup := by
    rw [List.map_reverse]
    exact List.nodup_reverse.2 h
  rw [get?_ofList_last]
  ext a
  rw [Entries.lookup_eq_some_iff_mem hr, Entries.lookup_eq_some_iff_mem h, List.mem_reverse]

/-- Entries with distinct keys make the same table in any order. -/
theorem ofList_perm {es fs : List (String × α)} (h : es.Perm fs)
    (hd : (es.map Prod.fst).Nodup) : ofList es = ofList fs := by
  have hf : (fs.map Prod.fst).Nodup := (h.map Prod.fst).nodup_iff.1 hd
  refine eq_of_get? fun k => ?_
  rw [get?_ofList hd, get?_ofList hf]
  ext a
  rw [Entries.lookup_eq_some_iff_mem hd, Entries.lookup_eq_some_iff_mem hf, h.mem_iff]

theorem ofList_entries (t : Table α) : ofList t.entries = t :=
  eq_of_get? (get?_ofList t.increasing.nodup)

theorem entries_ofList {es : List (String × α)} (h : Entries.Increasing es) :
    (ofList es).entries = es :=
  congrArg Table.entries (ofList_entries ⟨es, h⟩)

end Table

end Rulebook
