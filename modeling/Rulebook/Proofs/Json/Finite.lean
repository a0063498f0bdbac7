import Rulebook.Json.Reader
import Rulebook.Proofs.Decimal.Finite
import Rulebook.Proofs.Json.Fields
/-!
What is read from a text holds finite numbers only: a number beyond all doubles is read as a part
without a value.
-/

set_option autoImplicit false

namespace Rulebook.Json

inductive Finite : Json → Prop where
  | null : Finite .null
  | bool (b : Bool) : Finite (.bool b)
  | number {n : Number} (finite : n.toFloat.isFinite = true) : Finite (.number n)
  | text (s : String) : Finite (.text s)
  | list {items : List Json} (parts : ∀ j ∈ items, Finite j) : Finite (.list items)
  | fields {entries : List (String × Json)} (parts : ∀ e ∈ entries, Finite e.2) :
      Finite (.fields entries)
  | unusable : Finite .unusable

theorem finite_realNumber (n : Numeral) : Finite (realNumber n) := by
  simp only [realNumber]
  split
  · rename_i h
    exact .number h
  · exact .unusable

theorem finite_wholeNumber (negative : Bool) (n : Nat) : Finite (wholeNumber negative n) := by
  have hinteger : ∀ k : Int, k.natAbs < 0x10000000000000000 → Finite (.number (.integer k)) :=
    fun k hk => .number (Binary64.isFinite_ofInt hk)
  unfold wholeNumber
  split
  · split
    · exact hinteger _ (by omega)
    · exact finite_realNumber _
  · split
    · exact hinteger _ (by omega)
    · exact finite_realNumber _

theorem finite_of_readNumber {cs rest : List Char} {j : Json}
    (h : readNumber cs = some (j, rest)) : Finite j := by
  simp only [readNumber] at h
  split at h
  · cases h
  · split at h
    · split at h
      · cases h
      · obtain ⟨read, -, heq⟩ := Option.map_eq_some_iff.1 h
        obtain ⟨rfl, -⟩ := Prod.mk.inj heq
        exact finite_realNumber _
    · obtain ⟨rfl, -⟩ := Prod.mk.inj (Option.some.inj h)
      exact finite_wholeNumber _ _

theorem Finite.container {j : Json} (h : Finite j) (room : Nat) : Finite (container room j) := by
  unfold Json.container
  split
  · exact .unusable
  · exact h

/-- The readers for values, items and fields, by induction on the fuel they share. -/
theorem finite_of_read (fuel : Nat) :
    (∀ room cs j rest, readValue fuel room cs = some (j, rest) → Finite j) ∧
    (∀ room cs js rest, readItems fuel room cs = some (js, rest) → ∀ j ∈ js, Finite j) ∧
    (∀ room cs es rest, readFields fuel room cs = some (some es, rest) →
      ∀ e ∈ es, Finite e.2) := by
  induction fuel with
  | zero => simp [readValue, readItems, readFields]
  | succ fuel ih =>
    obtain ⟨hvalue, hitems, hfields⟩ := ih
    refine ⟨fun room cs j rest h => ?_, fun room cs js rest h => ?_, fun room cs es rest h => ?_⟩
    · rw [readValue] at h
      split at h
      · cases h
        exact .null
      · cases h
        exact .bool true
      · cases h
        exact .bool false
      · obtain ⟨⟨read, left⟩, -, heq⟩ := Option.map_eq_some_iff.1 h
        obtain ⟨rfl, -⟩ := Prod.mk.inj heq
        cases read with
        | none => exact .unusable
        | some s => exact .text s
      · split at h
        · cases h
          exact Finite.container (.list (by simp)) room
        · obtain ⟨⟨items, left⟩, hread, heq⟩ := Option.map_eq_some_iff.1 h
          obtain ⟨rfl, -⟩ := Prod.mk.inj heq
          exact Finite.container (.list (hitems _ _ _ _ hread)) room
      · split at h
        · cases h
          exact Finite.container (.fields (by simp)) room
        · obtain ⟨⟨entries, left⟩, hread, heq⟩ := Option.map_eq_some_iff.1 h
          obtain ⟨rfl, -⟩ := Prod.mk.inj heq
          cases entries with
          | none => exact .unusable
          | some entries => exact Finite.container (.fields (hfields _ _ _ _ hread)) room
      · exact finite_of_readNumber h
    · rw [readItems] at h
      cases hread : readValue fuel room cs with
      | none => simp [hread] at h
      | some read =>
        obtain ⟨item, left⟩ := read
        have hitem := hvalue _ _ _ _ hread
        simp only [hread] at h
        split at h
        · obtain ⟨⟨later, end_⟩, hlater, heq⟩ := Option.map_eq_some_iff.1 h
          obtain ⟨rfl, -⟩ := Prod.mk.inj heq
          exact List.forall_mem_cons.2 ⟨hitem, hitems _ _ _ _ hlater⟩
        · cases h
          exact List.forall_mem_singleton.2 hitem
        · cases h
    · rw [readFields] at h
      split at h
      · split at h
        · cases h
        · split at h
          · split at h
            · cases h
            · rename_i hread
              have hitem := hvalue _ _ _ _ hread
              dsimp only at h
              split at h
              · obtain ⟨⟨later, end_⟩, hlater, heq⟩ := Option.map_eq_some_iff.1 h
                obtain ⟨hentries, -⟩ := Prod.mk.inj heq
                obtain ⟨entry, hentry, hrest⟩ := Option.bind_eq_some_iff.1 hentries
                obtain ⟨key, -, rfl⟩ := Option.map_eq_some_iff.1 hentry
                obtain ⟨entries, rfl, hes⟩ := Option.bind_eq_some_iff.1 hrest
                obtain rfl := Option.some.inj hes
                exact List.forall_mem_cons.2 ⟨hitem, hfields _ _ _ _ hlater⟩
              · obtain ⟨hentries, -⟩ := Prod.mk.inj (Option.some.inj h)
                obtain ⟨entry, hentry, rfl⟩ := Option.map_eq_some_iff.1 hentries
                obtain ⟨key, -, rfl⟩ := Option.map_eq_some_iff.1 hentry
                exact List.forall_mem_singleton.2 hitem
              · cases h
          · cases h
      · cases h

theorem finite_of_read? {s : String} {j : Json} (h : read? s = some j) : Finite j := by
  simp only [read?] at h
  split at h
  · split at h
    · cases h
      exact (finite_of_read _).1 _ _ _ _ ‹_›
    · cases h
  · cases h

theorem Finite.structure? {names : List String} {j part : Json} {parts : List (Option Json)}
    (h : Finite j) (hparts : j.structure? names = some parts) (hpart : some part ∈ parts) :
    Finite part := by
  cases h with
  | @fields entries hentries =>
    obtain ⟨name, -, hfield⟩ := exists_of_mem_mapM hparts hpart
    unfold field? at hfield
    split at hfield
    · cases hfield
    · rename_i key entry hfilter
      cases hfield
      have hmem : (key, part) ∈ entries.filter (·.1 == name) :=
        hfilter ▸ List.mem_singleton_self _
      exact hentries _ (List.mem_of_mem_filter hmem)
    · cases hfield
  | @list items hitems =>
    obtain ⟨-, heq⟩ := Option.ite_none_right_eq_some.1 hparts
    cases heq
    rcases List.mem_append.1 hpart with hpart | hpart
    · obtain ⟨j, hj, heq⟩ := List.mem_map.1 hpart
      cases heq
      exact hitems _ hj
    · cases (List.mem_replicate.1 hpart).2
  | _ => cases hparts

end Rulebook.Json
