import Rulebook.Json.Fields
/-!
Lists decoded item by item: what was encoded so is decoded so, and what is decoded comes from an
item.
-/

set_option autoImplicit false

namespace Rulebook.Json

variable {α β γ : Type}

theorem mapM_map {encode : α → γ} {decode : γ → Option β} {f : α → β} {as : List α}
    (h : ∀ a ∈ as, decode (encode a) = some (f a)) :
    (as.map encode).mapM decode = some (as.map f) := by
  induction as with
  | nil => rfl
  | cons a as ih =>
    obtain ⟨ha, has⟩ := List.forall_mem_cons.1 h
    simp [List.mapM_cons, ha, ih has]

theorem exists_of_mem_mapM {decode : γ → Option β} {cs : List γ} {bs : List β} {b : β}
    (h : cs.mapM decode = some bs) (hb : b ∈ bs) : ∃ c ∈ cs, decode c = some b := by
  induction cs generalizing bs with
  | nil =>
    cases h
    cases hb
  | cons c cs ih =>
    rw [List.mapM_cons] at h
    obtain ⟨first, hfirst, h⟩ := Option.bind_eq_some_iff.1 h
    obtain ⟨later, hlater, h⟩ := Option.bind_eq_some_iff.1 h
    cases h
    rcases List.mem_cons.1 hb with rfl | hb
    · exact ⟨c, List.mem_cons_self, hfirst⟩
    · obtain ⟨c', hc', hdecode⟩ := ih hlater hb
      exact ⟨c', List.mem_cons_of_mem c hc', hdecode⟩

variable {encode : α → Json} {decode : Json → Option α}

theorem mapM_map_self {as : List α} (h : ∀ a ∈ as, decode (encode a) = some a) :
    (as.map encode).mapM decode = some as := by
  rw [mapM_map (f := id) h, List.map_id]

theorem listOf?_map {as : List α} (h : ∀ a ∈ as, decode (encode a) = some a) :
    listOf? decode (.list (as.map encode)) = some as := mapM_map_self h

theorem decoded_of_optional? {part : Option Json} {a : α}
    (h : optional? decode part = some (some a)) : ∃ j ∈ part, decode j = some a := by
  unfold optional? at h
  split at h
  · cases h
  · cases h
  · rename_i j _
    obtain ⟨a', ha, heq⟩ := Option.map_eq_some_iff.1 h
    cases heq
    exact ⟨j, rfl, ha⟩

theorem listOf?_text (ss : List String) : listOf? text? (.list (ss.map .text)) = some ss :=
  listOf?_map fun _ _ => rfl

end Rulebook.Json
