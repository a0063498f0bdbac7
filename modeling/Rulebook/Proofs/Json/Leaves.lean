import Rulebook.Proofs.Json.Finite
import Rulebook.Proofs.Table
import Rulebook.Value
/-!
The leaves of a document: its scalars, each at the end of its own steps down from the whole. In the
value of a document no key is repeated and keys ascend, so that leaves are met in the order of
their steps.
-/

set_option autoImplicit false

namespace Rulebook.Json

inductive Step where
  | key (name : String)
  | item (position : Nat)

inductive Step.Before : Step → Step → Prop where
  | key {a b : String} (lt : a < b) : Before (.key a) (.key b)
  | item {m n : Nat} (lt : m < n) : Before (.item m) (.item n)

instance : Std.Asymm Step.Before := ⟨fun s t h => by
  cases h with
  | key lt => exact fun | .key gt => String.lt_asymm lt gt
  | item lt => exact fun | .item gt => Nat.lt_asymm lt gt⟩

def parts : Json → List (Step × Json)
  | .fields es => es.map fun e => (.key e.1, e.2)
  | .list js => js.zipIdx.map fun x => (.item x.2, x.1)
  | _ => []

def part? : Json → Step → Option Json
  | .fields es, .key name => es.lookup name
  | .list js, .item position => js[position]?
  | _, _ => none

def at? (j : Json) : List Step → Option Json
  | [] => some j
  | s :: steps => (j.part? s).bind (at? · steps)

def leaf? (j : Json) (steps : List Step) : Option Value := (j.at? steps).bind Value.ofJson?

variable {j part : Json} {s t : Step} {steps steps' : List Step} {v : Value}

theorem at?_append : j.at? (steps ++ steps') = (j.at? steps).bind (at? · steps') := by
  induction steps generalizing j with
  | nil => rfl
  | cons s steps ih =>
    rw [List.cons_append, at?, at?, Option.bind_assoc]
    exact Option.bind_congr fun part _ => ih

theorem leaf?_cons : j.leaf? (s :: steps) = (j.part? s).bind (leaf? · steps) := by
  rw [leaf?, at?, Option.bind_assoc]
  rfl

theorem part?_of_ofJson? (h : Value.ofJson? j = some v) (s : Step) : j.part? s = none := by
  cases j with
  | fields es => cases h
  | list js => cases h
  | _ => rfl

theorem sizeOf_part (h : (s, part) ∈ j.parts) : sizeOf part < sizeOf j := by
  cases j with
  | fields es =>
    obtain ⟨e, he, heq⟩ := List.mem_map.1 h
    cases heq
    have hlt := List.sizeOf_lt_of_mem he
    have hsize : sizeOf e = 1 + sizeOf e.1 + sizeOf e.2 := by cases e; rfl
    rw [Json.fields.sizeOf_spec]
    omega
  | list js =>
    obtain ⟨x, hx, heq⟩ := List.mem_map.1 h
    cases heq
    have hlt := List.sizeOf_lt_of_mem (List.fst_mem_of_mem_zipIdx hx)
    rw [Json.list.sizeOf_spec]
    omega
  | _ => cases h

def walk (j : Json) : List (List Step × Value) :=
  match Value.ofJson? j with
  | some v => [([], v)]
  | none =>
    j.parts.attach.flatMap fun x => (walk x.1.2).map fun leaf => (x.1.1 :: leaf.1, leaf.2)
termination_by sizeOf j
decreasing_by exact sizeOf_part x.2

theorem walk_scalar (h : Value.ofJson? j = some v) : j.walk = [([], v)] := by
  rw [walk, h]

theorem walk_container (h : Value.ofJson? j = none) :
    j.walk = j.parts.flatMap fun x => x.2.walk.map fun leaf => (x.1 :: leaf.1, leaf.2) := by
  conv_rhs => rw [← List.attach_map_subtype_val j.parts, List.flatMap_map]
  rw [walk, h]

theorem part_induction {motive : Json → Prop}
    (step : ∀ j, (∀ s part, (s, part) ∈ j.parts → motive part) → motive j) (j : Json) : motive j :=
  step j fun _ part _ => part_induction step part
termination_by sizeOf j
decreasing_by exact sizeOf_part ‹_›

/-! ## Values of documents -/

def IsValue (j : Json) : Prop := ∃ document : Json, document.value? = some j

theorem exists_of_mem_itemValues? {items values : List Json}
    (h : itemValues? items = some values) (hv : part ∈ values) :
    ∃ item ∈ items, item.value? = some part := by
  induction items generalizing values with
  | nil =>
    cases h
    cases hv
  | cons item items ih =>
    obtain ⟨first, hfirst, h⟩ := Option.bind_eq_some_iff.1 h
    obtain ⟨later, hlater, h⟩ := Option.bind_eq_some_iff.1 h
    cases h
    rcases List.mem_cons.1 hv with rfl | hv
    · exact ⟨item, List.mem_cons_self, hfirst⟩
    · obtain ⟨item', hmem, hvalue⟩ := ih hlater hv
      exact ⟨item', List.mem_cons_of_mem item hmem, hvalue⟩

theorem exists_of_mem_fieldValues? {entries values : List (String × Json)} {name : String}
    (h : fieldValues? entries = some values) (hv : (name, part) ∈ values) :
    ∃ entry ∈ entries, entry.2.value? = some part := by
  induction entries generalizing values with
  | nil =>
    cases h
    cases hv
  | cons entry entries ih =>
    obtain ⟨first, hfirst, h⟩ := Option.bind_eq_some_iff.1 h
    obtain ⟨later, hlater, h⟩ := Option.bind_eq_some_iff.1 h
    cases h
    have hold : (name, part) ∈ later → ∃ e ∈ entry :: entries, e.2.value? = some part := by
      intro hmem
      obtain ⟨e, he, hvalue⟩ := ih hlater hmem
      exact ⟨e, List.mem_cons_of_mem entry he, hvalue⟩
    cases hlookup : later.lookup entry.1 with
    | some again =>
      rw [hlookup] at hv
      exact hold hv
    | none =>
      rw [hlookup] at hv
      have hnew : entry.1 ∉ later.map Prod.fst := by
        intro hmem
        obtain ⟨e, he, heq⟩ := List.mem_map.1 hmem
        have hne := List.lookup_eq_none_iff.1 hlookup e he
        simp [heq] at hne
      rcases List.mem_cons.1 ((Entries.insert_perm first hnew).mem_iff.1 hv) with heq | hmem
      · cases heq
        exact ⟨entry, List.mem_cons_self, hfirst⟩
      · exact hold hmem

theorem increasing_of_fieldValues? {entries values : List (String × Json)}
    (h : fieldValues? entries = some values) : Entries.Increasing values := by
  induction entries generalizing values with
  | nil =>
    cases h
    exact .nil
  | cons entry entries ih =>
    obtain ⟨first, -, h⟩ := Option.bind_eq_some_iff.1 h
    obtain ⟨later, hlater, h⟩ := Option.bind_eq_some_iff.1 h
    cases h
    split
    · exact ih hlater
    · exact (ih hlater).insert

theorem Finite.value? {v : Json} (hj : j.Finite) (h : j.value? = some v) : v.Finite := by
  induction hj generalizing v with
  | list parts ih =>
    obtain ⟨values, hvalues, rfl⟩ := Option.map_eq_some_iff.1 h
    refine .list fun part hpart => ?_
    obtain ⟨item, hitem, hvalue⟩ := exists_of_mem_itemValues? hvalues hpart
    exact ih item hitem hvalue
  | fields parts ih =>
    obtain ⟨values, hvalues, rfl⟩ := Option.map_eq_some_iff.1 h
    refine .fields fun e he => ?_
    obtain ⟨entry, hentry, hvalue⟩ := exists_of_mem_fieldValues? hvalues he
    exact ih entry hentry hvalue
  | unusable => cases h
  | null => cases h; exact .null
  | bool b => cases h; exact .bool b
  | number finite => cases h; exact .number finite
  | text s => cases h; exact .text s

theorem IsValue.fields {es : List (String × Json)} (h : IsValue (.fields es)) :
    Entries.Increasing es ∧ ∀ e ∈ es, e.2.IsValue := by
  obtain ⟨document, h⟩ := h
  cases document with
  | fields entries =>
    obtain ⟨values, hvalues, heq⟩ := Option.map_eq_some_iff.1 h
    cases heq
    refine ⟨increasing_of_fieldValues? hvalues, fun e he => ?_⟩
    obtain ⟨entry, -, hvalue⟩ := exists_of_mem_fieldValues? hvalues he
    exact ⟨entry.2, hvalue⟩
  | list items =>
    obtain ⟨values, -, heq⟩ := Option.map_eq_some_iff.1 h
    cases heq
  | _ => cases h

theorem IsValue.list {js : List Json} (h : IsValue (.list js)) : ∀ item ∈ js, item.IsValue := by
  obtain ⟨document, h⟩ := h
  cases document with
  | list items =>
    obtain ⟨values, hvalues, heq⟩ := Option.map_eq_some_iff.1 h
    cases heq
    intro item hitem
    obtain ⟨document, -, hvalue⟩ := exists_of_mem_itemValues? hvalues hitem
    exact ⟨document, hvalue⟩
  | fields entries =>
    obtain ⟨values, -, heq⟩ := Option.map_eq_some_iff.1 h
    cases heq
  | _ => cases h

theorem IsValue.mem_parts (h : j.IsValue) : (s, part) ∈ j.parts ↔ j.part? s = some part := by
  cases j with
  | fields es =>
    cases s with
    | key name => simp [parts, part?, Entries.lookup_eq_some_iff_mem h.fields.1.nodup]
    | item position => simp [parts, part?]
  | list js =>
    cases s with
    | key name => simp [parts, part?]
    | item position => simp [parts, part?, List.mk_mem_zipIdx_iff_getElem?]
  | _ => simp [parts, part?]

theorem IsValue.of_mem_parts (h : j.IsValue) (hpart : (s, part) ∈ j.parts) : part.IsValue := by
  cases j with
  | fields es =>
    obtain ⟨e, he, heq⟩ := List.mem_map.1 hpart
    cases heq
    exact h.fields.2 e he
  | list js =>
    obtain ⟨x, hx, heq⟩ := List.mem_map.1 hpart
    cases heq
    exact h.list x.1 (List.fst_mem_of_mem_zipIdx hx)
  | _ => cases hpart

theorem IsValue.pairwise_parts (h : j.IsValue) :
    j.parts.Pairwise fun x y => x.1.Before y.1 := by
  cases j with
  | fields es =>
    refine List.pairwise_map.2 ((List.pairwise_map.1 h.fields.1).imp ?_)
    exact fun hlt => .key hlt
  | list js =>
    have hpositions : (js.zipIdx.map Prod.snd).Pairwise (· < ·) := by
      rw [List.zipIdx_map_snd]
      exact List.pairwise_lt_range'
    refine List.pairwise_map.2 ((List.pairwise_map.1 hpositions).imp ?_)
    exact fun hlt => .item hlt
  | _ => exact .nil

/-- A walk meets the leaves that can be reached, and no other. -/
theorem IsValue.mem_walk (hj : j.IsValue) : (steps, v) ∈ j.walk ↔ j.leaf? steps = some v := by
  induction j using part_induction generalizing steps with
  | step j ih =>
    cases hscalar : Value.ofJson? j with
    | some w =>
      rw [walk_scalar hscalar]
      cases steps with
      | nil => simp [leaf?, at?, hscalar, eq_comm]
      | cons s steps => simp [leaf?_cons, part?_of_ofJson? hscalar]
    | none =>
      rw [walk_container hscalar]
      cases steps with
      | nil => simp [leaf?, at?, hscalar]
      | cons s steps =>
        rw [leaf?_cons, Option.bind_eq_some_iff]
        constructor
        · intro h
          obtain ⟨⟨s', part⟩, hpart, h⟩ := List.mem_flatMap.1 h
          obtain ⟨leaf, hleaf, heq⟩ := List.mem_map.1 h
          cases heq
          exact ⟨part, hj.mem_parts.1 hpart, (ih _ part hpart (hj.of_mem_parts hpart)).1 hleaf⟩
        · rintro ⟨part, hpart, hleaf⟩
          have hmem := hj.mem_parts.2 hpart
          exact List.mem_flatMap.2 ⟨_, hmem,
            List.mem_map.2 ⟨_, (ih s part hmem (hj.of_mem_parts hmem)).2 hleaf, rfl⟩⟩

theorem IsValue.pairwise_walk (hj : j.IsValue) :
    j.walk.Pairwise fun x y => List.Lex Step.Before x.1 y.1 := by
  induction j using part_induction with
  | step j ih =>
    cases hscalar : Value.ofJson? j with
    | some w =>
      rw [walk_scalar hscalar]
      exact List.pairwise_singleton _ _
    | none =>
      rw [walk_container hscalar, List.pairwise_flatMap]
      constructor
      · rintro ⟨s, part⟩ hpart
        exact List.pairwise_map.2 ((ih s part hpart (hj.of_mem_parts hpart)).imp .cons)
      · refine hj.pairwise_parts.imp fun hbefore leaf hleaf leaf' hleaf' => ?_
        obtain ⟨_, -, rfl⟩ := List.mem_map.1 hleaf
        obtain ⟨_, -, rfl⟩ := List.mem_map.1 hleaf'
        exact .rel hbefore

/-- Where a walk meets a leaf, it has met the leaves before it and will meet those behind it. -/
theorem IsValue.walk_around (hj : j.IsValue) {earlier later : List (List Step × Value)}
    (h : j.walk = earlier ++ (steps, v) :: later) :
    (∀ leaf ∈ earlier, List.Lex Step.Before leaf.1 steps) ∧
      ∀ leaf ∈ later, List.Lex Step.Before steps leaf.1 := by
  have horder := hj.pairwise_walk
  rw [h] at horder
  obtain ⟨-, hlater, hearlier⟩ := List.pairwise_append.1 horder
  exact ⟨fun leaf hleaf => hearlier leaf hleaf _ List.mem_cons_self,
    (List.pairwise_cons.1 hlater).1⟩

theorem Finite.part? (hj : j.Finite) (h : j.part? s = some part) : part.Finite := by
  cases hj with
  | fields parts =>
    cases s with
    | key name => exact parts _ (Entries.mem_of_lookup h)
    | item position => cases h
  | list parts =>
    cases s with
    | key name => cases h
    | item position => exact parts _ (List.mem_of_getElem? h)
  | _ => cases h

theorem Finite.at? (hj : j.Finite) (h : j.at? steps = some part) : part.Finite := by
  induction steps generalizing j with
  | nil =>
    cases h
    exact hj
  | cons s steps ih =>
    obtain ⟨next, hnext, h⟩ := Option.bind_eq_some_iff.1 h
    exact ih (hj.part? hnext) h

end Rulebook.Json
