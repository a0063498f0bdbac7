import Mathlib.Data.List.Lex
import Rulebook.Proofs.Decision
import Rulebook.Proofs.Json.Leaves
import Rulebook.Proofs.RuleSetText
/-!
Flattening. The fields of a record are the paths to the leaves of its document, and a field holds
the last leaf on its path. Main statement: nothing is lost or invented, and no two leaves share a
path unless a key contains a dot.
-/

set_option autoImplicit false

namespace Rulebook

namespace Json

def Step.text : Step → String
  | .key name => name
  | .item position => Nat.repr position

/-- The path to a leaf: the texts of its steps, with dots between them. What is no object stands
under `value`. -/
def path : Json → List Step → String
  | .fields _, steps => ".".intercalate (steps.map Step.text)
  | _, steps => ".".intercalate ("value" :: steps.map Step.text)

/-- No other leaf on the path comes behind this one. -/
structure LastLeaf (j : Json) (field : String) (steps : List Step) (v : Value) : Prop where
  leaf : j.leaf? steps = some v
  path : j.path steps = field
  last : ∀ steps' v', j.leaf? steps' = some v' → j.path steps' = field →
    steps' = steps ∨ List.Lex Step.Before steps' steps

def DotFree (j : Json) : Prop :=
  ∀ steps name, (j.at? (steps ++ [.key name])).isSome = true → '.' ∉ name.toList

variable {j part part' : Json} {s s' : Step} {steps steps' : List Step} {v v' : Value}

theorem Step.toList_text_item (position : Nat) :
    (item position).text.toList = Nat.toDigits 10 position := Nat.toList_repr

theorem Step.dot_not_mem_item (position : Nat) : '.' ∉ (item position).text.toList := by
  intro hmem
  rw [toList_text_item] at hmem
  cases Numeral.isDigit_of_mem_toDigits hmem

theorem Step.item_eq_of_text {m n : Nat} (h : (item m).text = (item n).text) : m = n := by
  have hdigits := congrArg (fun s => Numeral.digitsValue s.toList) h
  simpa only [toList_text_item, Numeral.digitsValue_toDigits] using hdigits

theorem DotFree.dot_not_mem (hj : j.DotFree) (h : j.at? steps = some part) (hs : s ∈ steps) :
    '.' ∉ s.text.toList := by
  cases s with
  | item position => exact Step.dot_not_mem_item position
  | key name =>
    obtain ⟨before, after, rfl⟩ := List.append_of_mem hs
    rw [List.append_cons, at?_append] at h
    obtain ⟨next, hnext, -⟩ := Option.bind_eq_some_iff.1 h
    exact hj before name (Option.isSome_of_eq_some hnext)

theorem step_eq_of_text (hs : j.part? s = some part) (hs' : j.part? s' = some part')
    (htext : s.text = s'.text) : s = s' := by
  cases j with
  | fields es =>
    cases s with
    | item position => cases hs
    | key name =>
      cases s' with
      | item position => cases hs'
      | key name' => exact congrArg Step.key htext
  | list js =>
    cases s with
    | key name => cases hs
    | item position =>
      cases s' with
      | key name => cases hs'
      | item position' => exact congrArg Step.item (Step.item_eq_of_text htext)
  | _ => cases hs

theorem steps_eq_of_texts (h : j.at? steps = some part) (h' : j.at? steps' = some part')
    (htexts : steps.map Step.text = steps'.map Step.text) : steps = steps' := by
  induction steps generalizing j steps' with
  | nil => exact (List.map_eq_nil_iff.1 htexts.symm).symm
  | cons s steps ih =>
    cases steps' with
    | nil => cases htexts
    | cons s' steps' =>
      obtain ⟨htext, hrest⟩ := List.cons.inj htexts
      obtain ⟨next, hnext, h⟩ := Option.bind_eq_some_iff.1 h
      obtain ⟨next', hnext', h'⟩ := Option.bind_eq_some_iff.1 h'
      obtain rfl := step_eq_of_text hnext hnext' htext
      rw [hnext] at hnext'
      cases hnext'
      rw [ih h h' hrest]

theorem texts_eq_of_joined {ss ts : List String} (hss : ∀ s ∈ ss, '.' ∉ s.toList)
    (hts : ∀ t ∈ ts, '.' ∉ t.toList) (hne : ss ≠ []) (hne' : ts ≠ [])
    (h : ".".intercalate ss = ".".intercalate ts) : ss = ts := by
  have hsplit : ∀ {us : List String}, (∀ u ∈ us, '.' ∉ u.toList) → us ≠ [] →
      (".".intercalate us).toList.splitOn '.' = us.map String.toList := by
    intro us hus hne
    rw [String.toList_intercalate]
    refine List.splitOn_intercalate '.' (fun cs hcs => ?_) (by simpa using hne)
    obtain ⟨u, hu, rfl⟩ := List.mem_map.1 hcs
    exact hus u hu
  have hchars : ss.map String.toList = ts.map String.toList := by
    rw [← hsplit hss hne, h, hsplit hts hne']
  exact List.map_injective_iff.2 (fun _ _ => String.toList_injective) hchars

theorem leaf?_iff : j.leaf? steps = some v ↔ ∃ part, j.at? steps = some part ∧
    Value.ofJson? part = some v := Option.bind_eq_some_iff

theorem DotFree.steps_eq_of_path (hj : j.DotFree) (h : j.leaf? steps = some v)
    (h' : j.leaf? steps' = some v') (hpath : j.path steps = j.path steps') : steps = steps' := by
  obtain ⟨part, hat, hleaf⟩ := leaf?_iff.1 h
  obtain ⟨part', hat', hleaf'⟩ := leaf?_iff.1 h'
  have hdots : ∀ t ∈ steps.map Step.text, '.' ∉ t.toList :=
    List.forall_mem_map.2 fun s hs => hj.dot_not_mem hat hs
  have hdots' : ∀ t ∈ steps'.map Step.text, '.' ∉ t.toList :=
    List.forall_mem_map.2 fun s hs => hj.dot_not_mem hat' hs
  refine steps_eq_of_texts hat hat' ?_
  cases j with
  | fields es =>
    -- The whole object is no leaf, so there is a first step.
    have hne : ∀ {steps : List Step} {v : Value}, (Json.fields es).leaf? steps = some v →
        steps.map Step.text ≠ [] := by
      rintro _ _ h hnil
      rw [List.map_eq_nil_iff.1 hnil] at h
      cases h
    exact texts_eq_of_joined hdots hdots' (hne h) (hne h') hpath
  | _ =>
    have hvalue : '.' ∉ "value".toList := by decide
    exact List.tail_eq_of_cons_eq (texts_eq_of_joined (List.forall_mem_cons.2 ⟨hvalue, hdots⟩)
      (List.forall_mem_cons.2 ⟨hvalue, hdots'⟩) (List.cons_ne_nil _ _) (List.cons_ne_nil _ _) hpath)

end Json

namespace Record

variable {j : Json} {field : String} {v : Value}

theorem leavesOfFields_eq (path : String) (es : List (String × Json)) :
    leavesOfFields path es = es.flatMap fun e => leaves (under path e.1) e.2 := by
  induction es with
  | nil => rfl
  | cons e es ih => rw [leavesOfFields, ih, List.flatMap_cons]

theorem leavesOfItems_eq (path : String) (position : Nat) (js : List Json) :
    leavesOfItems path position js =
      (js.zipIdx position).flatMap fun x => leaves (under path (Nat.repr x.2)) x.1 := by
  induction js generalizing position with
  | nil => rfl
  | cons j js ih => rw [leavesOfItems, ih, List.zipIdx_cons, List.flatMap_cons]

theorem leaves_scalar (path : String) (h : Value.ofJson? j = some v) :
    leaves path j = [(path, v)] := by
  cases j with
  | fields es => cases h
  | list js => cases h
  | unusable => cases h
  | _ => cases h; rfl

theorem leaves_container (path : String) (h : Value.ofJson? j = none) :
    leaves path j = j.parts.flatMap fun x => leaves (under path x.1.text) x.2 := by
  cases j with
  | fields es => rw [leaves, leavesOfFields_eq, Json.parts, List.flatMap_map]; rfl
  | list js => rw [leaves, leavesOfItems_eq, Json.parts, List.flatMap_map]; rfl
  | unusable => rfl
  | _ => cases h

theorem leaves_eq_walk (path : String) (j : Json) :
    leaves path j = j.walk.map fun leaf =>
      (".".intercalate (path :: leaf.1.map Json.Step.text), leaf.2) := by
  induction j using Json.part_induction generalizing path with
  | step j ih =>
    cases hscalar : Value.ofJson? j with
    | some v => rw [leaves_scalar path hscalar, Json.walk_scalar hscalar]; rfl
    | none =>
      rw [leaves_container path hscalar, Json.walk_container hscalar, List.map_flatMap]
      refine List.flatMap_congr fun x hx => ?_
      rw [ih x.1 x.2 hx, List.map_map]
      rfl

theorem documentLeaves_eq_walk (j : Json) :
    documentLeaves j = j.walk.map fun leaf => (j.path leaf.1, leaf.2) := by
  cases j with
  | fields es =>
    rw [Json.walk_container rfl, List.map_flatMap, Json.parts, List.flatMap_map]
    refine List.flatMap_congr fun e he => ?_
    rw [List.map_map]
    exact leaves_eq_walk e.1 e.2
  | _ => exact leaves_eq_walk ..

/-- Of the leaves on a path, the one whose steps come last is stored. -/
theorem stored?_ofJson_iff (hj : j.IsValue) :
    (ofJson j).stored? field = some v ↔ ∃ steps, j.LastLeaf field steps v := by
  rw [stored?, ofJson, ofList, documentLeaves_eq_walk, Table.get?_ofList_iff]
  constructor
  · rintro ⟨before, after, hsplit, hafter⟩
    obtain ⟨earlier, rest, hwalk, -, hrest⟩ := List.map_eq_append_iff.1 hsplit
    obtain ⟨⟨steps, w⟩, later, rfl, hleaf, rfl⟩ := List.map_eq_cons_iff.1 hrest
    cases hleaf
    refine ⟨steps, hj.mem_walk.1 (by simp [hwalk]), rfl, fun steps' v' hleaf' hpath => ?_⟩
    have hmem := hj.mem_walk.2 hleaf'
    rw [hwalk, List.mem_append, List.mem_cons] at hmem
    rcases hmem with hearlier | heq | hlater
    · exact .inr ((hj.walk_around hwalk).1 _ hearlier)
    · exact .inl (congrArg Prod.fst heq)
    · exact absurd hpath (hafter _ (List.mem_map_of_mem hlater))
  · rintro ⟨steps, hleaf, rfl, hlast⟩
    obtain ⟨earlier, later, hwalk⟩ := List.append_of_mem (hj.mem_walk.2 hleaf)
    refine ⟨_, _, by rw [hwalk, List.map_append, List.map_cons], ?_⟩
    intro e he hpath
    obtain ⟨⟨steps', v'⟩, hlater, rfl⟩ := List.mem_map.1 he
    have hbefore : List.Lex Json.Step.Before steps steps' := (hj.walk_around hwalk).2 _ hlater
    have hasymm := (List.Lex.asymm Json.Step.Before).asymm _ _ hbefore
    have hleaf' : j.leaf? steps' = some v' := hj.mem_walk.1 (by simp [hwalk, hlater])
    rcases hlast steps' v' hleaf' hpath with rfl | hafter
    · exact hasymm hbefore
    · exact hasymm hafter

theorem isSome_stored?_ofJson (hj : j.IsValue) :
    ((ofJson j).stored? field).isSome = true ↔
      ∃ steps v, j.leaf? steps = some v ∧ j.path steps = field := by
  rw [stored?, ← Table.mem_keys, ofJson, ofList, documentLeaves_eq_walk, Table.mem_keys_ofList,
    List.map_map]
  constructor
  · intro hmem
    obtain ⟨⟨steps, v⟩, hleaf, rfl⟩ := List.mem_map.1 hmem
    exact ⟨steps, v, hj.mem_walk.1 hleaf, rfl⟩
  · rintro ⟨steps, v, hleaf, rfl⟩
    exact List.mem_map.2 ⟨_, hj.mem_walk.2 hleaf, rfl⟩

theorem isFinite_ofJson (hj : j.IsValue) (hfinite : j.Finite) : (ofJson j).isFinite = true := by
  refine List.all_eq_true.2 fun e he => ?_
  have hstored : (ofJson j).stored? e.1 = some e.2 :=
    (Entries.lookup_eq_some_iff_mem (ofJson j).table.increasing.nodup).2 he
  obtain ⟨steps, hleaf, -, -⟩ := (stored?_ofJson_iff hj).1 hstored
  obtain ⟨part, hat, hvalue⟩ := Json.leaf?_iff.1 hleaf
  exact Value.isFinite_of_ofJson? (hfinite.at? hat) hvalue

theorem isFinite_of_ofObject? {r : Record} (hfinite : j.Finite) (h : ofObject? j = some r) :
    r.isFinite = true := by
  cases j with
  | fields es =>
    obtain ⟨value, hvalue, rfl⟩ := Option.map_eq_some_iff.1 h
    exact isFinite_ofJson ⟨_, hvalue⟩ (hfinite.value? hvalue)
  | _ => cases h

structure Flattens (j : Json) (r : Record) : Prop where
  fields : ∀ field, (r.stored? field).isSome = true ↔
    ∃ steps v, j.leaf? steps = some v ∧ j.path steps = field
  last : ∀ field v, r.stored? field = some v ↔ ∃ steps, j.LastLeaf field steps v
  /-- Without dots in keys every leaf has a field of its own. -/
  own : j.DotFree → ∀ steps v, j.leaf? steps = some v → r.stored? (j.path steps) = some v ∧
    ∀ steps' v', j.leaf? steps' = some v' → j.path steps' = j.path steps → steps' = steps
  again : ofJson r.toJson = r

/-- The value of a document is flattened without loss. -/
theorem flattens_ofJson {document j : Json} (hvalue : document.value? = some j)
    (hfinite : j.Finite) : Flattens j (ofJson j) := by
  have hj : j.IsValue := ⟨document, hvalue⟩
  constructor
  case fields => exact fun field => isSome_stored?_ofJson hj
  case last => exact fun field v => stored?_ofJson_iff hj
  case own =>
    intro hdots steps v hleaf
    have hown : ∀ steps' v', j.leaf? steps' = some v' → j.path steps' = j.path steps →
        steps' = steps := fun steps' v' hleaf' hpath => hdots.steps_eq_of_path hleaf' hleaf hpath
    refine ⟨(stored?_ofJson_iff hj).2 ⟨steps, hleaf, rfl, ?_⟩, hown⟩
    exact fun steps' v' hleaf' hpath => .inl (hown steps' v' hleaf' hpath)
  case again =>
    rw [ofJson, documentLeaves_toJson]
    exact written_of_isFinite (isFinite_ofJson hj hfinite)

def collision : Json :=
  .fields [("a", .fields [("b", .text "inner")]), ("a.b", .text "outer"), ("c", .list [.null])]

theorem flattens_ofJson_collision : Flattens collision (ofJson collision) ∧
    (ofJson collision).entries = [("a.b", .text "outer"), ("c.0", .absent)] := by
  have hvalue : collision.value? = some collision := rfl
  have hfinite : collision.Finite := by
    simp [collision, Json.Finite.fields, Json.Finite.list, Json.Finite.text, Json.Finite.null]
  exact ⟨flattens_ofJson hvalue hfinite, rfl⟩

end Record

end Rulebook
