import Rulebook.Proofs.Definition
import Rulebook.Proofs.Json.Finite
/-!
The text of a rule set as a format. A rule set that was compiled from a text is compiled again from
its own text, compact or indented, to the same rule set: what is read holds finite constants and
instants of the calendar only, so that nothing is lost when it is written.
-/

set_option autoImplicit false

namespace Rulebook

namespace Value

theorem isFinite_of_ofJson? {j : Json} {v : Value} (hj : j.Finite) (h : ofJson? j = some v) :
    v.isFinite = true := by
  cases hj with
  | number finite =>
    cases h
    exact finite
  | null => cases h; rfl
  | bool b => cases h; rfl
  | text s => cases h; rfl
  | list parts => cases h
  | fields parts => cases h
  | unusable => cases h

end Value

namespace Derivation

theorem isFinite_of_ofKind? {kind : String} {j : Json} {d : Derivation} (hj : j.Finite)
    (h : ofKind? kind j = some d) : d.isFinite = true := by
  unfold ofKind? at h
  split at h
  · obtain ⟨parts, -, h⟩ := Option.bind_eq_some_iff.1 h
    split at h
    · obtain ⟨source, -, h⟩ := Option.bind_eq_some_iff.1 h
      obtain ⟨target, -, h⟩ := Option.bind_eq_some_iff.1 h
      cases h
      rfl
    · cases h
  · obtain ⟨parts, hparts, h⟩ := Option.bind_eq_some_iff.1 h
    split at h
    · rename_i constant
      obtain ⟨target, -, h⟩ := Option.bind_eq_some_iff.1 h
      obtain ⟨value, hvalue, h⟩ := Option.bind_eq_some_iff.1 h
      cases h
      cases constant with
      | none => cases hvalue
      | some part => exact Value.isFinite_of_ofJson? (hj.structure? hparts (by simp)) hvalue
    · cases h
  · obtain ⟨parts, -, h⟩ := Option.bind_eq_some_iff.1 h
    split at h
    · obtain ⟨target, -, h⟩ := Option.bind_eq_some_iff.1 h
      obtain ⟨left, -, h⟩ := Option.bind_eq_some_iff.1 h
      obtain ⟨op, -, h⟩ := Option.bind_eq_some_iff.1 h
      obtain ⟨right, -, h⟩ := Option.bind_eq_some_iff.1 h
      cases h
      rfl
    · cases h
  · cases h

theorem isFinite_of_ofJson? {j : Json} {d : Derivation} (hj : j.Finite) (h : ofJson? j = some d) :
    d.isFinite = true := by
  obtain ⟨value, -, h⟩ := Option.bind_eq_some_iff.1 h
  cases hj with
  | fields parts =>
    obtain ⟨kind, -, h⟩ := Option.bind_eq_some_iff.1 h
    split at h
    · exact isFinite_of_ofKind? (.fields fun e he => parts e (List.mem_of_mem_filter he)) h
    · cases h
  | list parts =>
    split at h
    · rename_i heq
      cases heq
    · rename_i heq
      cases heq
      exact isFinite_of_ofKind? (.list (List.forall_mem_cons.1 parts).2) ‹_›
    · cases h
  | _ => cases h

end Derivation

namespace Definition

/-- What is read of a definition is not lost when it is written. -/
theorem writable_of_ofJson? {j : Json} {d : Definition} (hj : j.Finite) (h : ofJson? j = some d) :
    (∀ x ∈ d.derived, x.isFinite = true) ∧ ∀ t ∈ d.definedAt, t.Valid := by
  obtain ⟨parts, hparts, h⟩ := Option.bind_eq_some_iff.1 h
  split at h
  · rename_i id name description rules mode fallback derived time
    obtain ⟨_, -, h⟩ := Option.bind_eq_some_iff.1 h
    obtain ⟨_, -, h⟩ := Option.bind_eq_some_iff.1 h
    obtain ⟨_, -, h⟩ := Option.bind_eq_some_iff.1 h
    obtain ⟨_, -, h⟩ := Option.bind_eq_some_iff.1 h
    obtain ⟨_, -, h⟩ := Option.bind_eq_some_iff.1 h
    obtain ⟨_, -, h⟩ := Option.bind_eq_some_iff.1 h
    obtain ⟨ds, hds, h⟩ := Option.bind_eq_some_iff.1 h
    obtain ⟨t, ht, h⟩ := Option.bind_eq_some_iff.1 h
    cases h
    refine ⟨fun x hx => ?_, fun u hu => ?_⟩
    · cases derived with
      | none =>
        cases hds
        cases hx
      | some part =>
        have hpart : part.Finite := hj.structure? hparts (by simp)
        cases hpart with
        | list items =>
          obtain ⟨item, hitem, hread⟩ := Json.exists_of_mem_mapM hds hx
          exact Derivation.isFinite_of_ofJson? (items item hitem) hread
        | _ => cases hds
    · cases hu
      obtain ⟨part, -, hread⟩ := Json.decoded_of_optional? ht
      cases part with
      | text s => exact Instant.valid_of_read? hread
      | _ => cases hread
  · cases h

end Definition

namespace RuleSet

theorem toJson_eq (s : RuleSet) : s.toJson = s.toDefinition.toJson := by
  have hrules : s.toDefinition.rules.map RuleDefinition.toJson = s.rules.map Rule.toJson := by
    simp only [toDefinition, List.map_map]
    refine List.map_congr_left fun rule _ => ?_
    have hconditions : (rule.conditions.map Clause.ofCondition).map Clause.toJson =
        rule.conditions.map Condition.toJson := List.map_map
    exact congrArg (fun conditions => Json.fields [("id", .text rule.id), ("name", .text rule.name),
      ("conditions", .list conditions), ("outcome", rule.outcome.toJson)]) hconditions
  rw [Definition.toJson, hrules]
  rfl

theorem toJson_fits (s : RuleSet) : Json.Fits Json.depthLimit s.toJson := by
  rw [toJson_eq]
  exact s.toDefinition_fits 122

theorem compiled_of_compileText {now : Instant} {text : String} {s : RuleSet}
    (hnow : now.Valid) (h : Definition.compileText now text = .ok s) :
    s.Compiled ∧ s.isFinite = true := by
  unfold Definition.compileText at h
  split at h
  · rename_i d hread
    obtain ⟨j, hj, hd⟩ := Option.bind_eq_some_iff.1 hread
    obtain ⟨hfinite, htime⟩ := Definition.writable_of_ofJson? (Json.finite_of_read? hj) hd
    have hcompiled := compiled_of_compile h hnow htime
    rw [← Definition.derived_of_compile h] at hfinite
    exact ⟨hcompiled, List.all_eq_true.2 hfinite⟩
  · cases h

/-- A compiled rule set is read from its document and compiled to itself. -/
theorem Compiled.compile_ofJson? {s : RuleSet} (h : s.Compiled) (hfinite : s.isFinite = true) :
    ∃ d, Definition.ofJson? s.toJson = some d ∧ ∀ later, d.compile later = .ok s :=
  ⟨s.toDefinition.written, by rw [toJson_eq, h.ofJson?], h.compile_written hfinite⟩

theorem Compiled.compileText {s : RuleSet} (h : s.Compiled) (hfinite : s.isFinite = true)
    {text : String} (htext : Json.read? text = some s.toJson) (later : Instant) :
    Definition.compileText later text = .ok s := by
  obtain ⟨d, hd, hcompile⟩ := h.compile_ofJson? hfinite
  have hread : Definition.read? text = some d := by
    rw [Definition.read?, htext, Option.bind_some, hd]
  rw [Definition.compileText, hread]
  exact hcompile later

/-- The text of a compiled rule set is a faithful format: read again, at any time and on its own or
as a part of another document, it is the same rule set, which is written as the same text. -/
theorem text_faithful {now : Instant} {text : String} {s : RuleSet} (hnow : now.Valid)
    (h : Definition.compileText now text = .ok s) :
    (∃ d, Definition.ofJson? s.toJson = some d ∧ ∀ later, d.compile later = .ok s) ∧
    (∀ written ∈ [s.toJson.compact, s.toJson.pretty], ∀ later,
      Definition.compileText later written = .ok s) ∧
    ∀ later s', Definition.compileText later s.toJson.compact = .ok s' →
      s'.requiredFields = s.requiredFields ∧ s'.toJson.compact = s.toJson.compact := by
  obtain ⟨hcompiled, hfinite⟩ := compiled_of_compileText hnow h
  have hcompact : ∀ later, Definition.compileText later s.toJson.compact = .ok s :=
    hcompiled.compileText hfinite (Json.read?_compact s.toJson_fits)
  have hpretty : ∀ later, Definition.compileText later s.toJson.pretty = .ok s :=
    hcompiled.compileText hfinite (Json.read?_pretty s.toJson_fits)
  refine ⟨hcompiled.compile_ofJson? hfinite, by simp [hcompact, hpretty], ?_⟩
  intro later s' hagain
  rw [hcompact later] at hagain
  cases hagain
  exact ⟨rfl, rfl⟩

def tariffText : String :=
  "[\"tariff\",\"T\",null,[[\"r\",\"\",\x7b\"code_eq\":\"042\"\x7d,[\"action\",\"no\"]]," ++
    "[\"s\",\"\",[\"weight >= 7\"],[\"action\",\"ok\"]]],\"first_match\",null," ++
    "[[\"constant\",\"rate\",3]]]"

theorem text_faithful_tariff :
    ∃ s, Definition.compileText .epoch tariffText = .ok s ∧
      ∀ later, Definition.compileText later s.toJson.compact = .ok s := by
  have hepoch : Instant.epoch.Valid := ⟨by decide, by decide, by decide, by decide⟩
  have hok : (Definition.compileText .epoch tariffText).isOk = true := by decide +kernel
  cases hs : Definition.compileText .epoch tariffText with
  | error fault =>
    rw [hs] at hok
    cases hok
  | ok s => exact ⟨s, rfl, (text_faithful hepoch hs).2.1 _ List.mem_cons_self⟩

end RuleSet

end Rulebook
