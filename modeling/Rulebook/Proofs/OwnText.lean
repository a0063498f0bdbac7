import Rulebook.Proofs.RuleSetText
import Rulebook.Proofs.Snapshot
/-!
The two ways in which a rule set is written: by itself, and as its definition in a snapshot. Main
statement: they come to one text, so that a rule set is read alike from either.
-/

set_option autoImplicit false

namespace Rulebook

namespace RuleSet

theorem Compiled.read?_text {s : RuleSet} (h : s.Compiled) :
    Definition.read? s.toJson.compact = some s.toDefinition.written ∧
      Definition.read? s.toJson.pretty = some s.toDefinition.written := by
  have hread : Definition.ofJson? s.toJson = some s.toDefinition.written := by
    rw [toJson_eq, h.ofJson?]
  rw [Definition.read?, Definition.read?, Json.read?_compact s.toJson_fits,
    Json.read?_pretty s.toJson_fits]
  exact ⟨hread, hread⟩

end RuleSet

namespace Snapshot

theorem text_eq_documents {g : Registry} (h : g.Keyed) :
    text g.list = (Json.fields [("rulesets",
      .fields (g.table.entries.map fun e => (e.1, e.2.toJson)))]).pretty := by
  rw [text, toJson_of_perm h g.list_perm, h.entries_eq fun s => s.toDefinition.toJson]
  simp only [RuleSet.toJson_eq]

end Snapshot

namespace RuleSet

/-- A rule set and its definition have the same text, compact and indented. A snapshot consists of
these texts, and each rule set is read from it as from its own text. -/
theorem text_as_definition (s : RuleSet) :
    s.toJson.compact = s.toDefinition.toJson.compact ∧
    s.toJson.pretty = s.toDefinition.toJson.pretty ∧
    ∀ g : Registry, g.Sound →
      Snapshot.text g.list = (Json.fields [("rulesets",
        .fields (g.table.entries.map fun e => (e.1, e.2.toJson)))]).pretty ∧
      Snapshot.read? (Snapshot.text g.list) =
        some (g.list.map fun s => s.toDefinition.written) ∧
      ∀ s ∈ g.list, Definition.read? s.toJson.compact = some s.toDefinition.written ∧
        Definition.read? s.toJson.pretty = some s.toDefinition.written := by
  refine ⟨by rw [toJson_eq], by rw [toJson_eq], fun g h => ⟨?_, ?_, fun s hs => ?_⟩⟩
  · exact Snapshot.text_eq_documents h.keyed
  · exact Snapshot.read?_text h
  · exact (h.mem_list hs).read?_text

theorem text_as_definition_uneven :
    ∃ s g, unevenDefinition.compile .epoch = .ok s ∧ Registry.Sound g ∧ s ∈ g.list ∧
      s.toJson.pretty = s.toDefinition.toJson.pretty ∧
      Definition.read? s.toJson.pretty = some s.toDefinition.written := by
  have hok : (unevenDefinition.compile .epoch).isOk = true := by decide +kernel
  cases hs : unevenDefinition.compile .epoch with
  | error fault =>
    rw [hs] at hok
    cases hok
  | ok s =>
    have hepoch : Instant.epoch.Valid := ⟨by decide, by decide, by decide, by decide⟩
    have hcompiled : s.Compiled := compiled_of_compile hs hepoch fun t ht => by cases ht
    obtain ⟨hsound, hperm⟩ := Registry.sound_empty.insert rfl hcompiled
    have hmem : s ∈ Registry.list ⟨Registry.empty.table.insert s.id s⟩ :=
      (Registry.list_perm _).mem_iff.2 (hperm.mem_iff.1 (List.mem_append_right _ (.head _)))
    obtain ⟨-, hpretty, hstored⟩ := text_as_definition s
    exact ⟨s, _, rfl, hsound, hmem, hpretty, ((hstored _ hsound).2.2 s hmem).2⟩

end RuleSet

end Rulebook
