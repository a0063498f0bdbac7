import Rulebook.Proofs.Instant
import Rulebook.Proofs.Json.Fields
import Rulebook.Proofs.Recompilation
import Rulebook.Proofs.Value
/-!
Definitions read back. The definition of a compiled rule set comes back from its document as it was,
except for constants that are not finite: these come back without a value.
-/

set_option autoImplicit false

namespace Rulebook

namespace Mode

theorem ofJson?_name (m : Mode) : ofJson? (.text m.name) = some m := by cases m <;> rfl

end Mode

namespace Outcome

theorem toJson_fits (o : Outcome) (room : Nat) : Json.Fits (room + 1) o.toJson := by
  cases o with
  | action name => exact .fields (by simp [Json.Fits.text])
  | contribution score => exact .fields (by simp [Json.Fits.text, score.toJson_fits])
  | violation message => exact .fields (by simp [Json.Fits.text])

theorem ofJson?_toJson (o : Outcome) : ofJson? o.toJson = some o := by
  cases o with
  | action name => rfl
  | contribution score =>
    change (Score.ofJson? score.toJson).map Outcome.contribution = some (.contribution score)
    rw [score.ofJson?_toJson, Option.map_some]
  | violation message => rfl

theorem optional?_toJson (o : Option Outcome) :
    Json.optional? ofJson? (some ((o.map toJson).getD .null)) = some o := by
  cases o with
  | none => rfl
  | some o =>
    have hnull : ∀ j, j = o.toJson → Json.optional? ofJson? (some j) = (ofJson? j).map some := by
      rintro _ rfl
      cases o <;> rfl
    rw [Option.map_some, Option.getD_some, hnull _ rfl, ofJson?_toJson, Option.map_some]

end Outcome

namespace Clause

theorem toJson_fits (c : Condition) (room : Nat) :
    Json.Fits (room + 1) (ofCondition c).toJson :=
  .fields (by simp [Json.Fits.text, c.literal.toJson_fits])

theorem ofJson?_toJson (c : Condition) :
    ofJson? (ofCondition c).toJson = some (ofCondition c) := by
  change (do pure (structured c.field c.operator.symbol (← c.literal.toJson.value?))) = _
  rw [c.literal.value?_toJson]
  rfl

end Clause

namespace RuleDefinition

theorem conditions_fits (rule : Rule) (room : Nat) :
    Json.Fits (room + 2) (ofRule rule).conditions.toJson := by
  refine .list fun j hj => ?_
  obtain ⟨clause, hclause, rfl⟩ := List.mem_map.1 hj
  obtain ⟨c, -, rfl⟩ := List.mem_map.1 hclause
  exact Clause.toJson_fits c room

theorem toJson_fits (rule : Rule) (room : Nat) : Json.Fits (room + 3) (ofRule rule).toJson :=
  .fields (by simp [Json.Fits.text, conditions_fits, Outcome.toJson_fits])

theorem conditions_ofJson?_toJson (rule : Rule) :
    Clauses.ofJson? (ofRule rule).conditions.toJson = some (ofRule rule).conditions := by
  obtain ⟨v, hv⟩ := Json.value?_of_fits (conditions_fits rule 0)
  have hitems : ((rule.conditions.map Clause.ofCondition).map Clause.toJson).mapM Clause.ofJson? =
      some (rule.conditions.map Clause.ofCondition) := by
    refine Json.mapM_map_self fun clause hclause => ?_
    obtain ⟨c, -, rfl⟩ := List.mem_map.1 hclause
    exact Clause.ofJson?_toJson c
  simp only [ofRule, Clauses.toJson] at hv ⊢
  simp only [Clauses.ofJson?, hv, hitems, Option.bind_eq_bind, Option.bind_some, Option.map_some]

theorem ofJson?_toJson (rule : Rule) : ofJson? (ofRule rule).toJson = some (ofRule rule) := by
  have hfields : (ofRule rule).toJson.structure? ["id", "name", "conditions", "outcome"] =
      some [some (.text rule.id), some (.text rule.name),
        some (ofRule rule).conditions.toJson, some rule.outcome.toJson] := rfl
  have hconditions := conditions_ofJson?_toJson rule
  have houtcome := rule.outcome.ofJson?_toJson
  simp only [ofJson?, hfields, Json.required?, Json.withDefault?, Json.text?, hconditions, houtcome,
    Option.bind_eq_bind, Option.bind_some, Option.pure_def]
  rfl

end RuleDefinition

namespace Operand

theorem toJson_fits (o : Operand) (room : Nat) : Json.Fits room o.toJson := by
  cases o with
  | constant x => exact (Value.number x).toJson_fits room
  | field name => exact .text name

theorem ofJson?_toJson {o : Operand} (h : o.fault? = none) : ofJson? o.toJson = some o := by
  cases o with
  | constant x =>
    have hx : x.isFinite = true := by simpa [fault?] using h
    simp [toJson, Value.toJson, hx, ofJson?, Json.Number.toFloat]
  | field name => rfl

end Operand

namespace Derivation

def written : Derivation → Derivation
  | .constant target value => .constant target value.written
  | d => d

def isFinite : Derivation → Bool
  | .constant _ value => value.isFinite
  | _ => true

theorem written_of_isFinite {d : Derivation} (h : d.isFinite = true) : d.written = d := by
  cases d with
  | constant target value =>
    have hv : value.isFinite = true := h
    simp [written, Value.written, hv]
  | copy => rfl
  | arithmetic => rfl

theorem isFinite_of_written {d : Derivation} (h : d.written.fault? = none) : d.isFinite = true := by
  cases d with
  | constant target value =>
    cases hv : value.isFinite with
    | true => exact hv
    | false =>
      simp only [written, Value.written, hv, Bool.false_eq_true, if_false, fault?] at h
      split at h <;> cases h
  | copy => rfl
  | arithmetic => rfl

theorem toJson_fits (d : Derivation) (room : Nat) : Json.Fits (room + 1) d.toJson := by
  cases d with
  | copy source target => exact .fields (by simp [Json.Fits.text])
  | constant target value => exact .fields (by simp [Json.Fits.text, value.toJson_fits])
  | arithmetic target left op right =>
    exact .fields (by simp [Json.Fits.text, left.toJson_fits, right.toJson_fits])

theorem ofKind?_copy (source target : String) :
    ofKind? "copy" (.fields [("from", .text source), ("to", .text target)]) =
      some (.copy source target) := rfl

theorem ofKind?_constant (target : String) (value : Value) :
    ofKind? "constant" (.fields [("to", .text target), ("value", value.toJson)]) =
      some (.constant target value.written) := by
  have hfields : (Json.fields [("to", .text target), ("value", value.toJson)]).structure?
      ["to", "value"] = some [some (.text target), some value.toJson] := rfl
  simp [ofKind?, hfields, Json.required?, Json.text?, value.ofJson?_toJson]

theorem ofKind?_arithmetic (target : String) {left right : Operand} (op : Arithmetic)
    (hleft : left.fault? = none) (hright : right.fault? = none) :
    ofKind? "arithmetic" (.fields [("to", .text target), ("left", left.toJson),
      ("op", .text op.name), ("right", right.toJson)]) =
      some (.arithmetic target left op right) := by
  have hfields : (Json.fields [("to", .text target), ("left", left.toJson), ("op", .text op.name),
      ("right", right.toJson)]).structure? ["to", "left", "op", "right"] =
        some [some (.text target), some left.toJson, some (.text op.name), some right.toJson] := rfl
  have hop : arithmeticOfJson? (.text op.name) = some op := by cases op <;> rfl
  simp [ofKind?, hfields, Json.required?, Json.text?, hop, Operand.ofJson?_toJson hleft,
    Operand.ofJson?_toJson hright]

theorem ofJson?_toJson {d : Derivation} (h : d.fault? = none) :
    ofJson? d.toJson = some d.written := by
  obtain ⟨v, hv⟩ := Json.value?_of_fits (d.toJson_fits 0)
  cases d with
  | copy source target =>
    simp only [ofJson?, hv, Option.bind_eq_bind, Option.bind_some]
    exact ofKind?_copy source target
  | constant target value =>
    simp only [ofJson?, hv, Option.bind_eq_bind, Option.bind_some]
    exact ofKind?_constant target value
  | arithmetic target left op right =>
    have hfaults : left.fault? = none ∧ right.fault? = none := by
      unfold fault? at h
      split at h
      · cases h
      · simpa using h
    simp only [ofJson?, hv, Option.bind_eq_bind, Option.bind_some]
    exact ofKind?_arithmetic target op hfaults.1 hfaults.2

end Derivation

namespace Definition

def written (d : Definition) : Definition := { d with derived := d.derived.map Derivation.written }

theorem structure?_toJson (d : Definition) :
    d.toJson.structure? ["id", "name", "description", "rules", "evaluation_mode",
      "fallback_outcome", "derived_fields", "defined_at"] =
      some [some (.text d.id), some (.text d.name), d.description.map .text,
        some (.list (d.rules.map RuleDefinition.toJson)), some (.text d.mode.name),
        some ((d.fallback.map Outcome.toJson).getD .null),
        if d.derived.isEmpty then none else some (.list (d.derived.map Derivation.toJson)),
        d.definedAt.map Instant.toJson] := by
  obtain ⟨id, name, description, rules, mode, fallback, derived, definedAt⟩ := d
  cases description <;> cases derived <;> cases definedAt <;> rfl

end Definition

namespace RuleSet

theorem toDefinition_fits (s : RuleSet) (room : Nat) :
    Json.Fits (room + 5) s.toDefinition.toJson := by
  have hrules : Json.Fits (room + 4) (.list (s.toDefinition.rules.map RuleDefinition.toJson)) := by
    refine .list fun j hj => ?_
    obtain ⟨d, hd, rfl⟩ := List.mem_map.1 hj
    obtain ⟨rule, -, rfl⟩ := List.mem_map.1 hd
    exact RuleDefinition.toJson_fits rule room
  have hfallback : Json.Fits (room + 4) ((s.fallback.map Outcome.toJson).getD .null) := by
    cases s.fallback with
    | none => exact .null
    | some o => exact o.toJson_fits (room + 3)
  have hderived : Json.Fits (room + 4) (.list (s.derived.map Derivation.toJson)) := by
    refine .list fun j hj => ?_
    obtain ⟨d, -, rfl⟩ := List.mem_map.1 hj
    exact d.toJson_fits (room + 2)
  refine .fields ?_
  simp only [toDefinition, List.forall_mem_append]
  refine ⟨⟨⟨⟨by simp [Json.Fits.text], ?_⟩, ?_⟩, ?_⟩, by simp [Json.Fits.text, Instant.toJson]⟩
  · cases s.description <;> simp [Json.Fits.text]
  · exact List.forall_mem_cons.2 ⟨hrules, by simp [Json.Fits.text, hfallback]⟩
  · by_cases h : s.derived.isEmpty = true <;> simp [h, hderived]

theorem ofJson?_toDefinition {s : RuleSet} (hderived : ∀ d ∈ s.derived, d.fault? = none)
    (ht : s.definedAt.Valid) :
    Definition.ofJson? s.toDefinition.toJson = some s.toDefinition.written := by
  have hrules : Json.listOf? RuleDefinition.ofJson?
      (.list (s.toDefinition.rules.map RuleDefinition.toJson)) = some s.toDefinition.rules := by
    refine Json.listOf?_map fun d hd => ?_
    obtain ⟨rule, -, rfl⟩ := List.mem_map.1 hd
    exact RuleDefinition.ofJson?_toJson rule
  have hdescription : Json.optional? Json.text? (s.toDefinition.description.map .text) =
      some s.toDefinition.description := by
    cases s.toDefinition.description <;> rfl
  have hmode := Mode.ofJson?_name s.toDefinition.mode
  have hfallback := Outcome.optional?_toJson s.toDefinition.fallback
  have hlist : Json.listOf? Derivation.ofJson? (.list (s.derived.map Derivation.toJson)) =
      some (s.derived.map Derivation.written) :=
    Json.mapM_map fun d hd => Derivation.ofJson?_toJson (hderived d hd)
  have hwithDefault : Json.withDefault? [] (Json.listOf? Derivation.ofJson?)
      (if s.toDefinition.derived.isEmpty then none
        else some (.list (s.toDefinition.derived.map Derivation.toJson))) =
      some (s.derived.map Derivation.written) := by
    change Json.withDefault? [] _ (if s.derived.isEmpty then none else some _) = _
    split
    · simp_all [Json.withDefault?]
    · exact hlist
  have htime : Json.optional? Instant.ofJson? (s.toDefinition.definedAt.map Instant.toJson) =
      some (some s.definedAt) := by
    change (Instant.read? s.definedAt.text).map some = _
    rw [Instant.read?_text ht, Option.map_some]
  simp only [Definition.ofJson?, Definition.structure?_toJson, Json.required?, Json.text?, hrules,
    hdescription, hfallback, hwithDefault, htime, Option.bind_eq_bind, Option.bind_some,
    Option.pure_def]
  simp only [Json.withDefault?, hmode, Option.bind_some]
  rfl

@[simp] theorem written_id (s : RuleSet) : s.toDefinition.written.id = s.id := rfl

/-- A rule set that came out of the compiler, at a time of the calendar. -/
structure Compiled (s : RuleSet) : Prop where
  stable : ∀ now, s.toDefinition.compile now = .ok s
  time : s.definedAt.Valid

theorem compiled_of_compile {now : Instant} {d : Definition} {s : RuleSet}
    (h : d.compile now = .ok s) (hnow : now.Valid) (hd : ∀ t ∈ d.definedAt, t.Valid) :
    s.Compiled := by
  refine ⟨Definition.compile_toDefinition h, ?_⟩
  rw [Definition.definedAt_of_compile h]
  cases ht : d.definedAt with
  | none => exact hnow
  | some t => exact hd t ht

def isFinite (s : RuleSet) : Bool := s.derived.all Derivation.isFinite

theorem Compiled.ofJson? {s : RuleSet} (h : s.Compiled) :
    Definition.ofJson? s.toDefinition.toJson = some s.toDefinition.written := by
  obtain ⟨-, -, hderived, -⟩ := Definition.compile_eq_ok.1 (h.stable .epoch)
  exact ofJson?_toDefinition hderived h.time

theorem written_of_isFinite {s : RuleSet} (h : s.isFinite = true) :
    s.toDefinition.written = s.toDefinition := by
  have hmap : s.derived.map Derivation.written = s.derived := by
    have heach := List.all_eq_true.1 h
    calc
      s.derived.map Derivation.written = s.derived.map fun d => d :=
        List.map_congr_left fun d hd => Derivation.written_of_isFinite (heach d hd)
      _ = s.derived := List.map_id' _
  rw [Definition.written, show s.toDefinition.derived = s.derived from rfl, hmap]
  rfl

/-- What is written of a rule set compiles to it if its constants are finite. -/
theorem Compiled.compile_written {s : RuleSet} (h : s.Compiled) (hfinite : s.isFinite = true)
    (now : Instant) : s.toDefinition.written.compile now = .ok s := by
  rw [written_of_isFinite hfinite, h.stable]

theorem isFinite_of_compile_written {s s' : RuleSet} {now : Instant}
    (h : s.toDefinition.written.compile now = .ok s') : s.isFinite = true := by
  obtain ⟨-, -, hderived, -⟩ := Definition.compile_eq_ok.1 h
  refine List.all_eq_true.2 fun d hd => Derivation.isFinite_of_written (hderived _ ?_)
  exact List.mem_map_of_mem hd

end RuleSet

end Rulebook
