import Mathlib.Data.Set.List
import Rulebook.Proofs.Recompilation
import Rulebook.Proofs.Splits
import Rulebook.Proofs.Table
/-!
What makes a definition valid, and what is reported if it is not. Main statement: the valid
definitions are compiled, to well-formed rule sets, and of any other the first fault is reported.
-/

set_option autoImplicit false

namespace Rulebook

/-! ## Rules -/

namespace RuleDefinition

structure Sound (seen : List String) (d : RuleDefinition) : Prop where
  named : Text.allBlank d.id = false
  new : d.id ∉ seen
  inhabited : d.conditions.lowered ≠ []
  lowers : ∀ x ∈ d.conditions.lowered, ∃ c, x = .ok c

/-- What is reported of a rule that comes after rules with these identifiers. -/
inductive Fault (ruleSet : String) (seen : List String) (d : RuleDefinition) :
    DefinitionError → Prop where
  | blankId (blank : Text.allBlank d.id = true) : Fault ruleSet seen d (.blankIdentifier .ruleId)
  | repeatedId (named : Text.allBlank d.id = false) (known : d.id ∈ seen) :
      Fault ruleSet seen d (.duplicateRuleId ruleSet d.id)
  | condition (named : Text.allBlank d.id = false) (new : d.id ∉ seen)
      {before : List Condition} {reason : ConditionError}
      {after : List (Except ConditionError Condition)}
      (split : d.conditions.lowered = before.map .ok ++ .error reason :: after) :
      Fault ruleSet seen d (.invalidCondition d.id before.length reason)
  | noConditions (named : Text.allBlank d.id = false) (new : d.id ∉ seen)
      (empty : d.conditions.lowered = []) : Fault ruleSet seen d (.noConditions d.id)

theorem compile_eq_error {d : RuleDefinition} {e : DefinitionError} :
    d.compile = .error e ↔
      (∃ (before : List Condition) (reason : ConditionError)
        (after : List (Except ConditionError Condition)),
        d.conditions.lowered = before.map .ok ++ .error reason :: after ∧
          e = .invalidCondition d.id before.length reason) ∨
      (d.conditions.lowered = [] ∧ e = .noConditions d.id) := by
  rw [compile, bind_eq_error, collect_eq_error]
  refine or_congr (by simp) ?_
  constructor
  · rintro ⟨conditions, hcollect, hrule⟩
    split at hrule
    · rename_i hempty
      cases hrule
      rw [List.isEmpty_iff.1 hempty] at hcollect
      exact ⟨collect_eq_ok.1 hcollect, rfl⟩
    · cases hrule
  · rintro ⟨hempty, rfl⟩
    exact ⟨[], collect_eq_ok.2 hempty, rfl⟩

theorem exists_compiled_iff {d : RuleDefinition} :
    (∃ rule, d.Compiled rule) ↔
      d.conditions.lowered ≠ [] ∧ ∀ x ∈ d.conditions.lowered, ∃ c, x = .ok c := by
  constructor
  · rintro ⟨rule, hrule⟩
    rw [hrule.lowered]
    refine ⟨by simpa using hrule.inhabited, fun x hx => ?_⟩
    obtain ⟨c, -, rfl⟩ := List.mem_map.1 hx
    exact ⟨c, rfl⟩
  · rintro ⟨hinhabited, hlowers⟩
    have hrange : d.conditions.lowered ∈ Set.range (List.map Except.ok) := by
      rw [Set.range_list_map]
      exact fun x hx => (hlowers x hx).imp fun _ h => h.symm
    obtain ⟨conditions, hconditions⟩ := hrange
    rw [← hconditions] at hinhabited
    exact ⟨⟨d.id, _, conditions, d.outcome⟩, rfl, rfl, hconditions.symm, by simpa using hinhabited,
      rfl⟩

def compileAfter (ruleSet : String) (seen : List String) (d : RuleDefinition) :
    Except DefinitionError Rule := do
  Definition.requireName .ruleId d.id
  if seen.contains d.id then .error (.duplicateRuleId ruleSet d.id) else d.compile

variable {ruleSet : String} {seen : List String} {d : RuleDefinition}

theorem compileAfter_of_blank (blank : Text.allBlank d.id = true) :
    compileAfter ruleSet seen d = .error (.blankIdentifier .ruleId) := by
  simp [compileAfter, Definition.requireName, blank, bind, Except.bind]

theorem compileAfter_of_mem (named : Text.allBlank d.id = false) (known : d.id ∈ seen) :
    compileAfter ruleSet seen d = .error (.duplicateRuleId ruleSet d.id) := by
  simp [compileAfter, Definition.requireName, named, known, bind, Except.bind]

theorem compileAfter_of_not_mem (named : Text.allBlank d.id = false) (new : d.id ∉ seen) :
    compileAfter ruleSet seen d = d.compile := by
  simp [compileAfter, Definition.requireName, named, new, bind, Except.bind]

theorem compileAfter_eq_ok {rule : Rule} :
    compileAfter ruleSet seen d = .ok rule ↔ d.Sound seen ∧ d.Compiled rule := by
  cases hid : Text.allBlank d.id with
  | true =>
    rw [compileAfter_of_blank hid]
    exact ⟨nofun, fun ⟨h, _⟩ => by simp [h.named] at hid⟩
  | false =>
    by_cases hseen : d.id ∈ seen
    · rw [compileAfter_of_mem hid hseen]
      exact ⟨nofun, fun ⟨h, _⟩ => absurd hseen h.new⟩
    · rw [compileAfter_of_not_mem hid hseen, compile_eq_ok]
      refine ⟨fun h => ⟨?_, h⟩, And.right⟩
      obtain ⟨hinhabited, hlowers⟩ := exists_compiled_iff.1 ⟨rule, h⟩
      exact ⟨hid, hseen, hinhabited, hlowers⟩

theorem compileAfter_eq_error {e : DefinitionError} :
    compileAfter ruleSet seen d = .error e ↔ d.Fault ruleSet seen e := by
  constructor
  · intro h
    cases hid : Text.allBlank d.id with
    | true =>
      rw [compileAfter_of_blank hid] at h
      cases h
      exact .blankId hid
    | false =>
      by_cases hseen : d.id ∈ seen
      · rw [compileAfter_of_mem hid hseen] at h
        cases h
        exact .repeatedId hid hseen
      · rw [compileAfter_of_not_mem hid hseen, compile_eq_error] at h
        rcases h with ⟨before, reason, after, hsplit, rfl⟩ | ⟨hempty, rfl⟩
        · exact .condition hid hseen hsplit
        · exact .noConditions hid hseen hempty
  · rintro (hid | ⟨hid, hseen⟩ | ⟨hid, hseen, hsplit⟩ | ⟨hid, hseen, hempty⟩)
    · exact compileAfter_of_blank hid
    · exact compileAfter_of_mem hid hseen
    · rw [compileAfter_of_not_mem hid hseen]
      exact compile_eq_error.2 (.inl ⟨_, _, _, hsplit, rfl⟩)
    · rw [compileAfter_of_not_mem hid hseen]
      exact compile_eq_error.2 (.inr ⟨hempty, rfl⟩)

def AllSound (seen : List String) (ds : List RuleDefinition) : Prop :=
  (∀ d ∈ ds, d.Sound seen) ∧ (ds.map (·.id)).Nodup

theorem sound_cons {id : String} : d.Sound (id :: seen) ↔ d.id ≠ id ∧ d.Sound seen := by
  constructor
  · rintro ⟨hnamed, hnew, hinhabited, hlowers⟩
    obtain ⟨hid, hnew⟩ := not_or.1 (mt List.mem_cons.2 hnew)
    exact ⟨hid, hnamed, hnew, hinhabited, hlowers⟩
  · rintro ⟨hid, hnamed, hnew, hinhabited, hlowers⟩
    exact ⟨hnamed, by simp [hid, hnew], hinhabited, hlowers⟩

theorem allSound_cons {ds : List RuleDefinition} :
    AllSound seen (d :: ds) ↔ d.Sound seen ∧ AllSound (d.id :: seen) ds := by
  simp only [AllSound, List.forall_mem_cons, List.map_cons, List.nodup_cons, sound_cons,
    List.mem_map, not_exists, not_and]
  constructor
  · rintro ⟨⟨hd, hds⟩, hnew, hnodup⟩
    exact ⟨hd, fun x hx => ⟨hnew x hx, hds x hx⟩, hnodup⟩
  · rintro ⟨hd, hds, hnodup⟩
    exact ⟨⟨hd, fun x hx => (hds x hx).2⟩, fun x hx => (hds x hx).1, hnodup⟩

theorem fault_congr {seen' : List String} {e : DefinitionError}
    (h : ∀ id, id ∈ seen ↔ id ∈ seen') : d.Fault ruleSet seen e ↔ d.Fault ruleSet seen' e := by
  simp only [← compileAfter_eq_error, compileAfter, List.contains_eq_mem, h]

end RuleDefinition

namespace Definition

open RuleDefinition (AllSound allSound_cons compileAfter compileAfter_eq_ok compileAfter_eq_error)

theorem compileRules_cons (ruleSet : String) (seen : List String) (d : RuleDefinition)
    (ds : List RuleDefinition) :
    compileRules ruleSet seen (d :: ds) = (do
      let rule ← compileAfter ruleSet seen d
      let rules ← compileRules ruleSet (d.id :: seen) ds
      .ok (rule :: rules)) := by
  rw [compileRules, compileAfter]
  cases requireName .ruleId d.id with
  | error e => rfl
  | ok u => cases hseen : seen.contains d.id <;> rfl

theorem compileRules_eq_ok {ruleSet : String} {seen : List String} {ds : List RuleDefinition}
    {rules : List Rule} :
    compileRules ruleSet seen ds = .ok rules ↔
      AllSound seen ds ∧ List.Forall₂ RuleDefinition.Compiled ds rules := by
  induction ds generalizing seen rules with
  | nil => simp [compileRules, AllSound, @eq_comm _ []]
  | cons d ds ih =>
    simp only [compileRules_cons, bind_eq_ok, compileAfter_eq_ok, ih, Except.ok.injEq,
      allSound_cons, List.forall₂_cons_left_iff]
    constructor
    · rintro ⟨rule, ⟨hd, hrule⟩, later, ⟨hds, hlater⟩, rfl⟩
      exact ⟨⟨hd, hds⟩, rule, later, hrule, hlater, rfl⟩
    · rintro ⟨⟨hd, hds⟩, rule, later, hrule, hlater, rfl⟩
      exact ⟨rule, ⟨hd, hrule⟩, later, ⟨hds, hlater⟩, rfl⟩

theorem exists_compiled {seen : List String} {ds : List RuleDefinition} (h : AllSound seen ds) :
    ∃ rules, List.Forall₂ RuleDefinition.Compiled ds rules := by
  induction ds generalizing seen with
  | nil => exact ⟨[], .nil⟩
  | cons d ds ih =>
    obtain ⟨hd, hds⟩ := allSound_cons.1 h
    obtain ⟨rule, hrule⟩ := RuleDefinition.exists_compiled_iff.2 ⟨hd.inhabited, hd.lowers⟩
    obtain ⟨rules, hrules⟩ := ih hds
    exact ⟨rule :: rules, .cons hrule hrules⟩

theorem map_of_compiled {α : Type} {f : RuleDefinition → α} {g : Rule → α}
    (hfg : ∀ d rule, d.Compiled rule → g rule = f d) {ds : List RuleDefinition} {rules : List Rule}
    (h : List.Forall₂ RuleDefinition.Compiled ds rules) : rules.map g = ds.map f := by
  induction h with
  | nil => rfl
  | cons hrule _ ih => rw [List.map_cons, List.map_cons, ih, hfg _ _ hrule]

theorem exists_compiled_of_mem {ds : List RuleDefinition} {rules : List Rule}
    (h : List.Forall₂ RuleDefinition.Compiled ds rules) :
    ∀ rule ∈ rules, ∃ d ∈ ds, d.Compiled rule := by
  induction h with
  | nil => simp
  | cons hrule _ ih =>
    intro rule hmem
    rcases List.mem_cons.1 hmem with rfl | hmem
    · exact ⟨_, List.mem_cons_self, hrule⟩
    · obtain ⟨d, hd, hcompiled⟩ := ih rule hmem
      exact ⟨d, List.mem_cons_of_mem _ hd, hcompiled⟩

theorem compileRules_of_sound (ruleSet : String) {seen : List String} {ds : List RuleDefinition}
    (h : AllSound seen ds) :
    ∃ rules, compileRules ruleSet seen ds = .ok rules ∧
      List.Forall₂ RuleDefinition.Compiled ds rules := by
  obtain ⟨rules, hrules⟩ := exists_compiled h
  exact ⟨rules, compileRules_eq_ok.2 ⟨h, hrules⟩, hrules⟩

theorem compileRules_eq_error {ruleSet : String} {seen : List String} {ds : List RuleDefinition}
    {e : DefinitionError} :
    compileRules ruleSet seen ds = .error e ↔
      ∃ before d after, ds = before ++ d :: after ∧ AllSound seen before ∧
        d.Fault ruleSet (seen ++ before.map (·.id)) e := by
  induction ds generalizing seen with
  | nil => simp [compileRules]
  | cons d ds ih =>
    have hcons (before : List RuleDefinition) (x : RuleDefinition) :
        AllSound seen (d :: before) ∧ x.Fault ruleSet (seen ++ (d :: before).map (·.id)) e ↔
          d.Sound seen ∧ AllSound (d.id :: seen) before ∧
            x.Fault ruleSet (d.id :: seen ++ before.map (·.id)) e := by
      -- What was seen is put in front, and the rules before are listed behind: membership counts.
      have hseen : ∀ id, id ∈ seen ++ (d :: before).map (·.id) ↔
          id ∈ d.id :: seen ++ before.map (·.id) := by simp [or_left_comm]
      rw [allSound_cons, and_assoc, RuleDefinition.fault_congr hseen]
    have hnil : AllSound seen [] := by simp [AllSound]
    simp only [exists_split_cons, hcons, hnil, true_and, List.map_nil, List.append_nil,
      compileRules_cons, bind_eq_error, compileAfter_eq_error, compileAfter_eq_ok, ih,
      reduceCtorEq, and_false, exists_false, or_false]
    refine or_congr_right ?_
    constructor
    · rintro ⟨rule, ⟨hd, -⟩, before, faulty, after, hsplit, hbefore, hfault⟩
      exact ⟨before, faulty, after, hsplit, hd, hbefore, hfault⟩
    · rintro ⟨before, faulty, after, hsplit, hd, hbefore, hfault⟩
      obtain ⟨rule, hrule⟩ := RuleDefinition.exists_compiled_iff.2 ⟨hd.inhabited, hd.lowers⟩
      exact ⟨rule, ⟨hd, hrule⟩, before, faulty, after, hsplit, hbefore, hfault⟩

/-! ## Outcomes -/

def Addable (os : List (String × Outcome)) : Prop :=
  ∃ kind, kind ≠ Outcome.Kind.action ∧ ∀ o ∈ os, o.2.kind = kind

/-- What is reported of outcomes: the first that does not go with those before it. -/
inductive Clash : List (String × Outcome) → DefinitionError → Prop where
  | action {before after : List (String × Outcome)} {rule : String} {outcome : Outcome}
      (addable : Addable before) (action : outcome.kind = .action) :
      Clash (before ++ (rule, outcome) :: after) (.incompatibleOutcome rule .action)
  | mixed {first : String × Outcome} {before after : List (String × Outcome)} {rule : String}
      {outcome : Outcome} (addable : Addable (first :: before)) (noAction : outcome.kind ≠ .action)
      (other : outcome.kind ≠ first.2.kind) :
      Clash (first :: before ++ (rule, outcome) :: after)
        (.incompatibleOutcome rule (.mixed outcome.kind first.2.kind))

theorem checkOutcomes_some_eq_error {kind : Outcome.Kind} (hkind : kind ≠ .action)
    {os : List (String × Outcome)} {e : DefinitionError} :
    checkOutcomes (some kind) os = .error e ↔
      ∃ before o after, os = before ++ o :: after ∧
        (∀ x ∈ before, x.2.kind = kind) ∧ o.2.kind ≠ kind ∧
        e = .incompatibleOutcome o.1
          (if o.2.kind = .action then .action else .mixed o.2.kind kind) := by
  induction os with
  | nil => simp [checkOutcomes]
  | cons o os ih =>
    rw [exists_split_cons]
    by_cases hsame : o.2.kind = kind
    · have hcheck : checkOutcomes (some kind) (o :: os) = checkOutcomes (some kind) os := by
        rw [checkOutcomes, if_neg (hsame ▸ hkind)]
        simp [hsame]
      simp [hcheck, ih, hsame]
    · have hcheck : checkOutcomes (some kind) (o :: os) = .error (.incompatibleOutcome o.1
          (if o.2.kind = .action then .action else .mixed o.2.kind kind)) := by
        by_cases haction : o.2.kind = .action <;> simp [checkOutcomes, haction, hsame]
      simp [hcheck, hsame, @eq_comm _ e]

theorem addable_cons {first : String × Outcome} {os : List (String × Outcome)} :
    Addable (first :: os) ↔
      first.2.kind ≠ .action ∧ ∀ o ∈ os, o.2.kind = first.2.kind := by
  constructor
  · rintro ⟨kind, hkind, hall⟩
    obtain ⟨rfl, hrest⟩ := List.forall_mem_cons.1 hall
    exact ⟨hkind, hrest⟩
  · rintro ⟨hkind, hrest⟩
    exact ⟨first.2.kind, hkind, List.forall_mem_cons.2 ⟨rfl, hrest⟩⟩

theorem checkOutcomes_none_cons {first : String × Outcome} {os : List (String × Outcome)} :
    checkOutcomes none (first :: os) =
      if first.2.kind = .action then .error (.incompatibleOutcome first.1 .action)
      else checkOutcomes (some first.2.kind) os := by
  rw [checkOutcomes]

theorem clash_of_checkOutcomes {os : List (String × Outcome)} {e : DefinitionError}
    (h : checkOutcomes none os = .error e) : Clash os e := by
  cases os with
  | nil => cases h
  | cons first os =>
    rw [checkOutcomes_none_cons] at h
    split at h
    · rename_i haction
      cases h
      have hnil : Addable [] := ⟨.violation, by decide, by simp⟩
      exact .action hnil haction
    · rename_i hfirst
      obtain ⟨before, ⟨rule, outcome⟩, after, rfl, hbefore, hother, rfl⟩ :=
        (checkOutcomes_some_eq_error hfirst).1 h
      have haddable : Addable (first :: before) := addable_cons.2 ⟨hfirst, hbefore⟩
      by_cases haction : outcome.kind = .action
      · rw [if_pos haction]
        exact .action haddable haction
      · rw [if_neg haction]
        exact .mixed haddable haction hother

theorem checkOutcomes_of_clash {os : List (String × Outcome)} {e : DefinitionError}
    (h : Clash os e) : checkOutcomes none os = .error e := by
  cases h with
  | @action before after rule outcome addable action =>
    cases before with
    | nil => rw [List.nil_append, checkOutcomes_none_cons, if_pos action]
    | cons first before =>
      obtain ⟨hfirst, hbefore⟩ := addable_cons.1 addable
      rw [List.cons_append, checkOutcomes_none_cons, if_neg hfirst]
      exact (checkOutcomes_some_eq_error hfirst).2
        ⟨before, (rule, outcome), after, rfl, hbefore, action ▸ hfirst.symm, by rw [if_pos action]⟩
  | @mixed first before after rule outcome addable noAction other =>
    obtain ⟨hfirst, hbefore⟩ := addable_cons.1 addable
    rw [List.cons_append, checkOutcomes_none_cons, if_neg hfirst]
    exact (checkOutcomes_some_eq_error hfirst).2
      ⟨before, (rule, outcome), after, rfl, hbefore, other, by rw [if_neg noAction]⟩

theorem checkOutcomes_none_eq_error {os : List (String × Outcome)} {e : DefinitionError} :
    checkOutcomes none os = .error e ↔ Clash os e :=
  ⟨clash_of_checkOutcomes, checkOutcomes_of_clash⟩

/-! ## Definitions -/

def namedOutcomes (d : Definition) : List (String × Outcome) :=
  d.rules.map (fun rule => (rule.id, rule.outcome)) ++
    (d.fallback.map fun outcome => ("fallback", outcome)).toList

structure Valid (d : Definition) : Prop where
  id : Text.allBlank d.id = false
  name : Text.allBlank d.name = false
  ruleIds : ∀ rule ∈ d.rules, Text.allBlank rule.id = false
  distinct : (d.rules.map (·.id)).Nodup
  inhabited : ∀ rule ∈ d.rules, rule.conditions.lowered ≠ []
  lowers : ∀ rule ∈ d.rules, ∀ x ∈ rule.conditions.lowered, ∃ c, x = .ok c
  outcomes : d.mode = .accumulate → Addable d.namedOutcomes
  derived : ∀ x ∈ d.derived, x.fault? = none

/-- The first fault: identifiers, rule after rule, outcomes, derived fields. -/
inductive FirstFault (d : Definition) : DefinitionError → Prop where
  | id (blank : Text.allBlank d.id = true) : FirstFault d (.blankIdentifier .ruleSetId)
  | name (id : Text.allBlank d.id = false) (blank : Text.allBlank d.name = true) :
      FirstFault d (.blankIdentifier .ruleSetName)
  | rule (id : Text.allBlank d.id = false) (name : Text.allBlank d.name = false)
      {before after : List RuleDefinition} {rule : RuleDefinition} {e : DefinitionError}
      (split : d.rules = before ++ rule :: after) (sound : AllSound [] before)
      (fault : rule.Fault d.id (before.map (·.id)) e) : FirstFault d e
  | outcome (id : Text.allBlank d.id = false) (name : Text.allBlank d.name = false)
      (rules : AllSound [] d.rules) (mode : d.mode = .accumulate) {e : DefinitionError}
      (clash : Clash d.namedOutcomes e) : FirstFault d e
  | derived (id : Text.allBlank d.id = false) (name : Text.allBlank d.name = false)
      (rules : AllSound [] d.rules) (outcomes : d.mode = .accumulate → Addable d.namedOutcomes)
      {before after : List Derivation} {x : Derivation} {reason : DerivationError}
      (split : d.derived = before ++ x :: after) (sound : ∀ y ∈ before, y.fault? = none)
      (fault : x.fault? = some reason) : FirstFault d (.invalidDerivation reason)

structure CompiledTo (now : Instant) (d : Definition) (s : RuleSet) : Prop where
  rules : List.Forall₂ RuleDefinition.Compiled d.rules s.rules
  rest : s = ⟨d.id, d.name, d.description, s.rules, d.mode, d.fallback, d.derived,
    d.definedAt.getD now⟩

theorem outcomes_of_compiled {d : Definition} {rules : List Rule}
    (h : List.Forall₂ RuleDefinition.Compiled d.rules rules) :
    outcomes rules d.fallback = d.namedOutcomes := by
  have hmap : rules.map (fun rule => (rule.id, rule.outcome)) =
      d.rules.map fun rule => (rule.id, rule.outcome) :=
    map_of_compiled (fun d rule hrule => by rw [hrule.id, hrule.outcome]) h
  rw [outcomes, namedOutcomes, hmap]

theorem allSound_iff {ds : List RuleDefinition} :
    AllSound [] ds ↔
      (∀ d ∈ ds, Text.allBlank d.id = false) ∧ (ds.map (·.id)).Nodup ∧
      (∀ d ∈ ds, d.conditions.lowered ≠ []) ∧
      ∀ d ∈ ds, ∀ x ∈ d.conditions.lowered, ∃ c, x = .ok c := by
  constructor
  · rintro ⟨hsound, hnodup⟩
    exact ⟨fun d hd => (hsound d hd).named, hnodup, fun d hd => (hsound d hd).inhabited,
      fun d hd => (hsound d hd).lowers⟩
  · rintro ⟨hnamed, hnodup, hinhabited, hlowers⟩
    exact ⟨fun d hd => ⟨hnamed d hd, List.not_mem_nil, hinhabited d hd, hlowers d hd⟩, hnodup⟩

theorem valid_iff {d : Definition} :
    d.Valid ↔ Text.allBlank d.id = false ∧ Text.allBlank d.name = false ∧ AllSound [] d.rules ∧
      (d.mode = .accumulate → Addable d.namedOutcomes) ∧ ∀ x ∈ d.derived, x.fault? = none := by
  rw [allSound_iff]
  constructor
  · rintro ⟨hid, hname, hruleIds, hdistinct, hinhabited, hlowers, houtcomes, hderived⟩
    exact ⟨hid, hname, ⟨hruleIds, hdistinct, hinhabited, hlowers⟩, houtcomes, hderived⟩
  · rintro ⟨hid, hname, ⟨hruleIds, hdistinct, hinhabited, hlowers⟩, houtcomes, hderived⟩
    exact ⟨hid, hname, hruleIds, hdistinct, hinhabited, hlowers, houtcomes, hderived⟩

theorem compile_eq_ok_iff_valid {now : Instant} {d : Definition} {s : RuleSet} :
    d.compile now = .ok s ↔ d.Valid ∧ d.CompiledTo now s := by
  rw [compile_eq_ok, valid_iff]
  constructor
  · rintro ⟨hid, hname, hderived, rules, hrules, houtcomes, rfl⟩
    obtain ⟨hsound, hcompiled⟩ := compileRules_eq_ok.1 hrules
    rw [outcomes_of_compiled hcompiled, checkOutcomes_none_eq_ok] at houtcomes
    exact ⟨⟨hid, hname, hsound, houtcomes, hderived⟩, hcompiled, rfl⟩
  · rintro ⟨⟨hid, hname, hsound, houtcomes, hderived⟩, hcompiled, hs⟩
    refine ⟨hid, hname, hderived, s.rules, compileRules_eq_ok.2 ⟨hsound, hcompiled⟩, ?_, hs⟩
    rw [outcomes_of_compiled hcompiled, checkOutcomes_none_eq_ok]
    exact houtcomes

theorem ruleIds_nodup {now : Instant} {d : Definition} {s : RuleSet} (h : d.compile now = .ok s) :
    (s.rules.map (·.id)).Nodup := by
  obtain ⟨hvalid, hcompiled⟩ := compile_eq_ok_iff_valid.1 h
  rw [map_of_compiled (fun d rule hrule => hrule.id) hcompiled.rules]
  exact hvalid.distinct

theorem requireName_eq_error {which : Identifier} {s : String} {e : DefinitionError} :
    requireName which s = .error e ↔ Text.allBlank s = true ∧ e = .blankIdentifier which := by
  unfold requireName
  cases Text.allBlank s <;> simp [@eq_comm _ e]

theorem checkMode_eq_error {d : Definition} {rules : List Rule} {e : DefinitionError}
    (h : List.Forall₂ RuleDefinition.Compiled d.rules rules) :
    checkMode d rules = .error e ↔ d.mode = .accumulate ∧ Clash d.namedOutcomes e := by
  unfold checkMode
  rw [outcomes_of_compiled h]
  by_cases hm : d.mode = .accumulate
  · simp [hm, checkOutcomes_none_eq_error]
  · simp [hm]

theorem checkDerived_eq_error {d : Definition} {e : DefinitionError} :
    checkDerived d = .error e ↔
      ∃ before x after reason, d.derived = before ++ x :: after ∧
        (∀ y ∈ before, y.fault? = none) ∧ x.fault? = some reason ∧
          e = .invalidDerivation reason := by
  have hfirst : checkDerived d = .error e ↔ ∃ reason,
      d.derived.findSome? Derivation.fault? = some reason ∧ e = .invalidDerivation reason := by
    unfold checkDerived
    cases d.derived.findSome? Derivation.fault? <;> simp [@eq_comm _ e]
  simp only [hfirst, List.findSome?_eq_some_iff]
  constructor
  · rintro ⟨reason, ⟨before, x, after, hsplit, hx, hbefore⟩, rfl⟩
    exact ⟨before, x, after, reason, hsplit, hbefore, hx, rfl⟩
  · rintro ⟨before, x, after, reason, hsplit, hbefore, hx, rfl⟩
    exact ⟨reason, ⟨before, x, after, hsplit, hx, hbefore⟩, rfl⟩

theorem compile_eq_error {now : Instant} {d : Definition} {e : DefinitionError} :
    d.compile now = .error e ↔ d.FirstFault e := by
  simp only [compile_chain, bind_eq_error, requireName_eq_error, requireName_eq_ok, exists_const,
    checkMode_eq_ok, checkDerived_eq_ok, checkDerived_eq_error, reduceCtorEq, and_false, or_false]
  constructor
  · rintro (⟨hid, rfl⟩ | ⟨hid, ⟨hname, rfl⟩ | ⟨hname, hrules | ⟨rules, hrules, hrest⟩⟩⟩)
    · exact .id hid
    · exact .name hid hname
    · obtain ⟨before, rule, after, hsplit, hsound, hfault⟩ := compileRules_eq_error.1 hrules
      exact .rule hid hname hsplit hsound hfault
    · obtain ⟨hsound, hcompiled⟩ := compileRules_eq_ok.1 hrules
      rw [checkMode_eq_error hcompiled, outcomes_of_compiled hcompiled,
        checkOutcomes_none_eq_ok] at hrest
      rcases hrest with ⟨hmode, hclash⟩ | ⟨houtcomes, before, x, after, reason, hsplit, hbefore, hx,
        rfl⟩
      · exact .outcome hid hname hsound hmode hclash
      · exact .derived hid hname hsound houtcomes hsplit hbefore hx
  · rintro (hid | ⟨hid, hname⟩ | ⟨hid, hname, hsplit, hsound, hfault⟩ |
      ⟨hid, hname, hsound, hmode, hclash⟩ |
      ⟨hid, hname, hsound, houtcomes, hsplit, hbefore, hx⟩)
    · exact .inl ⟨hid, rfl⟩
    · exact .inr ⟨hid, .inl ⟨hname, rfl⟩⟩
    · have hrules := compileRules_eq_error.2 ⟨_, _, _, hsplit, hsound, hfault⟩
      exact .inr ⟨hid, .inr ⟨hname, .inl hrules⟩⟩
    · obtain ⟨rules, hrules, hcompiled⟩ := compileRules_of_sound d.id hsound
      have hcheck := (checkMode_eq_error hcompiled).2 ⟨hmode, hclash⟩
      exact .inr ⟨hid, .inr ⟨hname, .inr ⟨rules, hrules, .inl hcheck⟩⟩⟩
    · obtain ⟨rules, hrules, hcompiled⟩ := compileRules_of_sound d.id hsound
      rw [Addable, ← checkOutcomes_none_eq_ok, ← outcomes_of_compiled hcompiled] at houtcomes
      exact .inr ⟨hid, .inr ⟨hname, .inr ⟨rules, hrules,
        .inr ⟨houtcomes, _, _, _, _, hsplit, hbefore, hx, rfl⟩⟩⟩⟩

end Definition

/-! ## Rule sets -/

structure Condition.WellFormed (c : Condition) : Prop where
  trimmed : Text.trim c.field = c.field
  named : c.field ≠ ""
  present : c.literal ≠ .absent
  finite : ∀ x, c.literal = .number x → x.isFinite = true

structure RuleSet.WellFormed (s : RuleSet) : Prop where
  conditions : ∀ rule ∈ s.rules, ∀ c ∈ rule.conditions, c.WellFormed
  names : ∀ rule ∈ s.rules, Text.allBlank rule.name = false
  required : ∀ f, f ∈ s.requiredFields ↔ ∃ rule ∈ s.rules, ∃ c ∈ rule.conditions, c.field = f
  ascending : s.requiredFields.Pairwise (· < ·)

theorem Condition.Built.wellFormed {c : Condition} (h : c.Built) : c.WellFormed := by
  obtain ⟨htrimmed, hnamed, hliteral⟩ := h
  refine ⟨htrimmed, by simpa using hnamed, ?_, ?_⟩
  · intro habsent
    rw [habsent] at hliteral
    cases hliteral
  · intro x hx
    rw [hx, literalFault?] at hliteral
    simpa using hliteral

namespace Definition

theorem wellFormed_of_compile {now : Instant} {d : Definition} {s : RuleSet}
    (h : d.compile now = .ok s) : s.WellFormed := by
  obtain ⟨hvalid, hcompiled⟩ := compile_eq_ok_iff_valid.1 h
  have hrule := exists_compiled_of_mem hcompiled.rules
  refine ⟨fun rule hr c hc => ?_, fun rule hr => ?_, fun f => ?_, ?_⟩
  · obtain ⟨r, -, hcompiled⟩ := hrule rule hr
    exact (Clauses.built_of_lowered (hcompiled.lowered ▸ List.mem_map_of_mem hc)).wellFormed
  · obtain ⟨r, hmem, hcompiled⟩ := hrule rule hr
    rw [hcompiled.name]
    cases hname : Text.allBlank r.name <;> simp [hname, hvalid.ruleIds r hmem]
  · simp [RuleSet.requiredFields, Table.mem_distinct]
  · exact Table.increasing _

/-- The valid definitions are compiled, rule by rule, to well-formed rule sets; of any other
definition the first fault is reported. -/
theorem compile_iff_valid (now : Instant) (d : Definition) :
    ((∃ s, d.compile now = .ok s) ↔ d.Valid) ∧
    (∀ s, d.compile now = .ok s → s.WellFormed ∧ d.CompiledTo now s) ∧
    ∀ e, d.compile now = .error e ↔ d.FirstFault e := by
  refine ⟨⟨?_, fun hvalid => ?_⟩, fun s hs => ?_, fun e => compile_eq_error⟩
  · rintro ⟨s, hs⟩
    exact (compile_eq_ok_iff_valid.1 hs).1
  · obtain ⟨-, -, hsound, -⟩ := valid_iff.1 hvalid
    obtain ⟨rules, hrules⟩ := exists_compiled hsound
    exact ⟨⟨d.id, d.name, d.description, rules, d.mode, d.fallback, d.derived,
      d.definedAt.getD now⟩, compile_eq_ok_iff_valid.2 ⟨hvalid, hrules, rfl⟩⟩
  · exact ⟨wellFormed_of_compile hs, (compile_eq_ok_iff_valid.1 hs).2⟩

-- An identifier that comes back is reported before missing conditions and outcomes.
example (now : Instant) :
    (Definition.mk "set" "Set" none
      [⟨"a", "", .list [.structured "x" ">" (.bool true)], .action "stop"⟩,
        ⟨"a", "", .list [], .violation "late"⟩]
      .accumulate none [] none).compile now = .error (.duplicateRuleId "set" "a") := by
  rfl

end Definition

end Rulebook
