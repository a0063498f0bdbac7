import Rulebook.Proofs.Results
import Rulebook.RuleSet.Compile
/-!
What the compiler accepts. A compiled rule set is the definition with its rules lowered; the chain
of checks is opened here once, and no later proof unfolds it.
-/

set_option autoImplicit false

namespace Rulebook

namespace RuleDefinition

theorem collect_eq_ok {rule : String} {index : Nat} {cs : List (Except ConditionError Condition)}
    {conditions : List Condition} :
    collect rule index cs = .ok conditions ↔ cs = conditions.map .ok := by
  induction cs generalizing index conditions with
  | nil => cases conditions <;> simp [collect]
  | cons x cs ih =>
    cases x with
    | error reason => cases conditions <;> simp [collect]
    | ok c =>
      rw [collect, map_eq_ok]
      cases conditions with
      | nil => simp
      | cons c' later =>
        simp only [ih, List.map_cons, List.cons.injEq, Except.ok.injEq]
        constructor
        · rintro ⟨_, rfl, rfl, rfl⟩
          exact ⟨rfl, rfl⟩
        · rintro ⟨rfl, rfl⟩
          exact ⟨later, rfl, rfl, rfl⟩

/-- The first condition that is none is reported, with its position. -/
theorem collect_eq_error {rule : String} {index : Nat}
    {cs : List (Except ConditionError Condition)} {e : DefinitionError} :
    collect rule index cs = .error e ↔
      ∃ (before : List Condition) (reason : ConditionError)
        (after : List (Except ConditionError Condition)),
        cs = before.map .ok ++ .error reason :: after ∧
          e = .invalidCondition rule (index + before.length) reason := by
  induction cs generalizing index with
  | nil => simp [collect]
  | cons x cs ih =>
    cases x with
    | error reason =>
      rw [collect]
      constructor
      · intro h
        exact ⟨[], reason, cs, rfl, (Except.error.inj h).symm⟩
      · rintro ⟨before, reason', after, hsplit, rfl⟩
        cases before with
        | nil =>
          cases hsplit
          rfl
        | cons c before => cases hsplit
    | ok c =>
      have hlength (n : Nat) : index + (n + 1) = index + 1 + n := by omega
      rw [collect, map_eq_error, ih]
      constructor
      · rintro ⟨before, reason, after, rfl, rfl⟩
        exact ⟨c :: before, reason, after, rfl, by rw [List.length_cons, hlength before.length]⟩
      · rintro ⟨before, reason, after, hsplit, rfl⟩
        cases before with
        | nil => cases hsplit
        | cons c' before =>
          cases hsplit
          exact ⟨before, reason, after, rfl, by rw [List.length_cons, hlength before.length]⟩

structure Compiled (d : RuleDefinition) (rule : Rule) : Prop where
  id : rule.id = d.id
  name : rule.name = if Text.allBlank d.name then d.id else d.name
  lowered : d.conditions.lowered = rule.conditions.map .ok
  inhabited : rule.conditions ≠ []
  outcome : rule.outcome = d.outcome

theorem compile_eq_ok {d : RuleDefinition} {rule : Rule} :
    d.compile = .ok rule ↔ d.Compiled rule := by
  rw [compile, bind_eq_ok]
  constructor
  · rintro ⟨conditions, hcollect, hrule⟩
    split at hrule
    · cases hrule
    · rename_i hempty
      cases hrule
      exact ⟨rfl, rfl, collect_eq_ok.1 hcollect, by simpa using hempty, rfl⟩
  · rintro ⟨hid, hname, hlowered, hinhabited, houtcome⟩
    refine ⟨rule.conditions, collect_eq_ok.2 hlowered, ?_⟩
    rw [if_neg (by simpa using hinhabited), ← hname, ← houtcome, ← hid]

end RuleDefinition

namespace Definition

theorem requireName_eq_ok {which : Identifier} {s : String} {u : Unit} :
    requireName which s = .ok u ↔ Text.allBlank s = false := by
  unfold requireName
  cases Text.allBlank s <;> simp

def checkMode (d : Definition) (rules : List Rule) : Except DefinitionError Unit :=
  if d.mode = .accumulate then checkOutcomes none (outcomes rules d.fallback) else .ok ()

def checkDerived (d : Definition) : Except DefinitionError Unit :=
  match d.derived.findSome? Derivation.fault? with
  | some reason => .error (.invalidDerivation reason)
  | none => .ok ()

theorem compile_chain (now : Instant) (d : Definition) :
    d.compile now = (do
      requireName .ruleSetId d.id
      requireName .ruleSetName d.name
      let rules ← compileRules d.id [] d.rules
      checkMode d rules
      checkDerived d
      .ok ⟨d.id, d.name, d.description, rules, d.mode, d.fallback, d.derived,
        d.definedAt.getD now⟩) := by
  unfold compile checkMode checkDerived
  by_cases hm : d.mode = .accumulate <;> cases d.derived.findSome? Derivation.fault? <;>
    simp only [hm, if_true, if_false] <;> rfl

theorem checkMode_eq_ok {d : Definition} {rules : List Rule} {u : Unit} :
    checkMode d rules = .ok u ↔
      (d.mode = .accumulate → checkOutcomes none (outcomes rules d.fallback) = .ok ()) := by
  unfold checkMode
  split <;> simp [*]

theorem checkDerived_eq_ok {d : Definition} {u : Unit} :
    checkDerived d = .ok u ↔ ∀ x ∈ d.derived, x.fault? = none := by
  rw [← List.findSome?_eq_none_iff, checkDerived]
  cases d.derived.findSome? Derivation.fault? <;> simp

/-- All the compiler asks of a definition, and what it makes of it. -/
theorem compile_eq_ok {now : Instant} {d : Definition} {s : RuleSet} :
    d.compile now = .ok s ↔
      Text.allBlank d.id = false ∧ Text.allBlank d.name = false ∧
      (∀ x ∈ d.derived, x.fault? = none) ∧
      ∃ rules, compileRules d.id [] d.rules = .ok rules ∧
        (d.mode = .accumulate → checkOutcomes none (outcomes rules d.fallback) = .ok ()) ∧
        s = ⟨d.id, d.name, d.description, rules, d.mode, d.fallback, d.derived,
          d.definedAt.getD now⟩ := by
  simp only [compile_chain, bind_eq_ok, requireName_eq_ok, exists_const, checkMode_eq_ok,
    checkDerived_eq_ok, Except.ok.injEq]
  constructor
  · rintro ⟨hid, hname, rules, hrules, houtcomes, hderived, rfl⟩
    exact ⟨hid, hname, hderived, rules, hrules, houtcomes, rfl⟩
  · rintro ⟨hid, hname, hderived, rules, hrules, houtcomes, rfl⟩
    exact ⟨hid, hname, rules, hrules, houtcomes, hderived, rfl⟩

theorem id_of_compile {now : Instant} {d : Definition} {s : RuleSet} (h : d.compile now = .ok s) :
    s.id = d.id := by
  obtain ⟨-, -, -, rules, -, -, rfl⟩ := compile_eq_ok.1 h
  rfl

theorem derived_of_compile {now : Instant} {d : Definition} {s : RuleSet}
    (h : d.compile now = .ok s) : s.derived = d.derived := by
  obtain ⟨-, -, -, rules, -, -, rfl⟩ := compile_eq_ok.1 h
  rfl

theorem definedAt_of_compile {now : Instant} {d : Definition} {s : RuleSet}
    (h : d.compile now = .ok s) : s.definedAt = d.definedAt.getD now := by
  obtain ⟨-, -, -, rules, -, -, rfl⟩ := compile_eq_ok.1 h
  rfl

/-- A definition that compiles does so at any time, to a rule set of that time if it names none. -/
theorem compile_at {now : Instant} {d : Definition} {s : RuleSet} (h : d.compile now = .ok s)
    (later : Instant) : d.compile later = .ok { s with definedAt := d.definedAt.getD later } := by
  obtain ⟨hid, hname, hderived, rules, hrules, houtcomes, rfl⟩ := compile_eq_ok.1 h
  exact compile_eq_ok.2 ⟨hid, hname, hderived, rules, hrules, houtcomes, rfl⟩

theorem checkOutcomes_some_eq_ok {kind : Outcome.Kind} {os : List (String × Outcome)} :
    checkOutcomes (some kind) os = .ok () ↔
      ∀ o ∈ os, o.2.kind = kind ∧ o.2.kind ≠ .action := by
  induction os with
  | nil => simp [checkOutcomes]
  | cons o os ih =>
    obtain ⟨rule, outcome⟩ := o
    by_cases hk : outcome.kind = kind
    · subst hk
      by_cases ha : outcome.kind = .action
      · simp only [checkOutcomes, ha, if_true, reduceCtorEq, false_iff]
        exact fun h => (h _ List.mem_cons_self).2 ha
      · simp [checkOutcomes, ha, ih]
    · by_cases ha : outcome.kind = .action <;> simp [checkOutcomes, ha, hk]

theorem checkOutcomes_none_eq_ok {os : List (String × Outcome)} :
    checkOutcomes none os = .ok () ↔
      ∃ kind, kind ≠ Outcome.Kind.action ∧ ∀ o ∈ os, o.2.kind = kind := by
  cases os with
  | nil => simpa [checkOutcomes] using ⟨Outcome.Kind.violation, by decide⟩
  | cons o os =>
    obtain ⟨rule, outcome⟩ := o
    by_cases ha : outcome.kind = .action
    · simp only [checkOutcomes, ha, if_true, reduceCtorEq, false_iff]
      rintro ⟨kind, hk, hall⟩
      exact hk ((hall _ List.mem_cons_self).symm.trans ha)
    · simp only [checkOutcomes, ha, if_false, checkOutcomes_some_eq_ok, List.forall_mem_cons]
      constructor
      · exact fun h => ⟨outcome.kind, ha, rfl, fun o ho => (h o ho).1⟩
      · rintro ⟨kind, hk, rfl, h⟩ o ho
        exact ⟨h o ho, h o ho ▸ ha⟩

/-- The rules and the fallback of a compiled rule set that accumulates are of one kind, and none is
an action. -/
theorem kind_of_compile {now : Instant} {d : Definition} {s : RuleSet}
    (h : d.compile now = .ok s) (hm : s.mode = .accumulate) :
    ∃ kind, kind ≠ Outcome.Kind.action ∧ (∀ rule ∈ s.rules, rule.outcome.kind = kind) ∧
      ∀ outcome ∈ s.fallback, outcome.kind = kind := by
  obtain ⟨-, -, -, rules, -, houtcomes, rfl⟩ := compile_eq_ok.1 h
  obtain ⟨kind, hk, hall⟩ := checkOutcomes_none_eq_ok.1 (houtcomes hm)
  refine ⟨kind, hk, fun rule hr => hall (rule.id, rule.outcome) ?_, fun outcome hf =>
    hall ("fallback", outcome) ?_⟩
  · exact List.mem_append_left _ (List.mem_map.2 ⟨rule, hr, rfl⟩)
  · exact List.mem_append_right _ (Option.mem_toList.2 (Option.mem_map_of_mem _ hf))

end Definition

end Rulebook
