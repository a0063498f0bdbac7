import Rulebook.Proofs.Blank
import Rulebook.Proofs.Compilation
/-!
Compiling again. Conditions come out of the compiler trimmed and checked, so that a compiled rule
set, written as a definition, is compiled to itself at any time. Main statement: of all rule sets,
those that come out of the compiler are the ones compiled to themselves.
-/

set_option autoImplicit false

namespace Rulebook

namespace Condition

structure Built (c : Condition) : Prop where
  trimmed : Text.trim c.field = c.field
  named : c.field.isEmpty = false
  literal : literalFault? c.literal = none

theorem built_of_build {field symbol : String} {literal : Value} {c : Condition}
    (h : build field symbol literal = .ok c) : c.Built := by
  unfold build at h
  split at h
  · cases h
  · dsimp only at h
    split at h
    · cases h
    · rename_i hnamed
      cases hl : literalFault? literal with
      | some fault => simp [hl] at h
      | none =>
        simp only [hl, Except.ok.injEq] at h
        subst h
        exact ⟨Text.trim_trim field, by simpa using hnamed, hl⟩

theorem build_of_built {c : Condition} (h : c.Built) :
    build c.field c.operator.symbol c.literal = .ok c := by
  simp [build, Operator.ofText?_symbol, h.trimmed, h.named, h.literal]

theorem literalOfJson_toJson {c : Condition} (h : c.Built) :
    literalOfJson c.literal.toJson = .ok c.literal := by
  have hl := h.literal
  cases hv : c.literal with
  | number x =>
    have hx : x.isFinite = true := by
      simpa [hv, literalFault?] using hl
    simp [literalOfJson, Value.toJson, hx, Value.ofJson?, Json.Number.toFloat]
  | text s => rfl
  | boolean b => rfl
  | absent => simp [hv, literalFault?] at hl

end Condition

namespace Clause

theorem built_of_lower {clause : Clause} {c : Condition} (h : clause.lower = .ok c) : c.Built := by
  cases clause with
  | structured field operator literal =>
    obtain ⟨v, -, hbuild⟩ := bind_eq_ok.1 h
    exact Condition.built_of_build hbuild
  | expression text =>
    obtain ⟨e, -, hbuild⟩ := bind_eq_ok.1 h
    exact Condition.built_of_build hbuild

def ofCondition (c : Condition) : Clause :=
  .structured c.field c.operator.symbol c.literal.toJson

theorem lower_ofCondition {c : Condition} (h : c.Built) : (ofCondition c).lower = .ok c :=
  bind_eq_ok.2 ⟨_, Condition.literalOfJson_toJson h, Condition.build_of_built h⟩

end Clause

namespace Clauses

theorem built_of_lowered {clauses : Clauses} {c : Condition} (h : .ok c ∈ clauses.lowered) :
    c.Built := by
  cases clauses with
  | list clauses =>
    obtain ⟨clause, -, hc⟩ := List.mem_map.1 h
    exact Clause.built_of_lower hc
  | suffixed entries =>
    obtain ⟨⟨key, j⟩, -, hc⟩ := List.mem_map.1 h
    obtain ⟨v, -, hbuild⟩ := bind_eq_ok.1 hc
    exact Condition.built_of_build hbuild

end Clauses

namespace RuleDefinition

def ofRule (rule : Rule) : RuleDefinition :=
  ⟨rule.id, rule.name, .list (rule.conditions.map Clause.ofCondition), rule.outcome⟩

theorem compile_again {d : RuleDefinition} {rule : Rule} (hid : Text.allBlank d.id = false)
    (h : d.compile = .ok rule) : rule.id = d.id ∧ (ofRule rule).compile = .ok rule := by
  have hcompiled := compile_eq_ok.1 h
  have hbuilt : ∀ c ∈ rule.conditions, c.Built := fun c hc =>
    Clauses.built_of_lowered (hcompiled.lowered ▸ List.mem_map_of_mem hc)
  have hlowered : (rule.conditions.map Clause.ofCondition).map Clause.lower =
      rule.conditions.map .ok := by
    rw [List.map_map]
    exact List.map_congr_left fun c hc => Clause.lower_ofCondition (hbuilt c hc)
  have hname : Text.allBlank rule.name = false := by
    rw [hcompiled.name]
    cases hn : Text.allBlank d.name <;> simp [hn, hid]
  exact ⟨hcompiled.id, compile_eq_ok.2
    ⟨rfl, by simp [ofRule, hname], hlowered, hcompiled.inhabited, rfl⟩⟩

end RuleDefinition

namespace Definition

theorem compileRules_again {ruleSet : String} {seen : List String} {ds : List RuleDefinition}
    {rules : List Rule} (h : compileRules ruleSet seen ds = .ok rules) :
    compileRules ruleSet seen (rules.map RuleDefinition.ofRule) = .ok rules := by
  induction ds generalizing seen rules with
  | nil =>
    cases h
    rfl
  | cons d ds ih =>
    obtain ⟨u, hname, hrest⟩ := bind_eq_ok.1 h
    cases hseen : seen.contains d.id with
    | true =>
      rw [if_pos hseen] at hrest
      cases hrest
    | false =>
      rw [hseen, if_neg Bool.false_ne_true] at hrest
      obtain ⟨rule, hrule, hrest⟩ := bind_eq_ok.1 hrest
      obtain ⟨later, hlater, hok⟩ := bind_eq_ok.1 hrest
      obtain rfl : rule :: later = rules := by simpa using hok
      -- A rule keeps its identifier, so the same identifiers are seen the second time.
      obtain ⟨hid, hagain⟩ := RuleDefinition.compile_again (requireName_eq_ok.1 hname) hrule
      have hid' : (RuleDefinition.ofRule rule).id = d.id := hid
      refine bind_eq_ok.2 ⟨u, by rw [hid']; exact hname, ?_⟩
      rw [hid', hseen, if_neg Bool.false_ne_true]
      exact bind_eq_ok.2 ⟨rule, hagain, bind_eq_ok.2 ⟨later, ih hlater, rfl⟩⟩

theorem compile_toDefinition {now : Instant} {d : Definition} {s : RuleSet}
    (h : d.compile now = .ok s) (later : Instant) : s.toDefinition.compile later = .ok s := by
  obtain ⟨hid, hname, hderived, rules, hrules, houtcomes, rfl⟩ := compile_eq_ok.1 h
  exact compile_eq_ok.2 ⟨hid, hname, hderived, rules, compileRules_again hrules, houtcomes, rfl⟩

end Definition

namespace RuleSet

/-- The rule sets that come out of the compiler are those to which their own definitions are
compiled, at any time. -/
theorem compiled_iff_recompiled (s : RuleSet) :
    (∃ d now, Definition.compile now d = .ok s) ↔
      ∀ later, s.toDefinition.compile later = .ok s := by
  constructor
  · rintro ⟨d, now, hcompile⟩ later
    exact Definition.compile_toDefinition hcompile later
  · exact fun hagain => ⟨s.toDefinition, .epoch, hagain .epoch⟩

def unevenDefinition : Definition where
  id := "uneven"
  name := "Uneven"
  description := none
  rules := [⟨"listed", " ", .list [.structured " amount " " gte" (.number (.real (-0.0))),
      .expression "input[\"city\"]=='A > B'"], .violation "far"⟩,
    ⟨"keyed", "Keyed", .suffixed [("code_neq", .text "042"), ("open", .bool true)],
      .violation "odd"⟩]
  mode := .accumulate
  fallback := none
  derived := [.constant "limit" (.number (1 / 0))]
  definedAt := none

theorem compiled_iff_recompiled_uneven :
    ∃ s, unevenDefinition.compile .epoch = .ok s ∧
      s.requiredFields = ["amount", "city", "code", "open"] ∧
      s.toDefinition ≠ unevenDefinition ∧ ∀ later, s.toDefinition.compile later = .ok s := by
  have hfields : (unevenDefinition.compile .epoch).toOption.map requiredFields =
      some ["amount", "city", "code", "open"] := by decide +kernel
  cases hs : unevenDefinition.compile .epoch with
  | error reason =>
    rw [hs] at hfields
    cases hfields
  | ok s =>
    rw [hs] at hfields
    refine ⟨s, rfl, Option.some.inj hfields, fun hsame => ?_,
      (compiled_iff_recompiled s).1 ⟨_, _, hs⟩⟩
    cases congrArg Definition.definedAt hsame

end RuleSet

end Rulebook
