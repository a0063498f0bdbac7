import Rulebook.Proofs.Evaluation
/-!
Kinds of outcomes. What the compiler checks of a rule set that accumulates is enough for all its
evaluations. Main statement: one kind of outcome, never an action, is all that can come of any
record, and every matched rule has its part in it.
-/

set_option autoImplicit false

namespace Rulebook

def DecisionOutcome.kind? : DecisionOutcome → Option Outcome.Kind
  | .action _ => some .action
  | .score _ => some .contribution
  | .violations _ => some .violation
  | .noDecision => none

theorem Outcome.kind?_alone (o : Outcome) : o.alone.kind? = some o.kind := by
  cases o <;> rfl

namespace RuleSet

inductive Obtained (s : RuleSet) : Prop where
  | compiled {now : Instant} {d : Definition} (h : d.compile now = .ok s)
  | read {now : Instant} {text : String} (h : Definition.compileText now text = .ok s)

variable {s : RuleSet} {kind : Outcome.Kind}

theorem Obtained.exists_definition (h : s.Obtained) : ∃ now d, Definition.compile now d = .ok s := by
  cases h with
  | compiled h => exact ⟨_, _, h⟩
  | read h =>
    unfold Definition.compileText at h
    split at h
    · exact ⟨_, _, h⟩
    · cases h

structure OfKind (s : RuleSet) (kind : Outcome.Kind) : Prop where
  addable : kind ≠ .action
  rules : ∀ rule ∈ s.rules, rule.outcome.kind = kind
  fallback : ∀ outcome ∈ s.fallback, outcome.kind = kind

theorem exists_ofKind {now : Instant} {d : Definition} (h : d.compile now = .ok s)
    (hm : s.mode = .accumulate) : ∃ kind, s.OfKind kind := by
  obtain ⟨kind, hkind, hrules, hfallback⟩ := Definition.kind_of_compile h hm
  exact ⟨kind, hkind, hrules, hfallback⟩

/-- Matched rules taken together: one score or one message from each of them, in their order. -/
inductive Together (matched : List Rule) : Outcome.Kind → DecisionOutcome → Prop where
  | score {scores : List Score} {total : Score}
      (parts : matched.map (·.outcome) = scores.map .contribution)
      (adds : Score.AddsUp scores total) : Together matched .contribution (.score total)
  | violations {messages : List String}
      (parts : matched.map (·.outcome) = messages.map .violation) :
      Together matched .violation (.violations messages)

theorem Together.kind? {matched : List Rule} {outcome : DecisionOutcome}
    (h : Together matched kind outcome) : outcome.kind? = some kind := by
  cases h <;> rfl

theorem OfKind.accumulated (h : s.OfKind kind) {matched : List Rule}
    (hmatched : ∀ rule ∈ matched, rule ∈ s.rules) (hne : matched ≠ []) :
    ∃ outcome, RuleSet.accumulated matched = some outcome ∧ Together matched kind outcome := by
  have hkind : ∀ rule ∈ matched, rule.outcome.kind = kind := fun rule hr =>
    h.rules rule (hmatched rule hr)
  cases kind with
  | action => exact absurd rfl h.addable
  | contribution =>
    obtain ⟨scores, hscores⟩ := outcomes_eq_map fun rule hr =>
      Outcome.eq_contribution_of_kind (hkind rule hr)
    exact ⟨_, accumulated_of_contributions hne hscores, .score hscores (Score.addsUp_sum scores)⟩
  | violation =>
    obtain ⟨messages, hmessages⟩ := outcomes_eq_map fun rule hr =>
      Outcome.eq_violation_of_kind (hkind rule hr)
    exact ⟨_, accumulated_of_violations hne hmessages, .violations hmessages⟩

theorem OfKind.defaultOutcome (h : s.OfKind kind) :
    s.defaultOutcome = .noDecision ∨ s.defaultOutcome.kind? = some kind := by
  cases hf : s.fallback with
  | none => exact .inl (by rw [RuleSet.defaultOutcome, hf]; rfl)
  | some outcome =>
    have hdefault : s.defaultOutcome = outcome.alone := by rw [RuleSet.defaultOutcome, hf]; rfl
    rw [hdefault, Outcome.kind?_alone, h.fallback outcome hf]
    exact .inr rfl

theorem OfKind.answer (h : s.OfKind kind) (hm : s.mode = .accumulate) (w : Record) :
    (s.covering w = [] ∧ s.answer w = ([], s.defaultOutcome)) ∨
    (s.covering w ≠ [] ∧ ∃ outcome, RuleSet.accumulated (s.covering w) = some outcome ∧
      Together (s.covering w) kind outcome ∧
      s.answer w = ((s.covering w).map (·.id), outcome)) := by
  by_cases hne : s.covering w = []
  · exact .inl ⟨hne, answer_of_unmatched hne⟩
  · have hrules : ∀ rule ∈ s.covering w, rule ∈ s.rules := fun rule hr => (List.mem_filter.1 hr).1
    obtain ⟨outcome, houtcome, htogether⟩ := h.accumulated hrules hne
    refine .inr ⟨hne, outcome, houtcome, htogether, ?_⟩
    rw [answer_of_accumulate hm, houtcome, Option.getD_some]

theorem OfKind.ne_action (h : s.OfKind kind) {outcome : DecisionOutcome}
    (ho : outcome = .noDecision ∨ outcome.kind? = some kind) (name : String) :
    outcome ≠ .action name := by
  rintro rfl
  rcases ho with ho | ho
  · cases ho
  · exact h.addable (Option.some.inj ho).symm

/-- A rule set that accumulates has one kind of outcome, which is no action, for its rules and its
fallback. Whatever the record, the decision is of this kind or there is none; the rules that matched
are all in it, and the fallback stands in only where none did. -/
theorem accumulate_one_kind (h : s.Obtained) (hm : s.mode = .accumulate) :
    ∃ kind, s.OfKind kind ∧ ∀ (traced : Bool) (stamp : Stamp) (r : Record),
      let matched := s.covering (Derivation.applyAll s.derived r)
      let decision := (s.evaluate traced stamp r).decision
      decision.matchedRuleIds = matched.map (·.id) ∧
      (∀ name, decision.outcome ≠ .action name ∧
        RuleSet.accumulated matched ≠ some (.action name)) ∧
      (matched ≠ [] → RuleSet.accumulated matched = some decision.outcome ∧
        Together matched kind decision.outcome) ∧
      (matched = [] → decision.outcome = s.defaultOutcome) ∧
      (decision.outcome = .noDecision ∨ decision.outcome.kind? = some kind) := by
  obtain ⟨now, d, hcompile⟩ := h.exists_definition
  obtain ⟨kind, hkind⟩ := exists_ofKind hcompile hm
  refine ⟨kind, hkind, fun traced stamp r => ?_⟩
  simp only [evaluate_decision]
  rcases hkind.answer hm (Derivation.applyAll s.derived r) with
    ⟨hnone, hanswer⟩ | ⟨hne, outcome, houtcome, htogether, hanswer⟩
  · have hdefault := hkind.defaultOutcome
    rw [hanswer, hnone]
    exact ⟨rfl, fun name => ⟨hkind.ne_action hdefault name, nofun⟩, absurd rfl, fun _ => rfl,
      hdefault⟩
  · have hof : outcome = .noDecision ∨ outcome.kind? = some kind := .inr htogether.kind?
    rw [hanswer, houtcome]
    exact ⟨rfl, fun name => ⟨hkind.ne_action hof name, by simpa using hkind.ne_action hof name⟩,
      fun _ => ⟨rfl, htogether⟩, fun hnone => absurd hnone hne, hof⟩

def quality : Definition where
  id := "quality"
  name := "Quality"
  description := none
  rules := [
    ⟨"age", "", .list [.expression "age < 0"], .violation "negative age"⟩,
    ⟨"zip", "", .suffixed [("zip", .text "00000")], .violation "no zip code"⟩]
  mode := .accumulate
  fallback := some (.violation "nothing found")
  derived := []
  definedAt := none

def qualityCompiled : RuleSet where
  id := "quality"
  name := "Quality"
  description := none
  rules := [
    ⟨"age", "age", [⟨"age", .lt, .number (Binary64.ofInt 0)⟩], .violation "negative age"⟩,
    ⟨"zip", "zip", [⟨"zip", .eq, .text "00000"⟩], .violation "no zip code"⟩]
  mode := .accumulate
  fallback := some (.violation "nothing found")
  derived := []
  definedAt := Instant.epoch

def placeholderCustomer : Record :=
  .ofList [("age", .number (Binary64.ofInt (-1))), ("zip", .text "00000")]

theorem accumulate_one_kind_quality :
    qualityCompiled.Obtained ∧ qualityCompiled.mode = .accumulate ∧
      (qualityCompiled.evaluate false ⟨"", .epoch⟩ placeholderCustomer).decision.matchedRuleIds =
        ["age", "zip"] ∧
      (qualityCompiled.evaluate false ⟨"", .epoch⟩ placeholderCustomer).decision.outcome =
        .violations ["negative age", "no zip code"] := by
  have hcompile : quality.compile .epoch = .ok qualityCompiled := rfl
  have hcovering : qualityCompiled.covering placeholderCustomer = qualityCompiled.rules := rfl
  obtain ⟨kind, -, hall⟩ := accumulate_one_kind (.compiled hcompile) rfl
  obtain ⟨hids, -, hmatched, -, -⟩ := hall false ⟨"", .epoch⟩ placeholderCustomer
  refine ⟨.compiled hcompile, rfl, hids.trans (congrArg _ hcovering), ?_⟩
  obtain ⟨htogether, -⟩ := hmatched (by rw [show Derivation.applyAll qualityCompiled.derived
    placeholderCustomer = placeholderCustomer from rfl, hcovering]; decide)
  exact Option.some.inj (htogether.symm.trans rfl)

end RuleSet

end Rulebook
