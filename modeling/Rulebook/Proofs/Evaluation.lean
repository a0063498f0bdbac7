import Rulebook.Proofs.Compilation
import Rulebook.Proofs.Score
import Rulebook.Evaluation
/-!
What an evaluation comes to. `Decides` says it in five rules, by the first rule that covers the
record or by all rules that do, without a scan. Main statement: an evaluation gives the one answer
these rules allow, together with the record as it was handed in.
-/

set_option autoImplicit false

namespace Rulebook

namespace Rule

theorem scanFrom_covered (rule : String) (r : Record) (index : Nat) (cs : List Condition) :
    (scanFrom rule r index cs).1 = cs.all fun c => (c.check r).isSatisfied := by
  induction cs generalizing index with
  | nil => rfl
  | cons c cs ih =>
    cases h : (c.check r).isSatisfied with
    | true => simp [scanFrom, h, ih]
    | false => simp [scanFrom, h]

theorem scan_covered (rule : Rule) (r : Record) : (rule.scan r).1 = rule.covers r :=
  scanFrom_covered rule.id r 0 rule.conditions

end Rule

namespace Outcome

theorem eq_contribution_of_kind {o : Outcome} (h : o.kind = .contribution) :
    ∃ score, o = .contribution score := by
  cases o with
  | contribution score => exact ⟨score, rfl⟩
  | action | violation => cases h

theorem eq_violation_of_kind {o : Outcome} (h : o.kind = .violation) :
    ∃ message, o = .violation message := by
  cases o with
  | violation message => exact ⟨message, rfl⟩
  | action | contribution => cases h

end Outcome

namespace RuleSet

theorem scan_firstMatch (r : Record) (rules : List Rule) :
    (scan .firstMatch r rules).1 = (rules.find? (·.covers r)).toList := by
  induction rules with
  | nil => rfl
  | cons rule rules ih =>
    cases h : rule.covers r with
    | true => simp [scan, rule.scan_covered r, h]
    | false => simp [scan, rule.scan_covered r, h, ih]

theorem scan_accumulate (r : Record) (rules : List Rule) :
    (scan .accumulate r rules).1 = rules.filter (·.covers r) := by
  induction rules with
  | nil => rfl
  | cons rule rules ih =>
    cases h : rule.covers r with
    | true => simp [scan, rule.scan_covered r, h, ih]
    | false => simp [scan, rule.scan_covered r, h, ih]

def covering (s : RuleSet) (w : Record) : List Rule := s.rules.filter (·.covers w)

/-- The answers a rule set may give for a record whose derived fields are in place: identifiers of
matched rules, and an outcome. -/
inductive Decides (s : RuleSet) (w : Record) : List String → DecisionOutcome → Prop where
  | first {before after : List Rule} {rule : Rule} (mode : s.mode = .firstMatch)
      (order : s.rules = before ++ rule :: after) (passed : ∀ q ∈ before, q.covers w = false)
      (covered : rule.covers w = true) : Decides s w [rule.id] rule.outcome.alone
  | total {scores : List Score} {total : Score} (mode : s.mode = .accumulate)
      (matched : s.covering w ≠ [])
      (outcomes : (s.covering w).map (·.outcome) = scores.map .contribution)
      (adds : Score.AddsUp scores total) :
      Decides s w ((s.covering w).map (·.id)) (.score total)
  | report {messages : List String} (mode : s.mode = .accumulate) (matched : s.covering w ≠ [])
      (outcomes : (s.covering w).map (·.outcome) = messages.map .violation) :
      Decides s w ((s.covering w).map (·.id)) (.violations messages)
  | fallback {outcome : Outcome} (unmatched : s.covering w = [])
      (fallback : s.fallback = some outcome) : Decides s w [] outcome.alone
  | undecided (unmatched : s.covering w = []) (fallback : s.fallback = none) :
      Decides s w [] .noDecision

def answer (s : RuleSet) (w : Record) : List String × DecisionOutcome :=
  let matched := (scan s.mode w s.rules).1
  (matched.map (·.id), (matchedOutcome? s.mode matched).getD s.defaultOutcome)

theorem evaluate_decision (s : RuleSet) (traced : Bool) (stamp : Stamp) (r : Record) :
    (s.evaluate traced stamp r).decision =
      { id := stamp.id
        ruleSetId := s.id
        record := r
        matchedRuleIds := (s.answer (Derivation.applyAll s.derived r)).1
        outcome := (s.answer (Derivation.applyAll s.derived r)).2
        evaluatedAt := stamp.time } := rfl

theorem answer_of_unmatched {s : RuleSet} {w : Record} (h : s.covering w = []) :
    s.answer w = ([], s.defaultOutcome) := by
  cases hm : s.mode with
  | firstMatch =>
    have hf : s.rules.find? (·.covers w) = none :=
      List.find?_eq_none.2 (by simpa [covering] using h)
    simp [answer, hm, scan_firstMatch, hf, matchedOutcome?]
  | accumulate =>
    have hf : s.rules.filter (·.covers w) = [] := h
    simp [answer, hm, scan_accumulate, hf, matchedOutcome?, accumulated]

theorem answer_of_accumulate {s : RuleSet} {w : Record} (hm : s.mode = .accumulate) :
    s.answer w = ((s.covering w).map (·.id),
      (accumulated (s.covering w)).getD s.defaultOutcome) := by
  simp [answer, hm, scan_accumulate, covering, matchedOutcome?]

theorem parts_of_outcomes {α : Type} {wrap : α → Outcome} (part? : Outcome → Option α)
    (hpart : ∀ a, part? (wrap a) = some a) {matched : List Rule} {parts : List α}
    (hne : matched ≠ []) (h : matched.map (·.outcome) = parts.map wrap) :
    (∃ first a, matched.head? = some first ∧ first.outcome = wrap a) ∧
      matched.filterMap (fun rule => part? rule.outcome) = parts := by
  constructor
  · obtain ⟨first, later, rfl⟩ := List.exists_cons_of_ne_nil hne
    cases parts with
    | nil => cases h
    | cons a parts => exact ⟨first, a, rfl, (List.cons.inj h).1⟩
  · have hparts := congrArg (List.filterMap part?) h
    simpa [List.filterMap_map, Function.comp_def, hpart] using hparts

theorem accumulated_of_contributions {matched : List Rule} {scores : List Score}
    (hne : matched ≠ []) (h : matched.map (·.outcome) = scores.map .contribution) :
    accumulated matched = some (.score (Score.sum scores)) := by
  obtain ⟨⟨first, score, hhead, hfirst⟩, hscores⟩ :=
    parts_of_outcomes Outcome.score? (fun _ => rfl) hne h
  simp only [accumulated, hhead, Option.map_some, hfirst, hscores]

theorem accumulated_of_violations {matched : List Rule} {messages : List String}
    (hne : matched ≠ []) (h : matched.map (·.outcome) = messages.map .violation) :
    accumulated matched = some (.violations messages) := by
  obtain ⟨⟨first, message, hhead, hfirst⟩, hmessages⟩ :=
    parts_of_outcomes Outcome.message? (fun _ => rfl) hne h
  simp only [accumulated, hhead, Option.map_some, hfirst, hmessages]

theorem answer_of_decides {s : RuleSet} {w : Record} {ids : List String}
    {outcome : DecisionOutcome} (h : s.Decides w ids outcome) : s.answer w = (ids, outcome) := by
  cases h with
  | @first before after rule mode order passed covered =>
    have hf : s.rules.find? (·.covers w) = some rule := by
      rw [order, List.find?_append, List.find?_eq_none.2 (by simpa using passed)]
      simp [covered]
    simp [answer, mode, scan_firstMatch, hf, matchedOutcome?]
  | total mode matched outcomes adds =>
    rw [answer_of_accumulate mode, accumulated_of_contributions matched outcomes,
      Score.sum_of_addsUp adds]
    rfl
  | report mode matched outcomes =>
    rw [answer_of_accumulate mode, accumulated_of_violations matched outcomes]
    rfl
  | fallback unmatched fallback =>
    rw [answer_of_unmatched unmatched]
    simp [defaultOutcome, fallback]
  | undecided unmatched fallback =>
    rw [answer_of_unmatched unmatched]
    simp [defaultOutcome, fallback]

theorem outcomes_eq_map {α : Type} {wrap : α → Outcome} {rules : List Rule}
    (h : ∀ rule ∈ rules, ∃ a, rule.outcome = wrap a) :
    ∃ parts : List α, rules.map (·.outcome) = parts.map wrap := by
  induction rules with
  | nil => exact ⟨[], rfl⟩
  | cons rule rules ih =>
    obtain ⟨⟨a, ha⟩, hrules⟩ := List.forall_mem_cons.1 h
    obtain ⟨parts, hparts⟩ := ih hrules
    exact ⟨a :: parts, by rw [List.map_cons, ha, hparts, List.map_cons]⟩

theorem exists_decides {now : Instant} {d : Definition} {s : RuleSet}
    (h : d.compile now = .ok s) (w : Record) : ∃ ids outcome, s.Decides w ids outcome := by
  by_cases hu : s.covering w = []
  · cases hf : s.fallback with
    | some outcome => exact ⟨_, _, .fallback hu hf⟩
    | none => exact ⟨_, _, .undecided hu hf⟩
  · cases hm : s.mode with
    | firstMatch =>
      obtain ⟨rule, hr⟩ := List.exists_mem_of_ne_nil _ hu
      obtain ⟨hr, hc⟩ := List.mem_filter.1 hr
      have hsome : (s.rules.find? (·.covers w)).isSome := List.find?_isSome.2 ⟨rule, hr, hc⟩
      obtain ⟨first, hfirst⟩ := Option.isSome_iff_exists.1 hsome
      obtain ⟨hcovers, before, after, horder, hpassed⟩ := List.find?_eq_some_iff_append.1 hfirst
      exact ⟨_, _, .first hm horder (by simpa using hpassed) hcovers⟩
    | accumulate =>
      obtain ⟨kind, hk, hall, -⟩ := Definition.kind_of_compile h hm
      have hall : ∀ rule ∈ s.covering w, rule.outcome.kind = kind :=
        fun rule hr => hall rule (List.mem_filter.1 hr).1
      cases kind with
      | action => exact absurd rfl hk
      | contribution =>
        obtain ⟨scores, hs⟩ := outcomes_eq_map fun rule hr =>
          Outcome.eq_contribution_of_kind (hall rule hr)
        exact ⟨_, _, .total hm hu hs (Score.addsUp_sum scores)⟩
      | violation =>
        obtain ⟨messages, hs⟩ := outcomes_eq_map fun rule hr =>
          Outcome.eq_violation_of_kind (hall rule hr)
        exact ⟨_, _, .report hm hu hs⟩

theorem decides_iff_answer {now : Instant} {d : Definition} {s : RuleSet}
    (h : d.compile now = .ok s) (w : Record) (ids : List String) (outcome : DecisionOutcome) :
    s.Decides w ids outcome ↔ s.answer w = (ids, outcome) := by
  refine ⟨answer_of_decides, fun ha => ?_⟩
  obtain ⟨ids', outcome', hd⟩ := exists_decides h w
  rw [answer_of_decides hd, Prod.mk.injEq] at ha
  exact ha.1 ▸ ha.2 ▸ hd

/-- For every record a compiled rule set gives exactly the answer that `Decides` allows on the
record with its derived fields, and keeps the record without them, traced or not. A list of records
is answered position by position as its members are alone. -/
theorem evaluate_iff_decides {now : Instant} {d : Definition} {s : RuleSet}
    (h : d.compile now = .ok s) :
    (∀ (traced : Bool) (stamp : Stamp) (r : Record),
      (s.evaluate traced stamp r).decision.record = r ∧
      ∀ (ids : List String) (outcome : DecisionOutcome),
        s.Decides (Derivation.applyAll s.derived r) ids outcome ↔
          (s.evaluate traced stamp r).decision.matchedRuleIds = ids ∧
          (s.evaluate traced stamp r).decision.outcome = outcome) ∧
    ∀ (traced traced' : Bool) (stamps : Nat → Stamp) (stamp : Stamp) (rs : List Record),
      (s.evaluateAll traced stamps rs).map
          (fun v => (v.decision.matchedRuleIds, v.decision.outcome)) =
        rs.map fun r => ((s.evaluate traced' stamp r).decision.matchedRuleIds,
          (s.evaluate traced' stamp r).decision.outcome) := by
  refine ⟨fun traced stamp r => ⟨rfl, fun ids outcome => ?_⟩, fun _ _ _ _ rs => ?_⟩
  · rw [decides_iff_answer h, evaluate_decision, Prod.ext_iff]
  · refine List.ext_getElem (by simp [evaluateAll]) fun k _ _ => ?_
    simp [evaluateAll, evaluate_decision]

def points : Definition where
  id := "points"
  name := "Points"
  description := none
  rules := [
    ⟨"vip", "", .list [.structured "level" "==" (.text "gold")], .contribution (Score.clamp 40)⟩,
    ⟨"large", "", .suffixed [("amount_gt", .number (.integer 500))],
      .contribution (Score.clamp 30)⟩]
  mode := .accumulate
  fallback := some (.contribution Score.zero)
  derived := [.copy "user.level" "level"]
  definedAt := none

def pointsCompiled : RuleSet where
  id := "points"
  name := "Points"
  description := none
  rules := [
    ⟨"vip", "vip", [⟨"level", .eq, .text "gold"⟩], .contribution (Score.clamp 40)⟩,
    ⟨"large", "large", [⟨"amount", .gt, .number (Binary64.ofInt 500)⟩],
      .contribution (Score.clamp 30)⟩]
  mode := .accumulate
  fallback := some (.contribution Score.zero)
  derived := [.copy "user.level" "level"]
  definedAt := Instant.epoch

/-- The level that counts is the derived one, whatever the record says itself. -/
def goldCustomer : Record :=
  .ofList [("level", .text "none"), ("user.level", .text "gold"),
    ("amount", .number (Binary64.ofInt 600))]

theorem evaluate_iff_decides_points :
    points.compile Instant.epoch = .ok pointsCompiled ∧
    pointsCompiled.Decides (Derivation.applyAll pointsCompiled.derived goldCustomer)
      ["vip", "large"] (.score (Score.clamp 70)) := by
  have h : points.compile Instant.epoch = .ok pointsCompiled := rfl
  have hv := (evaluate_iff_decides h).1 false ⟨"", Instant.epoch⟩ goldCustomer
  exact ⟨h, (hv.2 _ _).2 ⟨by decide +kernel, by decide +kernel⟩⟩

end RuleSet

end Rulebook
