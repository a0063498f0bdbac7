import Rulebook.Engine.Basic
import Rulebook.Proofs.Counts
import Rulebook.Proofs.Order
import Rulebook.Proofs.Results
/-!
Reports on decisions. A report accounts for each decision once, in whatever order they come, so that
the reports on two lists add up to the report on both. Main statement: what a report says, and that
the reports on the rule sets of a log add up to the report on the whole log. The sum and the mean of
the scores are left aside: a sum that leaves the range of scores depends on the order.
-/

set_option autoImplicit false

namespace Rulebook

namespace DecisionOutcome

def isAction : DecisionOutcome → Bool
  | .action _ => true
  | _ => false

def isScore : DecisionOutcome → Bool
  | .score _ => true
  | _ => false

theorem action?_eq_some {o : DecisionOutcome} {name : String} :
    o.action? = some name ↔ o = .action name := by cases o <;> simp [action?]

theorem isSome_action? (o : DecisionOutcome) : o.action?.isSome = o.isAction := by cases o <;> rfl

theorem score?_eq_some {o : DecisionOutcome} {s : Score} : o.score? = some s ↔ o = .score s := by
  cases o <;> simp [score?]

theorem isSome_score? (o : DecisionOutcome) : o.score?.isSome = o.isScore := by cases o <;> rfl

theorem isDecided_eq_not (o : DecisionOutcome) : (!o.isDecided) = decide (o = .noDecision) := by
  cases o <;> rfl

end DecisionOutcome

@[ext] structure Spread where
  count : Nat
  least : Score
  greatest : Score

def ScoreStatistics.spread (s : ScoreStatistics) : Spread := ⟨s.count, s.min, s.max⟩

namespace Spread

def join (p q : Spread) : Spread :=
  ⟨p.count + q.count, min p.least q.least, max p.greatest q.greatest⟩

instance : Std.Associative join where
  assoc _ _ _ := by
    simp only [join]
    congr 1 <;> ac_rfl

instance : Std.Commutative join where
  comm _ _ := by
    simp only [join]
    congr 1 <;> ac_rfl

structure Of (ds : List Decision) (p : Spread) : Prop where
  count : p.count = ds.countP (·.outcome.isScore)
  least : (∃ d ∈ ds, d.outcome = .score p.least) ∧
    ∀ d ∈ ds, ∀ s, d.outcome = .score s → p.least ≤ s
  greatest : (∃ d ∈ ds, d.outcome = .score p.greatest) ∧
    ∀ d ∈ ds, ∀ s, d.outcome = .score s → s ≤ p.greatest

end Spread

namespace ScoreStatistics

theorem spread_eq_some {scores : List Score} {p : Spread} :
    (ofScores? scores).map spread = some p ↔
      p.count = scores.length ∧ scores.min? = some p.least ∧ scores.max? = some p.greatest := by
  cases scores with
  | nil => simp [ofScores?]
  | cons s scores =>
    obtain ⟨count, least, greatest⟩ := p
    simp only [ofScores?, Option.map_some, spread, Option.some.injEq, Spread.mk.injEq,
      List.min?_cons', List.max?_cons', List.length_cons]
    exact and_congr_left' eq_comm

theorem isSome_ofScores? {scores : List Score} :
    (ofScores? scores).isSome = true ↔ ∃ s, s ∈ scores := by
  cases scores <;> simp [ofScores?]

theorem spread_append (scores later : List Score) :
    (ofScores? (scores ++ later)).map spread =
      Option.merge Spread.join ((ofScores? scores).map spread) ((ofScores? later).map spread) := by
  cases scores with
  | nil => simp [ofScores?]
  | cons s scores =>
    cases later with
    | nil => simp [ofScores?]
    | cons t later =>
      have hmin := min?_append (s :: scores) (t :: later)
      have hmax := max?_append (s :: scores) (t :: later)
      have hlength : (s :: scores ++ t :: later).length =
          (s :: scores).length + (t :: later).length := List.length_append
      exact spread_eq_some.2 ⟨hlength.symm, hmin, hmax⟩

end ScoreStatistics

@[ext] structure Figures where
  total : Nat
  decided : Nat
  undecided : Nat
  actions : Table Nat
  ruleHits : Table Nat
  violations : Nat
  scores : Option Spread
  first : Option Instant
  last : Option Instant

namespace Figures

instance : Zero Figures := ⟨⟨0, 0, 0, 0, 0, 0, none, none, none⟩⟩

/-- Counts are added, and of two ends the outer one counts. -/
instance : Add Figures where
  add a b := {
    total := a.total + b.total
    decided := a.decided + b.decided
    undecided := a.undecided + b.undecided
    actions := a.actions + b.actions
    ruleHits := a.ruleHits + b.ruleHits
    violations := a.violations + b.violations
    scores := Option.merge Spread.join a.scores b.scores
    first := Option.merge min a.first b.first
    last := Option.merge max a.last b.last }

instance : AddCommMonoid Figures where
  add_assoc _ _ _ := Figures.ext (add_assoc ..) (add_assoc ..) (add_assoc ..) (add_assoc ..)
    (add_assoc ..) (add_assoc ..) ((Option.associative_merge _).assoc ..)
    ((Option.associative_merge _).assoc ..) ((Option.associative_merge _).assoc ..)
  zero_add _ := Figures.ext (zero_add _) (zero_add _) (zero_add _) (zero_add _) (zero_add _)
    (zero_add _) Option.merge_none_left Option.merge_none_left Option.merge_none_left
  add_zero _ := Figures.ext (add_zero _) (add_zero _) (add_zero _) (add_zero _) (add_zero _)
    (add_zero _) Option.merge_none_right Option.merge_none_right Option.merge_none_right
  add_comm _ _ := Figures.ext (add_comm ..) (add_comm ..) (add_comm ..) (add_comm ..)
    (add_comm ..) (add_comm ..) ((Option.commutative_merge _).comm ..)
    ((Option.commutative_merge _).comm ..) ((Option.commutative_merge _).comm ..)
  nsmul := nsmulRec

end Figures

namespace Summary

def figures (s : Summary) : Figures where
  total := s.total
  decided := s.decided
  undecided := s.undecided
  actions := s.actions
  ruleHits := s.ruleHits
  violations := s.violations
  scores := s.scores.map ScoreStatistics.spread
  first := s.first
  last := s.last

theorem mem_scores {ds : List Decision} {s : Score} :
    s ∈ ds.filterMap (·.outcome.score?) ↔ ∃ d ∈ ds, d.outcome = .score s := by
  simp only [List.mem_filterMap, DecisionOutcome.score?_eq_some]

theorem forall_mem_scores {ds : List Decision} {P : Score → Prop} :
    (∀ s ∈ ds.filterMap (·.outcome.score?), P s) ↔
      ∀ d ∈ ds, ∀ s, d.outcome = .score s → P s := by
  simp only [mem_scores]
  exact ⟨fun h d hd s hs => h s ⟨d, hd, hs⟩, fun h s ⟨d, hd, hs⟩ => h d hd s hs⟩

theorem earliest_eq (ts : List Instant) : earliest ts = ts.min? := by cases ts <;> rfl

theorem latest_eq (ts : List Instant) : latest ts = ts.max? := by cases ts <;> rfl

theorem figures_nil : (ofDecisions []).figures = 0 := rfl

theorem figures_append (ds es : List Decision) :
    (ofDecisions (ds ++ es)).figures = (ofDecisions ds).figures + (ofDecisions es).figures := by
  ext1
  case total => exact List.length_append
  case decided => exact List.countP_append
  case undecided => exact List.countP_append
  case actions =>
    simp only [figures, ofDecisions, List.filterMap_append]
    exact Table.tally_append ..
  case ruleHits =>
    simp only [figures, ofDecisions, List.flatMap_append]
    exact Table.tally_append ..
  case violations =>
    simp only [figures, ofDecisions, List.flatMap_append]
    exact List.length_append
  case scores =>
    simp only [figures, ofDecisions, List.filterMap_append]
    exact ScoreStatistics.spread_append ..
  case first =>
    simp only [figures, ofDecisions, List.map_append, earliest_eq]
    exact min?_append ..
  case last =>
    simp only [figures, ofDecisions, List.map_append, latest_eq]
    exact max?_append ..

/-- A report is the sum of what each decision adds to it. -/
theorem figures_eq_sum (ds : List Decision) :
    (ofDecisions ds).figures = (ds.map fun d => (ofDecisions [d]).figures).sum := by
  induction ds with
  | nil => exact figures_nil
  | cons d ds ih => rw [List.map_cons, List.sum_cons, ← ih, ← figures_append, List.singleton_append]

theorem figures_perm {ds es : List Decision} (h : ds.Perm es) :
    (ofDecisions es).figures = (ofDecisions ds).figures := by
  rw [figures_eq_sum, figures_eq_sum]
  exact (h.symm.map _).sum_eq

theorem sum_figures_parts {ids : List String} (hids : ids.Nodup) {ds : List Decision}
    (hds : ∀ d ∈ ds, d.ruleSetId ∈ ids) :
    (ids.map fun id => (ofDecisions (ds.filter (·.ruleSetId == id))).figures).sum =
      (ofDecisions ds).figures := by
  induction ids generalizing ds with
  | nil =>
    obtain rfl : ds = [] := List.eq_nil_iff_forall_not_mem.2 fun d hd => by cases hds d hd
    exact figures_nil.symm
  | cons id ids ih =>
    obtain ⟨hid, hids⟩ := List.nodup_cons.1 hids
    have hothers : ∀ d ∈ ds.filter (!·.ruleSetId == id), d.ruleSetId ∈ ids := by
      intro d hd
      obtain ⟨hd, hne⟩ := List.mem_filter.1 hd
      exact (List.mem_cons.1 (hds d hd)).resolve_left (by simpa using hne)
    have hparts : ids.map (fun id' => (ofDecisions (ds.filter (·.ruleSetId == id'))).figures) =
        ids.map fun id' =>
          (ofDecisions ((ds.filter (!·.ruleSetId == id)).filter (·.ruleSetId == id'))).figures := by
      refine List.map_congr_left fun id' hid' => ?_
      rw [List.filter_filter]
      congr 2
      refine List.filter_congr fun d _ => ?_
      by_cases heq : d.ruleSetId = id'
      · have hne : id' ≠ id := fun h => hid (h ▸ hid')
        simp [heq, hne]
      · simp [heq]
    rw [List.map_cons, List.sum_cons, hparts, ih hids hothers, ← figures_append]
    exact figures_perm (List.filter_append_perm _ ds).symm

structure Accounts (ds : List Decision) (s : Summary) : Prop where
  total : s.total = ds.length
  parts : s.decided + s.undecided = s.total
  undecided : s.undecided = ds.countP (·.outcome = .noDecision)
  actions : ∀ name, s.actions.get? name = Table.counted (ds.countP (·.outcome = .action name))
  allActions : s.actions.values.sum = ds.countP (·.outcome.isAction)
  ruleHits : ∀ id, s.ruleHits.get? id =
    Table.counted ((ds.flatMap (·.matchedRuleIds)).count id)
  violations : s.violations = (ds.map fun d => d.outcome.messages.length).sum
  scored : s.scores.isSome = true ↔ ∃ d ∈ ds, ∃ score, d.outcome = .score score
  scores : ∀ p, s.scores.map ScoreStatistics.spread = some p ↔ p.Of ds
  first : ∀ t, s.first = some t ↔ (∃ d ∈ ds, d.evaluatedAt = t) ∧ ∀ d ∈ ds, t ≤ d.evaluatedAt
  last : ∀ t, s.last = some t ↔ (∃ d ∈ ds, d.evaluatedAt = t) ∧ ∀ d ∈ ds, d.evaluatedAt ≤ t

theorem accounts_ofDecisions (ds : List Decision) : Accounts ds (ofDecisions ds) := by
  constructor
  case total => rfl
  case parts =>
    rw [ofDecisions, List.length_eq_countP_add_countP fun d : Decision => d.outcome.isDecided]
    simp
  case undecided =>
    exact List.countP_congr fun d _ => by rw [DecisionOutcome.isDecided_eq_not]
  case actions =>
    intro name
    simp only [ofDecisions, Table.get?_tally, List.count_filterMap]
    refine congrArg Table.counted (List.countP_congr fun d _ => ?_)
    simp [DecisionOutcome.action?_eq_some]
  case allActions =>
    simp only [ofDecisions, Table.sum_values_tally, List.length_filterMap_eq_countP,
      DecisionOutcome.isSome_action?]
  case ruleHits => exact fun id => Table.get?_tally _ id
  case violations => exact List.length_flatMap
  case scored =>
    simp only [ofDecisions, ScoreStatistics.isSome_ofScores?, mem_scores]
    exact ⟨fun ⟨s, d, hd, hs⟩ => ⟨d, hd, s, hs⟩, fun ⟨d, hd, s, hs⟩ => ⟨s, d, hd, hs⟩⟩
  case scores =>
    intro p
    rw [ofDecisions, ScoreStatistics.spread_eq_some, List.min?_eq_some_iff, List.max?_eq_some_iff,
      mem_scores, mem_scores, forall_mem_scores, forall_mem_scores,
      List.length_filterMap_eq_countP]
    simp only [DecisionOutcome.isSome_score?]
    exact ⟨fun ⟨hcount, hleast, hgreatest⟩ => ⟨hcount, hleast, hgreatest⟩,
      fun h => ⟨h.count, h.least, h.greatest⟩⟩
  case first =>
    intro t
    rw [ofDecisions, earliest_eq, List.min?_eq_some_iff, List.forall_mem_map, List.mem_map]
  case last =>
    intro t
    rw [ofDecisions, latest_eq, List.max?_eq_some_iff, List.forall_mem_map, List.mem_map]

end Summary

/-- What a query for one rule set answers is part of what a query for all answers. -/
theorem DecisionLog.query_one {log : DecisionLog} {disk : Disk} {outage : Option LogError}
    {ds : List Decision} (h : log.query disk outage none = .ok ds) (id : String) :
    log.query disk outage (some id) = .ok (ds.filter (·.ruleSetId == id)) := by
  have hall (all : List Decision) : all.filter (ofRuleSet none) = all := List.filter_true all
  unfold query at h ⊢
  cases outage with
  | some e => cases h
  | none =>
    cases log with
    | memory decisions =>
      simp only [hall] at h
      cases h
      rfl
    | file p handle =>
      dsimp only at h ⊢
      split at h
      · cases h
        rfl
      · cases h
      · split at h
        · simp only [hall] at h
          cases h
          rfl
        · cases h

theorem Engine.summarize_one {e : Engine} {disk : Disk} {outage : Option LogError}
    {ds : List Decision} (h : e.decisions disk outage none = .ok ds) (id : String) :
    e.summarize disk outage (some id) =
      .ok (Summary.ofDecisions (ds.filter (·.ruleSetId == id))) := by
  have hquery := DecisionLog.query_one (mapError_eq_ok.1 h) id
  rw [summarize, decisions, hquery]
  rfl

namespace Summary

def mixed : List Decision :=
  let decision (ruleSet : String) (rules : List String) (outcome : DecisionOutcome) (second : Nat) :
      Decision := ⟨"", ruleSet, .empty, rules, outcome, ⟨Instant.epoch.date, second, 0⟩⟩
  [decision "lead" ["R1", "R3"] (.score (Score.clamp 70)) 10,
    decision "quality" ["V1", "V2"] (.violations ["a", "b"]) 1,
    decision "lead" ["R1"] (.score (Score.clamp 30)) 5,
    decision "lead" [] .noDecision 20]

def mixedLog : Engine := { Engine.empty with log := .memory mixed }

end Summary

end Rulebook
