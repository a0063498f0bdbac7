import Rulebook.Proofs.Evaluation
import Rulebook.Report
/-!
Scores of decisions. Main statement: what the score of a decision is, and the sum of a report.
-/

set_option autoImplicit false

namespace Rulebook

namespace RuleSet

/-- What the rules that cover the record contribute, in the order of the rules. -/
def contributions (s : RuleSet) (w : Record) : List Score :=
  (s.covering w).filterMap (·.outcome.score?)

theorem covering_perm {s t : RuleSet} (h : t.rules.Perm s.rules) (w : Record) :
    (t.covering w).Perm (s.covering w) := h.filter _

theorem contributions_perm {s t : RuleSet} (h : t.rules.Perm s.rules) (w : Record) :
    (t.contributions w).Perm (s.contributions w) := (covering_perm h w).filterMap _

theorem outcomes_eq_contributions {s : RuleSet}
    (hk : ∀ rule ∈ s.rules, rule.outcome.kind = .contribution) (w : Record) :
    (s.covering w).map (·.outcome) = (s.contributions w).map .contribution := by
  obtain ⟨scores, hscores⟩ : ∃ scores : List Score,
      (s.covering w).map (·.outcome) = scores.map .contribution :=
    outcomes_eq_map fun rule hr =>
      Outcome.eq_contribution_of_kind (hk rule (List.mem_filter.1 hr).1)
  have hparts := congrArg (List.filterMap Outcome.score?) hscores
  have hs : s.contributions w = scores := by
    simpa [contributions, List.filterMap_map, Function.comp_def, Outcome.score?] using hparts
  rw [hs, hscores]

theorem outcome_of_contributions {s : RuleSet} (hm : s.mode = .accumulate)
    (hk : ∀ rule ∈ s.rules, rule.outcome.kind = .contribution) {r : Record}
    (hne : s.covering (Derivation.applyAll s.derived r) ≠ []) (traced : Bool) (stamp : Stamp) :
    (s.evaluate traced stamp r).decision.outcome =
      .score (Score.sum (s.contributions (Derivation.applyAll s.derived r))) := by
  have hmap := outcomes_eq_contributions hk (Derivation.applyAll s.derived r)
  rw [evaluate_decision, answer_of_accumulate hm, accumulated_of_contributions hne hmap]
  rfl

/-- The score of a decision, and the sum of a report, is the exact sum of what was contributed as
long as no running sum in the order of the rules leaves the range of scores; one that leaves it
stops at its end, and what follows is added from there. Steady contributions come to the score
nearest to their exact sum, in any order in which they are steady. -/
theorem score_iff_addsUp {s : RuleSet} (hm : s.mode = .accumulate)
    (hk : ∀ rule ∈ s.rules, rule.outcome.kind = .contribution) :
    (∀ (r : Record) (traced : Bool) (stamp : Stamp),
      let w := Derivation.applyAll s.derived r
      let outcome (t : RuleSet) := (t.evaluate traced stamp r).decision.outcome
      s.covering w ≠ [] →
        (s.covering w).map (·.outcome) = (s.contributions w).map .contribution ∧
        (∃ total, outcome s = .score total) ∧
        (∀ total, outcome s = .score total ↔ Score.AddsUp (s.contributions w) total) ∧
        (Score.Steady (s.contributions w) →
          outcome s = .score (Score.clamp (Score.exactSum (s.contributions w))) ∧
          ∀ t : RuleSet, t.mode = .accumulate → t.derived = s.derived → t.rules.Perm s.rules →
            Score.Steady (t.contributions w) → outcome t = outcome s)) ∧
    ∀ scores : List Score, scores ≠ [] →
      ∃ statistics, ScoreStatistics.ofScores? scores = some statistics ∧
        (∀ total, statistics.sum = total ↔ Score.AddsUp scores total) ∧
        (Score.Steady scores → statistics.sum = Score.clamp (Score.exactSum scores)) := by
  constructor
  · intro r traced stamp w outcome hne
    have hs : outcome s = .score (Score.sum (s.contributions w)) :=
      outcome_of_contributions hm hk hne traced stamp
    refine ⟨outcomes_eq_contributions hk w, ⟨_, hs⟩, fun total => ?_, fun hsteady => ?_⟩
    · rw [hs, DecisionOutcome.score.injEq, Score.sum_eq_iff_addsUp]
    · rw [hs, Score.sum_of_steady hsteady]
      refine ⟨rfl, fun t hmode hderived hperm hother => ?_⟩
      have hw : Derivation.applyAll t.derived r = w := by rw [hderived]
      have hcovered : t.covering w ≠ [] := fun hnil =>
        hne (List.Perm.eq_nil (hnil ▸ (covering_perm hperm w).symm))
      have ht : outcome t = .score (Score.sum (t.contributions w)) := by
        rw [← hw] at hcovered ⊢
        exact outcome_of_contributions hmode (fun rule hr => hk rule (hperm.mem_iff.1 hr))
          hcovered traced stamp
      rw [ht, Score.sum_of_steady hother, Score.exactSum_perm (contributions_perm hperm w)]
  · intro scores hne
    obtain ⟨first, later, rfl⟩ := List.exists_cons_of_ne_nil hne
    exact ⟨_, rfl, Score.sum_eq_iff_addsUp _, Score.sum_of_steady⟩

def brim : Definition where
  id := "brim"
  name := "Brim"
  description := none
  rules := [
    ⟨"full", "", .suffixed [("level", .text "full")], .contribution Score.greatest⟩,
    ⟨"more", "", .suffixed [("level", .text "full")], .contribution (Score.clamp 1)⟩,
    ⟨"less", "", .suffixed [("level", .text "full")], .contribution (Score.clamp (-1))⟩]
  mode := .accumulate
  fallback := none
  derived := []
  definedAt := none

def brimCompiled : RuleSet where
  id := "brim"
  name := "Brim"
  description := none
  rules := [
    ⟨"full", "full", [⟨"level", .eq, .text "full"⟩], .contribution Score.greatest⟩,
    ⟨"more", "more", [⟨"level", .eq, .text "full"⟩], .contribution (Score.clamp 1)⟩,
    ⟨"less", "less", [⟨"level", .eq, .text "full"⟩], .contribution (Score.clamp (-1))⟩]
  mode := .accumulate
  fallback := none
  derived := []
  definedAt := Instant.epoch

def fullRecord : Record := .ofList [("level", .text "full")]

/-- The exact sum is a score, and still the sum is another one. -/
theorem score_not_exact_brim :
    brim.compile Instant.epoch = .ok brimCompiled ∧
    brimCompiled.contributions fullRecord = [Score.greatest, Score.clamp 1, Score.clamp (-1)] ∧
    Score.exactSum (brimCompiled.contributions fullRecord) = Score.greatest.value ∧
    (brimCompiled.evaluate false ⟨"", Instant.epoch⟩ fullRecord).decision.outcome ≠
      .score Score.greatest ∧
    (ScoreStatistics.ofScores? (brimCompiled.contributions fullRecord)).map (·.sum) ≠
      some Score.greatest := by
  refine ⟨rfl, by decide +kernel, by decide +kernel, by decide +kernel, by decide +kernel⟩

theorem score_iff_addsUp_brim :
    brimCompiled.mode = .accumulate ∧
    (∀ rule ∈ brimCompiled.rules, rule.outcome.kind = .contribution) ∧
    brimCompiled.covering fullRecord ≠ [] ∧
    (brimCompiled.evaluate false ⟨"", Instant.epoch⟩ fullRecord).decision.outcome =
      .score (Score.clamp 0x7FFFFFFFFFFFFFFE) := by
  have hk : ∀ rule ∈ brimCompiled.rules, rule.outcome.kind = .contribution := by decide
  have hc : brimCompiled.contributions fullRecord =
      [Score.greatest] ++ Score.clamp 1 :: [Score.clamp (-1)] := by decide +kernel
  have hne : brimCompiled.covering fullRecord ≠ [] := fun h => by
    rw [contributions, h] at hc
    cases hc
  have hfull : Score.AddsUp [Score.greatest] Score.greatest := Score.addsUp_sum [Score.greatest]
  have hless : Score.StaysInRange Score.greatest.value [Score.clamp (-1)] :=
    Score.staysInRange_concat (Score.stays_nil _) (by decide)
  have hsum : Score.AddsUp (brimCompiled.contributions fullRecord)
      (Score.clamp 0x7FFFFFFFFFFFFFFE) := by
    rw [hc]
    exact .stopped hfull (.inl ⟨by decide, rfl⟩) hless (by decide)
  exact ⟨rfl, hk, hne,
    (((score_iff_addsUp rfl hk).1 fullRecord false ⟨"", Instant.epoch⟩ hne).2.2.1 _).2 hsum⟩

end RuleSet

end Rulebook
