import Rulebook.Decision
/-!
Reports on decisions: what they came to, how often each rule matched, and grades for scores. Grades
are the caller's policy and play no part in a decision.
-/

set_option autoImplicit false

namespace Rulebook

def Score.mean (scores : List Score) : Float :=
  scores.foldl (fun sum s => sum + s.toFloat) 0 / Binary64.ofInt scores.length

structure ScoreStatistics where
  count : Nat
  min : Score
  max : Score
  sum : Score
  mean : Float
  deriving BEq

namespace ScoreStatistics

def lesser (a b : Score) : Score := if b.value < a.value then b else a

def greater (a b : Score) : Score := if a.value < b.value then b else a

def ofScores? : List Score → Option ScoreStatistics
  | [] => none
  | s :: rest => some {
      count := rest.length + 1
      min := rest.foldl lesser s
      max := rest.foldl greater s
      sum := Score.sum (s :: rest)
      mean := Score.mean (s :: rest) }

def toJson (s : ScoreStatistics) : Json :=
  .fields [("count", .number (.integer s.count)), ("min", s.min.toJson), ("max", s.max.toJson),
    ("sum", s.sum.toJson), ("mean", .number (.real s.mean))]

end ScoreStatistics

structure Summary where
  total : Nat
  decided : Nat
  undecided : Nat
  actions : Table Nat
  ruleHits : Table Nat
  violations : Nat
  scores : Option ScoreStatistics
  first : Option Instant
  last : Option Instant

namespace Summary

def earliest : List Instant → Option Instant
  | [] => none
  | t :: ts => some (ts.foldl Instant.min t)

def latest : List Instant → Option Instant
  | [] => none
  | t :: ts => some (ts.foldl Instant.max t)

def ofDecisions (ds : List Decision) : Summary where
  total := ds.length
  decided := ds.countP (·.outcome.isDecided)
  undecided := ds.countP (!·.outcome.isDecided)
  actions := Table.tally (ds.filterMap (·.outcome.action?))
  ruleHits := Table.tally (ds.flatMap (·.matchedRuleIds))
  violations := (ds.flatMap (·.outcome.messages)).length
  scores := ScoreStatistics.ofScores? (ds.filterMap (·.outcome.score?))
  first := earliest (ds.map (·.evaluatedAt))
  last := latest (ds.map (·.evaluatedAt))

def countsToJson (t : Table Nat) : Json :=
  .fields (t.entries.map fun (k, n) => (k, .number (.integer n)))

def toJson (s : Summary) : Json :=
  .fields [("total", .number (.integer s.total)), ("decided", .number (.integer s.decided)),
    ("no_decision", .number (.integer s.undecided)), ("actions", countsToJson s.actions),
    ("rule_hits", countsToJson s.ruleHits), ("violations", .number (.integer s.violations)),
    ("scores", (s.scores.map ScoreStatistics.toJson).getD .null),
    ("first_evaluated_at", (s.first.map Instant.toJson).getD .null),
    ("last_evaluated_at", (s.last.map Instant.toJson).getD .null)]

end Summary

structure Band where
  threshold : Score
  grade : String
  deriving DecidableEq

structure GradeBands where
  bands : List Band
  default : String
  deriving DecidableEq

namespace GradeBands

/-- From the highest threshold down; bands with equal thresholds keep their order. -/
def ofList (bands : List Band) (default : String) : GradeBands :=
  ⟨bands.mergeSort fun a b => decide (b.threshold.value ≤ a.threshold.value), default⟩

def leads : GradeBands := ofList [⟨Score.clamp 80, "A"⟩, ⟨Score.clamp 50, "B"⟩] "C"

def grade (g : GradeBands) (s : Score) : String :=
  ((g.bands.find? fun b => decide (b.threshold.value ≤ s.value)).map Band.grade).getD g.default

def distribution (g : GradeBands) (ds : List Decision) : Table Nat :=
  Table.tally ((ds.filterMap (·.outcome.score?)).map g.grade)

def bandOfJson? : Json → Option Band
  | .list [threshold, .text grade] => (Score.ofJson? threshold).map (⟨·, grade⟩)
  | _ => none

/-- The bands are taken in the order in which they are written. -/
def ofJson? (j : Json) : Option GradeBands := do
  match ← j.structure? ["bands", "default_grade"] with
  | [bands, default] =>
    pure ⟨← Json.required? (Json.listOf? bandOfJson?) bands, ← Json.required? Json.text? default⟩
  | _ => none

def read? (s : String) : Option GradeBands := (Json.read? s).bind ofJson?

def toJson (g : GradeBands) : Json :=
  .fields [("bands", .list (g.bands.map fun b => .list [b.threshold.toJson, .text b.grade])),
    ("default_grade", .text g.default)]

end GradeBands

end Rulebook
