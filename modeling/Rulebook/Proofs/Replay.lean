import Rulebook.Proofs.DecisionLog.Session
import Rulebook.Proofs.Evaluation
import Rulebook.Proofs.LiveFields
import Rulebook.Proofs.Validation
/-!
Replaying the log. A record that is written loses its numbers that are not finite, and with them
what is derived from them; nothing new matches what is left. Main statement: a decision that was
appended and read back comes out again, exactly if what its matched rules look at is all still there.
-/

set_option autoImplicit false

namespace Rulebook

namespace Record

theorem written_entries (r : Record) :
    r.written.entries = r.entries.map fun e => (e.1, e.2.written) := by
  have hincreasing : Entries.Increasing (r.entries.map fun e => (e.1, e.2.written)) := by
    have h : Entries.Increasing r.entries := r.table.increasing
    rwa [Entries.Increasing, List.map_map]
  exact Table.entries_ofList hincreasing

theorem get?_written (r : Record) (f : String) :
    r.written.get? f = (r.get? f).filter Value.isFinite := by
  have hstored : r.written.stored? f = (r.stored? f).map Value.written := by
    change r.written.entries.lookup f = _
    rw [written_entries, Entries.lookup_map]
    rfl
  rw [get?, get?, hstored]
  cases r.stored? f with
  | none => rfl
  | some v =>
    cases v with
    | number x =>
      cases h : (Value.number x).isFinite with
      | true =>
        rw [Option.map_some, Value.written, if_pos h]
        exact (Option.filter_some_pos h).symm
      | false =>
        rw [Option.map_some, Value.written, h]
        exact (Option.filter_some_neg h).symm
    | text | boolean | absent => rfl

/-- A record with the values of another one, some of them missing. -/
def Within (r' r : Record) : Prop := ∀ f, r'.get? f = none ∨ r'.get? f = r.get? f

theorem within_written (r : Record) : r.written.Within r := by
  intro f
  rw [get?_written]
  cases r.get? f with
  | none => exact .inl rfl
  | some v =>
    by_cases h : v.isFinite = true
    · exact .inr (Option.filter_some_pos h)
    · exact .inl (Option.filter_some_neg (by simpa using h))

end Record

open Record (Within)

variable {r r' : Record}

theorem Operand.resolve?_within (h : Within r' r) (o : Operand) :
    o.resolve? r' = none ∨ o.resolve? r' = o.resolve? r := by
  cases o with
  | constant x => exact .inr rfl
  | field name =>
    rcases h name with hnone | hsame
    · exact .inl (by rw [resolve?, hnone, Option.bind_none])
    · exact .inr (by rw [resolve?, resolve?, hsame])

namespace Derivation

/-- With fewer values a derivation has no result or the same one. -/
theorem result?_within (h : Within r' r) (d : Derivation) :
    d.result? r' = none ∨ d.result? r' = d.result? r := by
  cases d with
  | copy source target => exact h source
  | constant target value => exact .inr rfl
  | arithmetic target left op right =>
    rcases left.resolve?_within h with hnone | hleft
    · exact .inl (by rw [result?, hnone]; rfl)
    · rcases right.resolve?_within h with hnone | hright
      · refine .inl ?_
        rw [result?, hnone]
        cases left.resolve? r' <;> rfl
      · exact .inr (by rw [result?, result?, hleft, hright])

theorem within_apply (h : Within r' r) (d : Derivation) : Within (d.apply r') (d.apply r) := by
  intro f
  rw [get?_apply, get?_apply]
  by_cases hf : f = d.target
  · rw [if_pos hf, if_pos hf]
    rcases d.result?_within h with hnone | hsame
    · exact .inl (by rw [hnone]; rfl)
    · exact .inr (by rw [hsame])
  · rw [if_neg hf, if_neg hf]
    exact h f

theorem within_applyAll (h : Within r' r) (ds : List Derivation) :
    Within (applyAll ds r') (applyAll ds r) := by
  induction ds generalizing r r' with
  | nil => exact h
  | cons d ds ih => exact ih (d.within_apply h)

end Derivation

theorem Condition.check_of_missing {c : Condition} (h : r.get? c.field = none) :
    (c.check r).isSatisfied = false := by
  rw [check, h]
  rfl

namespace Rule

variable {rule : Rule}

theorem covers_of_within (h : Within r' r) (hcovers : rule.covers r' = true) :
    rule.covers r = true := by
  refine List.all_eq_true.2 fun c hc => ?_
  have hc' : (c.check r').isSatisfied = true := List.all_eq_true.1 hcovers c hc
  rcases h c.field with hnone | hsame
  · rw [Condition.check_of_missing hnone] at hc'
    cases hc'
  · rwa [Condition.check, hsame] at hc'

/-- A rule that covers a record covers one with fewer values if it finds there what it looks at. -/
theorem covers_within_iff (h : Within r' r) (hcovers : rule.covers r = true) :
    rule.covers r' = true ↔ ∀ c ∈ rule.conditions, r'.get? c.field ≠ none := by
  constructor
  · intro hcovers' c hc hnone
    have hc' : (c.check r').isSatisfied = true := List.all_eq_true.1 hcovers' c hc
    rw [Condition.check_of_missing hnone] at hc'
    cases hc'
  · intro hthere
    refine List.all_eq_true.2 fun c hc => ?_
    have hsame := (h c.field).resolve_left (hthere c hc)
    rw [Condition.check, hsame]
    exact List.all_eq_true.1 hcovers c hc

end Rule

namespace RuleSet

def counted (s : RuleSet) (w : Record) : List Rule := (scan s.mode w s.rules).1

variable {s : RuleSet} {w w' : Record} {rule : Rule}

theorem mem_of_counted (h : rule ∈ s.counted w) : rule ∈ s.rules ∧ rule.covers w = true := by
  rw [counted] at h
  cases hm : s.mode with
  | firstMatch =>
    rw [hm, scan_firstMatch, Option.mem_toList] at h
    exact ⟨List.mem_of_find?_eq_some h, List.find?_some (p := fun q : Rule => q.covers w) h⟩
  | accumulate =>
    rw [hm, scan_accumulate] at h
    exact List.mem_filter.1 h

/-- If all counted rules still cover what is left of a record, they are counted again. -/
theorem counted_of_within (h : w'.Within w) (hall : ∀ rule ∈ s.counted w, rule.covers w' = true) :
    s.counted w' = s.counted w := by
  rw [counted] at hall
  rw [counted, counted]
  cases hm : s.mode with
  | firstMatch =>
    rw [hm, scan_firstMatch] at hall
    rw [scan_firstMatch, scan_firstMatch]
    cases hfind : s.rules.find? (·.covers w) with
    | none =>
      have hnone : s.rules.find? (·.covers w') = none := List.find?_eq_none.2 fun rule hr hc =>
        List.find?_eq_none.1 hfind rule hr (Rule.covers_of_within h hc)
      rw [hnone]
    | some rule =>
      obtain ⟨-, before, after, horder, hpassed⟩ := List.find?_eq_some_iff_append.1 hfind
      have hcovers : rule.covers w' = true :=
        hall rule (by rw [hfind]; exact List.mem_singleton_self _)
      have hsome : s.rules.find? (·.covers w') = some rule := by
        refine List.find?_eq_some_iff_append.2 ⟨hcovers, before, after, horder, fun q hq => ?_⟩
        have hpast := hpassed q hq
        cases hc : q.covers w' with
        | false => rfl
        | true => simp [Rule.covers_of_within h hc] at hpast
      rw [hsome]
  | accumulate =>
    rw [hm, scan_accumulate] at hall
    rw [scan_accumulate, scan_accumulate]
    refine List.filter_congr fun rule hr => Bool.eq_iff_iff.2 ⟨Rule.covers_of_within h, fun hc => ?_⟩
    exact hall rule (List.mem_filter.2 ⟨hr, hc⟩)

/-- The same identifiers come out exactly if the counted rules still cover what is left. -/
theorem answer_within_iff (hids : (s.rules.map (·.id)).Nodup) (h : w'.Within w) :
    s.answer w' = s.answer w ↔ ∀ rule ∈ s.counted w, rule.covers w' = true := by
  constructor
  · intro hanswer rule hrule
    have hids' : (s.counted w').map (·.id) = (s.counted w).map (·.id) := congrArg Prod.fst hanswer
    have hid : rule.id ∈ (s.counted w').map (·.id) := hids' ▸ List.mem_map_of_mem hrule
    obtain ⟨rule', hrule', hsame⟩ := List.mem_map.1 hid
    obtain ⟨hmem', hcovers'⟩ := mem_of_counted hrule'
    obtain rfl : rule' = rule :=
      List.inj_on_of_nodup_map hids hmem' (mem_of_counted hrule).1 hsame
    exact hcovers'
  · intro hall
    have hcounted := counted_of_within h hall
    rw [counted, counted] at hcounted
    rw [answer, answer, hcounted]

/-- Evaluating the record of a decision comes to the same decision. -/
def Replays (s : RuleSet) (d : Decision) : Prop :=
  ∀ traced stamp, (s.evaluate traced stamp d.record).decision.matchedRuleIds = d.matchedRuleIds ∧
    (s.evaluate traced stamp d.record).decision.outcome = d.outcome

/-- What the rules that count for a record look at is still there once the record was written. -/
def Retained (s : RuleSet) (r : Record) : Prop :=
  ∀ rule ∈ s.counted (Derivation.applyAll s.derived r), ∀ c ∈ rule.conditions,
    (Derivation.applyAll s.derived r.written).get? c.field ≠ none

theorem replays_iff_retained (hids : (s.rules.map (·.id)).Nodup) (traced : Bool) (stamp : Stamp)
    (r : Record) : s.Replays (s.evaluate traced stamp r).decision.written ↔ s.Retained r := by
  have hwithin := Derivation.within_applyAll r.within_written s.derived
  have hreplays : s.Replays (s.evaluate traced stamp r).decision.written ↔
      s.answer (Derivation.applyAll s.derived r.written) =
        s.answer (Derivation.applyAll s.derived r) := by
    simp only [Replays, evaluate_decision, Decision.written, Prod.ext_iff]
    exact ⟨fun h => h false stamp, fun h _ _ => h⟩
  rw [hreplays, answer_within_iff hids hwithin]
  refine forall₂_congr fun rule hrule => ?_
  exact Rule.covers_within_iff hwithin (mem_of_counted hrule).2

theorem replays_of_finite {r : Record}
    (h : ∀ f, s.Live f → ∀ x, r.get? f = some (.number x) → x.isFinite = true) (traced : Bool)
    (stamp : Stamp) : s.Replays (s.evaluate traced stamp r).decision.written := by
  have hagree : Record.AgreeOn s.liveFields r.written r := by
    intro f hf
    rw [Record.get?_written]
    cases hv : r.get? f with
    | none => rfl
    | some v =>
      refine Option.filter_some_pos ?_
      cases v with
      | number x => exact h f (mem_liveFields.1 hf) x hv
      | text | boolean | absent => rfl
  intro traced' stamp'
  have haccount := account_congr hagree traced' stamp' stamp
  exact ⟨congrArg Prod.fst haccount, congrArg (fun account => account.2.1) haccount⟩

end RuleSet

namespace DecisionLog

structure Attempt where
  fault : Option WriteFault
  decision : Decision

def appendAll (log : DecisionLog) (disk : Disk) : List Attempt → List Decision × DecisionLog × Disk
  | [] => ([], log, disk)
  | a :: as =>
    let (result, log, disk) := log.append disk a.fault a.decision
    let (later, log, disk) := appendAll log disk as
    ((if result.isOk then [a.decision] else []) ++ later, log, disk)

structure Attempt.Careful (a : Attempt) : Prop where
  taken : ∀ f ∈ a.fault, f.takenBack = true
  time : a.decision.evaluatedAt.Valid

theorem Records.appendAll {log : DecisionLog} {disk : Disk} {p : Path} {ds : List Decision}
    (h : Records log disk p ds) {attempts : List Attempt} (hcare : ∀ a ∈ attempts, a.Careful) :
    Records (log.appendAll disk attempts).2.1 (log.appendAll disk attempts).2.2 p
      (ds ++ (log.appendAll disk attempts).1.map Decision.written) := by
  induction attempts generalizing disk ds with
  | nil => simpa [DecisionLog.appendAll] using h
  | cons a as ih =>
    obtain ⟨⟨htaken, htime⟩, hlater⟩ := List.forall_mem_cons.1 hcare
    obtain ⟨fault, d⟩ := a
    cases fault with
    | none =>
      obtain ⟨disk', happend, hafter⟩ := h.append_written htime
      have hrest := ih hafter hlater
      rw [List.append_assoc] at hrest
      simp only [DecisionLog.appendAll, happend]
      exact hrest
    | some f =>
      have happend := h.append_failed (htaken f rfl) d
      simp only [DecisionLog.appendAll, happend]
      exact ih h hlater

/-- Whatever is tried on a log file, a query hands out what it held before and all decisions whose
append succeeded, as they were written. The evaluation of such a decision's record comes to the
decision again exactly if what its matched rules look at was not lost in writing; it was not if the
numbers that can make a difference are finite. -/
theorem replays_iff {disk disk₁ : Disk} {p : Path} {text : String} {log : DecisionLog}
    (hstart : Begins disk p (Bytes.ofText text)) (hopen : openFile disk p = (.ok log, disk₁))
    {attempts : List Attempt} (hcare : ∀ a ∈ attempts, a.Careful) :
    (∀ id, (log.appendAll disk₁ attempts).2.1.query (log.appendAll disk₁ attempts).2.2 none id =
      .ok ((decisionsOfText text ++
        (log.appendAll disk₁ attempts).1.map Decision.written).filter (ofRuleSet id))) ∧
    ∀ {now : Instant} {definition : Definition} {s : RuleSet}, definition.compile now = .ok s →
      ∀ (traced : Bool) (stamp : Stamp) (r : Record),
        (s.Replays (s.evaluate traced stamp r).decision.written ↔ s.Retained r) ∧
        ((∀ f, s.Live f → ∀ x, r.get? f = some (.number x) → x.isFinite = true) →
          s.Replays (s.evaluate traced stamp r).decision.written) := by
  obtain ⟨place, number, hlog, hstands⟩ := stands_of_openFile hstart hopen
  obtain ⟨htext, hds⟩ := decisions_of_repaired text
  have hrecords : Records log disk₁ p (decisionsOfText text) :=
    ⟨place, number, _, hlog, hstands, htext, hds⟩
  refine ⟨fun id => (hrecords.appendAll hcare).query id, fun hcompile traced stamp r => ⟨?_, ?_⟩⟩
  · exact RuleSet.replays_iff_retained (Definition.ruleIds_nodup hcompile) traced stamp r
  · exact fun hfinite => RuleSet.replays_of_finite hfinite traced stamp

def anyAmount : Definition where
  id := "any_amount"
  name := "Any amount"
  description := none
  rules := [⟨"any", "any", .list [.structured "amount" ">=" (.number (.integer 0))], .action "ok"⟩]
  mode := .firstMatch
  fallback := none
  derived := []
  definedAt := none

def anyAmountRule : Rule :=
  ⟨"any", "any", [⟨"amount", .ge, .number (Binary64.ofInt 0)⟩], .action "ok"⟩

def anyAmountCompiled : RuleSet where
  id := "any_amount"
  name := "Any amount"
  description := none
  rules := [anyAmountRule]
  mode := .firstMatch
  fallback := none
  derived := []
  definedAt := Instant.epoch

def boundlessAmount : Record :=
  .ofList [("amount", .number (Binary64.ofMagnitude false Binary64.infinityBits))]

def boundlessDecision : Decision :=
  (anyAmountCompiled.evaluate false ⟨"d-1", .epoch⟩ boundlessAmount).decision

def blankLogDisk : Disk := Disk.empty.put ["log"] (some (.file 0 []))

def blankLog : DecisionLog := .file ["log"] ⟨["log"], .file 0 []⟩

theorem replays_iff_boundless :
    (blankLog.appendAll (openFile blankLogDisk ["log"]).2 [⟨none, boundlessDecision⟩]).2.1.query
        (blankLog.appendAll (openFile blankLogDisk ["log"]).2
          [⟨none, boundlessDecision⟩]).2.2 none none = .ok [boundlessDecision.written] ∧
      boundlessDecision.written.matchedRuleIds = ["any"] ∧
      ¬ anyAmountCompiled.Replays boundlessDecision.written := by
  have hstart : Begins blankLogDisk ["log"] (Bytes.ofText "") := .inl rfl
  have hopen : openFile blankLogDisk ["log"] =
      (.ok blankLog, (openFile blankLogDisk ["log"]).2) := rfl
  have hcare : ∀ a ∈ [Attempt.mk none boundlessDecision], a.Careful := by
    rintro a ha
    obtain rfl := List.mem_singleton.1 ha
    exact ⟨by simp, ⟨by decide, by decide, by decide, by decide⟩⟩
  have hcompile : anyAmount.compile .epoch = .ok anyAmountCompiled := rfl
  obtain ⟨hquery, hreplays⟩ := replays_iff hstart hopen hcare
  have hkept : (blankLog.appendAll (openFile blankLogDisk ["log"]).2
      [⟨none, boundlessDecision⟩]).1 = [boundlessDecision] := rfl
  have hnothing : decisionsOfText "" = [] := by decide +kernel
  refine ⟨?_, rfl, fun hagain => ?_⟩
  · rw [hquery, hkept, hnothing]
    rfl
  · have hretained := ((hreplays hcompile false ⟨"d-1", .epoch⟩ boundlessAmount).1).1 hagain
    exact hretained anyAmountRule (List.mem_singleton_self _) _ (List.mem_singleton_self _) rfl

end DecisionLog

end Rulebook
