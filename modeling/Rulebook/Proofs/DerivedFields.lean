import Rulebook.Proofs.LiveFields
import Rulebook.Proofs.Recompilation
import Rulebook.Proofs.Validation
/-!
What a condition sees. Behind the derivations a field holds what the last derivation with this
target wrote, and what was supplied if there is none. Main statement: a condition looks at the
trimmed text of its attribute, a derivation writes to its target as it stands. So a condition sees a
derived field of the same name if this name has no blanks at its ends; else the field that it sees
is another one, and may be the caller's.
-/

set_option autoImplicit false

namespace Rulebook

namespace Record

theorem present_get? (r : Record) (f : String) : present (r.get? f) = r.get? f := by
  rw [present, get?, Option.filter_filter]
  simp

end Record

namespace Derivation

variable {ds : List Derivation} {r : Record} {f : String} {v : Option Value}

/-- What the last of some derivations with this target comes to, on what stands before it. -/
inductive Wrote (ds : List Derivation) (r : Record) (f : String) : Option Value → Prop where
  | last {before after : List Derivation} {d : Derivation} (order : ds = before ++ d :: after)
      (target : d.target = f) (unwritten : ∀ e ∈ after, e.target ≠ f) :
      Wrote ds r f (d.result? (applyAll before r))

/-- What a field holds behind some derivations. -/
inductive Holds (ds : List Derivation) (r : Record) (f : String) : Option Value → Prop where
  | written {v : Option Value} (wrote : Wrote ds r f v) : Holds ds r f v
  | supplied (unwritten : ∀ d ∈ ds, d.target ≠ f) : Holds ds r f (r.get? f)

theorem applyAll_append (ds es : List Derivation) (r : Record) :
    applyAll (ds ++ es) r = applyAll es (applyAll ds r) := List.foldl_append

theorem get?_applyAll_of_unwritten (h : ∀ d ∈ ds, d.target ≠ f) :
    (applyAll ds r).get? f = r.get? f := by
  induction ds generalizing r with
  | nil => rfl
  | cons d ds ih =>
    obtain ⟨hd, hds⟩ := List.forall_mem_cons.1 h
    exact (ih hds).trans ((d.get?_apply r f).trans (if_neg (Ne.symm hd)))

theorem present_result? {d : Derivation} (h : d.fault? = none) (r : Record) :
    Record.present (d.result? r) = d.result? r := by
  cases d with
  | copy source target => exact r.present_get? source
  | constant target value =>
    have hvalue : value.isAbsent = false := by
      cases hv : value.isAbsent with
      | false => rfl
      | true =>
        simp only [fault?, hv] at h
        split at h <;> cases h
    simp [result?, Record.present, hvalue]
  | arithmetic target left op right =>
    have hnumber : ∀ x : Option Float, Record.present (x.map .number) = x.map .number := by
      intro x
      cases x <;> rfl
    simp only [result?, Option.bind_eq_bind]
    cases left.resolve? r with
    | none => rfl
    | some a =>
      cases right.resolve? r with
      | none => rfl
      | some b => exact hnumber (op.compute? a b)

theorem get?_applyAll_of_wrote (hvalid : ∀ d ∈ ds, d.fault? = none) (h : Wrote ds r f v) :
    (applyAll ds r).get? f = v := by
  obtain @⟨before, after, d, rfl, rfl, hlast⟩ := h
  have hd : d.fault? = none := hvalid d (by simp)
  calc (applyAll (before ++ d :: after) r).get? d.target
      = (applyAll after (d.apply (applyAll before r))).get? d.target := by
        rw [applyAll_append]
        rfl
    _ = (d.apply (applyAll before r)).get? d.target := get?_applyAll_of_unwritten hlast
    _ = d.result? (applyAll before r) := by
        rw [get?_apply, if_pos rfl, present_result? hd]

theorem exists_wrote (h : ∃ d ∈ ds, d.target = f) (r : Record) : ∃ v, Wrote ds r f v := by
  induction ds generalizing r with
  | nil => simp at h
  | cons d ds ih =>
    by_cases hlater : ∃ e ∈ ds, e.target = f
    · obtain ⟨v, @⟨before, after, e, rfl, htarget, hlast⟩⟩ := ih hlater (d.apply r)
      have horder : d :: (before ++ e :: after) = (d :: before) ++ e :: after := rfl
      exact ⟨_, .last horder htarget hlast⟩
    · obtain ⟨e, he, htarget⟩ := h
      rcases List.mem_cons.1 he with rfl | he
      · exact ⟨_, .last (List.nil_append _).symm htarget fun e' he' h' => hlater ⟨e', he', h'⟩⟩
      · exact absurd ⟨e, he, htarget⟩ hlater

theorem holds_iff (hvalid : ∀ d ∈ ds, d.fault? = none) :
    Holds ds r f v ↔ (applyAll ds r).get? f = v := by
  constructor
  · rintro (hwrote | hunwritten)
    · exact get?_applyAll_of_wrote hvalid hwrote
    · exact get?_applyAll_of_unwritten hunwritten
  · rintro rfl
    by_cases h : ∃ d ∈ ds, d.target = f
    · obtain ⟨v, hv⟩ := exists_wrote h r
      rw [get?_applyAll_of_wrote hvalid hv]
      exact .written hv
    · have hunwritten : ∀ d ∈ ds, d.target ≠ f := fun d hd ht => h ⟨d, hd, ht⟩
      rw [get?_applyAll_of_unwritten hunwritten]
      exact .supplied hunwritten

theorem Holds.wrote (h : Holds ds r f v) (hwritten : ∃ d ∈ ds, d.target = f) : Wrote ds r f v := by
  obtain ⟨d, hd, htarget⟩ := hwritten
  cases h with
  | written wrote => exact wrote
  | supplied unwritten => exact absurd htarget (unwritten d hd)

end Derivation

namespace Clause

theorem field_of_lower {field operator : String} {literal : Json} {c : Condition}
    (h : (structured field operator literal).lower = .ok c) : c.field = Text.trim field := by
  obtain ⟨v, -, hbuild⟩ := bind_eq_ok.1 h
  unfold Condition.build at hbuild
  split at hbuild
  · cases hbuild
  · dsimp only at hbuild
    split at hbuild
    · cases hbuild
    · split at hbuild
      · cases hbuild
      · cases hbuild
        rfl

end Clause

theorem Rule.check_of_mem_scanFrom {rule id : String} {r : Record} {index k : Nat}
    {cs : List Condition} {c : Condition} {verdict : Verdict}
    (h : TraceLine.checked id k c verdict ∈ (scanFrom rule r index cs).2) :
    id = rule ∧ verdict = c.check r ∧ ∃ n, k = index + n ∧ cs[n]? = some c := by
  induction cs generalizing index with
  | nil => cases h
  | cons c' cs ih =>
    cases hverdict : (c'.check r).isSatisfied with
    | true =>
      simp only [scanFrom, hverdict, if_true] at h
      rcases List.mem_cons.1 h with h | h
      · cases h
        exact ⟨rfl, rfl, 0, rfl, rfl⟩
      · obtain ⟨hid, hcheck, n, rfl, hn⟩ := ih h
        exact ⟨hid, hcheck, n + 1, by omega, hn⟩
    | false =>
      simp only [scanFrom, hverdict, Bool.false_eq_true, if_false] at h
      rcases List.mem_cons.1 h with h | h
      · cases h
        exact ⟨rfl, rfl, 0, rfl, rfl⟩
      · split at h
        · cases h
        · cases List.mem_singleton.1 h

namespace RuleSet

theorem check_of_mem_scan {mode : Mode} {r : Record} {rules : List Rule} {id : String} {k : Nat}
    {c : Condition} {verdict : Verdict}
    (h : TraceLine.checked id k c verdict ∈ (scan mode r rules).2) :
    verdict = c.check r ∧ ∃ rule ∈ rules, rule.id = id ∧ rule.conditions[k]? = some c := by
  induction rules with
  | nil => cases h
  | cons rule rules ih =>
    have hcases : .checked id k c verdict ∈ (rule.scan r).2 ∨
        .checked id k c verdict ∈ (scan mode r rules).2 := by
      cases hcovered : (rule.scan r).1 with
      | true =>
        cases mode with
        | firstMatch => exact .inl (by simpa [scan, hcovered] using h)
        | accumulate => simpa [scan, hcovered] using h
      | false => simpa [scan, hcovered] using h
    rcases hcases with h | h
    · obtain ⟨rfl, hcheck, n, rfl, hn⟩ := Rule.check_of_mem_scanFrom h
      exact ⟨hcheck, rule, List.mem_cons_self, rfl, by rwa [Nat.zero_add]⟩
    · obtain ⟨hcheck, rule', hmem, hrule'⟩ := ih h
      exact ⟨hcheck, rule', List.mem_cons_of_mem rule hmem, hrule'⟩

theorem check_of_mem_trace {s : RuleSet} {traced : Bool} {stamp : Stamp} {r : Record} {id : String}
    {k : Nat} {c : Condition} {verdict : Verdict}
    (h : TraceLine.checked id k c verdict ∈ (s.evaluate traced stamp r).trace) :
    verdict = c.check (Derivation.applyAll s.derived r) ∧
      ∃ rule ∈ s.rules, rule.id = id ∧ rule.conditions[k]? = some c := by
  cases traced with
  | false => cases h
  | true =>
    simp only [evaluate, if_true, List.mem_append] at h
    rcases h with h | h
    · exact check_of_mem_scan h
    · split at h
      · cases List.mem_singleton.1 h
      · cases h

end RuleSet

namespace Definition

variable {now : Instant} {d : Definition} {s : RuleSet}

theorem compiled_of_id (h : d.compile now = .ok s) {definition : RuleDefinition}
    (hdefinition : definition ∈ d.rules) {rule : Rule} (hrule : rule ∈ s.rules)
    (hid : rule.id = definition.id) : definition.Compiled rule := by
  obtain ⟨hvalid, hcompiled⟩ := compile_eq_ok_iff_valid.1 h
  obtain ⟨origin, horigin, hcompiledTo⟩ := exists_compiled_of_mem hcompiled.rules rule hrule
  have hsame : origin = definition :=
    List.inj_on_of_nodup_map hvalid.distinct horigin hdefinition (hcompiledTo.id ▸ hid)
  exact hsame ▸ hcompiledTo

theorem lower_of_compiled {definition : RuleDefinition} {rule : Rule}
    (h : definition.Compiled rule) {clauses : List Clause}
    (hclauses : definition.conditions = .list clauses) {k : Nat} {clause : Clause} {c : Condition}
    (hclause : clauses[k]? = some clause) (hc : rule.conditions[k]? = some c) :
    clause.lower = .ok c := by
  have hlowered : clauses.map Clause.lower = rule.conditions.map .ok := by
    rw [← h.lowered, hclauses]
    rfl
  have hk := congrArg (·[k]?) hlowered
  simpa [hclause, hc] using hk

/-- What a condition compares whose attribute is written like the target of a derivation: if the
text has no blanks at its ends, what the last derivation with this target wrote, whatever was
supplied; else what stands under the trimmed text, and that is what was supplied unless a derivation
writes there. -/
theorem compared_of_checked (h : d.compile now = .ok s) {definition : RuleDefinition}
    (hdefinition : definition ∈ d.rules) {clauses : List Clause}
    (hclauses : definition.conditions = .list clauses) {k : Nat} {field operator : String}
    {literal : Json} (hclause : clauses[k]? = some (.structured field operator literal))
    (hderived : ∃ x ∈ d.derived, x.target = field) (stamp : Stamp) (r : Record) {c : Condition}
    {verdict : Verdict}
    (hchecked : .checked definition.id k c verdict ∈ (s.evaluate true stamp r).trace) :
    (Clause.structured field operator literal).lower = .ok c ∧
      ∃ seen, verdict = Comparison.evaluate seen c.operator c.literal ∧
        (Text.trim field = field → Derivation.Wrote d.derived r field seen) ∧
        (Text.trim field ≠ field → Derivation.Holds d.derived r (Text.trim field) seen) := by
  obtain ⟨rfl, rule, hrule, hid, hc⟩ := RuleSet.check_of_mem_trace hchecked
  have hlower := lower_of_compiled (compiled_of_id h hdefinition hrule hid) hclauses hclause hc
  have hholds : Derivation.Holds d.derived r (Text.trim field)
      ((Derivation.applyAll s.derived r).get? c.field) := by
    rw [derived_of_compile h, Clause.field_of_lower hlower]
    exact (Derivation.holds_iff (compile_eq_ok_iff_valid.1 h).1.derived).2 rfl
  refine ⟨hlower, _, rfl, fun htrimmed => ?_, fun _ => hholds⟩
  rw [htrimmed] at hholds
  exact hholds.wrote hderived

def paddedTotal : Derivation :=
  .arithmetic " total " (.field "price") .multiply (.field "quantity")

def paddedBulk : RuleDefinition :=
  ⟨"bulk", "", .list [.structured " total " ">=" (.number (.integer 1000))], .action "Bulk"⟩

def paddedRouting : Definition where
  id := "order_routing"
  name := "Order Routing"
  description := none
  rules := [paddedBulk]
  mode := .firstMatch
  fallback := none
  derived := [paddedTotal]
  definedAt := none

def paddedCompiled : RuleSet := { RuleSet.orderRouting with derived := [paddedTotal] }

theorem compared_of_checked_padded :
    paddedRouting.compile Instant.epoch = .ok paddedCompiled ∧
      Derivation.Wrote paddedRouting.derived RuleSet.claimedTotal " total " none ∧
      (paddedCompiled.evaluate true ⟨"", Instant.epoch⟩ RuleSet.claimedTotal).decision.outcome =
        .action "Bulk" ∧
      ∃ seen, Derivation.Holds paddedRouting.derived RuleSet.claimedTotal "total" seen ∧
        Comparison.evaluate seen .ge (.number (Binary64.ofInt 1000)) = .satisfied := by
  have hcompile : paddedRouting.compile Instant.epoch = .ok paddedCompiled := rfl
  have hcheck : RuleSet.largeTotal.check
      (Derivation.applyAll [paddedTotal] RuleSet.claimedTotal) = .satisfied := by
    decide +kernel
  have hchecked : .checked "bulk" 0 RuleSet.largeTotal .satisfied ∈
      (paddedCompiled.evaluate true ⟨"", Instant.epoch⟩ RuleSet.claimedTotal).trace := by
    simp [paddedCompiled, RuleSet.orderRouting, RuleSet.evaluate, RuleSet.scan, Rule.scan,
      Rule.scanFrom, hcheck, Verdict.isSatisfied]
  have htrim : Text.trim " total " = "total" := by decide
  obtain ⟨-, seen, hverdict, -, hholds⟩ := compared_of_checked hcompile
    (List.mem_singleton_self paddedBulk) rfl (k := 0) rfl
    ⟨paddedTotal, List.mem_singleton_self paddedTotal, rfl⟩ ⟨"", Instant.epoch⟩
    RuleSet.claimedTotal hchecked
  have hwrote : Derivation.Wrote paddedRouting.derived RuleSet.claimedTotal " total " none :=
    @Derivation.Wrote.last _ _ _ [] [] paddedTotal rfl rfl (by simp)
  refine ⟨hcompile, hwrote, by decide +kernel, seen, ?_, hverdict.symm⟩
  exact htrim ▸ hholds (by decide)

end Definition

end Rulebook
