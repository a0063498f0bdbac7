import Rulebook.Evaluation
import Rulebook.Proofs.Splits
import Rulebook.Proofs.Table
/-!
What an evaluation looks at. A field is live if a derivation reads it before any derivation writes
it, or if a condition looks at it and no derivation writes it. Main statement: records that agree on
the live fields are decided alike, so nothing that is supplied under the target of a derivation can
stand in for what is derived.
-/

set_option autoImplicit false

namespace Rulebook

namespace Record

/-- What counts of a value that is looked up: an absent one is as good as none. -/
def present (v : Option Value) : Option Value := v.filter fun v => !v.isAbsent

theorem get?_insert (r : Record) (field f : String) (v : Value) :
    (r.insert field v).get? f = if f = field then present (some v) else r.get? f := by
  rw [get?, stored?, insert, Table.get?_insert]
  split <;> rfl

theorem get?_remove (r : Record) (field f : String) :
    (r.remove field).get? f = if f = field then none else r.get? f := by
  rw [get?, stored?, remove, Table.get?_erase]
  split <;> rfl

def AgreeOn (fields : List String) (r r' : Record) : Prop := ∀ f ∈ fields, r.get? f = r'.get? f

theorem agreeOn_append {fs gs : List String} {r r' : Record} :
    AgreeOn (fs ++ gs) r r' ↔ AgreeOn fs r r' ∧ AgreeOn gs r r' := List.forall_mem_append

end Record

open Record (AgreeOn agreeOn_append)

namespace Operand

def reads : Operand → List String
  | .constant _ => []
  | .field name => [name]

theorem resolve?_congr {o : Operand} {r r' : Record} (h : AgreeOn o.reads r r') :
    o.resolve? r = o.resolve? r' := by
  cases o with
  | constant x => rfl
  | field name => rw [resolve?, resolve?, h name (List.mem_singleton_self name)]

end Operand

namespace Derivation

def reads : Derivation → List String
  | .copy source _ => [source]
  | .constant _ _ => []
  | .arithmetic _ left _ right => left.reads ++ right.reads

theorem result?_congr {d : Derivation} {r r' : Record} (h : AgreeOn d.reads r r') :
    d.result? r = d.result? r' := by
  cases d with
  | copy source target => exact h source (List.mem_singleton_self source)
  | constant target value => rfl
  | arithmetic target left op right =>
    obtain ⟨hleft, hright⟩ := agreeOn_append.1 h
    rw [result?, result?, Operand.resolve?_congr hleft, Operand.resolve?_congr hright]

theorem stored?_apply (d : Derivation) (r : Record) (f : String) :
    (d.apply r).stored? f = if f = d.target then d.result? r else r.stored? f := by
  rw [apply]
  cases d.result? r with
  | some v => exact Table.get?_insert r.table d.target f v
  | none => exact Table.get?_erase r.table d.target f

theorem get?_apply (d : Derivation) (r : Record) (f : String) :
    (d.apply r).get? f = if f = d.target then Record.present (d.result? r) else r.get? f := by
  rw [Record.get?, stored?_apply]
  split <;> rfl

/-- The fields that count before some derivations, if these fields count behind them. -/
def liveBefore (ds : List Derivation) (fields : List String) : List String :=
  ds.foldr (fun d live => d.reads ++ live.filter (· != d.target)) fields

theorem mem_liveBefore {ds : List Derivation} {fields : List String} {f : String} :
    f ∈ liveBefore ds fields ↔
      (∃ before d after, ds = before ++ d :: after ∧ f ∈ d.reads ∧ ∀ e ∈ before, e.target ≠ f) ∨
      (f ∈ fields ∧ ∀ d ∈ ds, d.target ≠ f) := by
  induction ds with
  | nil => simp [liveBefore]
  | cons d ds ih =>
    have hcons : f ∈ liveBefore (d :: ds) fields ↔
        f ∈ d.reads ∨ (f ∈ liveBefore ds fields ∧ f ≠ d.target) := by
      simp [liveBefore]
    rw [hcons, ih, exists_split_cons]
    constructor
    · rintro (hread | ⟨⟨before, e, after, rfl, hread, hbefore⟩ | ⟨hf, hds⟩, hne⟩)
      · exact .inl (.inl ⟨hread, by simp⟩)
      · exact .inl (.inr ⟨before, e, after, rfl, hread,
          List.forall_mem_cons.2 ⟨Ne.symm hne, hbefore⟩⟩)
      · exact .inr ⟨hf, List.forall_mem_cons.2 ⟨Ne.symm hne, hds⟩⟩
    · rintro ((⟨hread, -⟩ | ⟨before, e, after, rfl, hread, hbefore⟩) | ⟨hf, hds⟩)
      · exact .inl hread
      · obtain ⟨hne, hbefore⟩ := List.forall_mem_cons.1 hbefore
        exact .inr ⟨.inl ⟨before, e, after, rfl, hread, hbefore⟩, Ne.symm hne⟩
      · obtain ⟨hne, hds⟩ := List.forall_mem_cons.1 hds
        exact .inr ⟨.inr ⟨hf, hds⟩, Ne.symm hne⟩

/-- Agreement is carried through the derivations one by one: what a derivation writes is the same on
both sides, since all that it reads is live. -/
theorem applyAll_agree {ds : List Derivation} {fields : List String} {r r' : Record}
    (h : AgreeOn (liveBefore ds fields) r r') :
    AgreeOn fields (applyAll ds r) (applyAll ds r') := by
  induction ds generalizing r r' with
  | nil => exact h
  | cons d ds ih =>
    obtain ⟨hreads, hlater⟩ := agreeOn_append.1 h
    refine ih fun f hf => ?_
    rw [get?_apply, get?_apply, result?_congr hreads]
    by_cases hne : f = d.target
    · rw [if_pos hne, if_pos hne]
    · rw [if_neg hne, if_neg hne, hlater f (List.mem_filter.2 ⟨hf, by simpa using hne⟩)]

end Derivation

namespace Rule

theorem scanFrom_congr (rule : String) {r r' : Record} (index : Nat) {cs : List Condition}
    (h : AgreeOn (cs.map (·.field)) r r') :
    scanFrom rule r index cs = scanFrom rule r' index cs := by
  induction cs generalizing index with
  | nil => rfl
  | cons c cs ih =>
    obtain ⟨hc, hcs⟩ := List.forall_mem_cons.1 h
    have hcheck : c.check r = c.check r' := by rw [Condition.check, Condition.check, hc]
    simp only [scanFrom, hcheck, ih (index + 1) hcs]

end Rule

def Evaluation.account (v : Evaluation) : List String × DecisionOutcome × List TraceLine :=
  (v.decision.matchedRuleIds, v.decision.outcome, v.trace)

namespace RuleSet

theorem scan_congr (mode : Mode) {r r' : Record} {rules : List Rule}
    (h : AgreeOn (rules.flatMap fun rule => rule.conditions.map (·.field)) r r') :
    scan mode r rules = scan mode r' rules := by
  induction rules with
  | nil => rfl
  | cons rule rules ih =>
    obtain ⟨hrule, hrules⟩ := agreeOn_append.1 h
    have hscan : rule.scan r = rule.scan r' := Rule.scanFrom_congr rule.id 0 hrule
    simp only [scan, hscan, ih hrules]

/-- The fields whose supplied values can make a difference. -/
inductive Live (s : RuleSet) (field : String) : Prop where
  | read (before : List Derivation) (d : Derivation) (after : List Derivation)
      (order : s.derived = before ++ d :: after) (reads : field ∈ d.reads)
      (unwritten : ∀ e ∈ before, e.target ≠ field)
  | looked (rule : Rule) (c : Condition) (rule_mem : rule ∈ s.rules)
      (condition_mem : c ∈ rule.conditions) (looks : c.field = field)
      (unwritten : ∀ d ∈ s.derived, d.target ≠ field)

def liveFields (s : RuleSet) : List String := Derivation.liveBefore s.derived s.requiredFields

theorem mem_liveFields {s : RuleSet} {f : String} : f ∈ s.liveFields ↔ s.Live f := by
  rw [liveFields, Derivation.mem_liveBefore, requiredFields, Table.mem_distinct]
  constructor
  · rintro (⟨before, d, after, order, reads, unwritten⟩ | ⟨hf, unwritten⟩)
    · exact .read before d after order reads unwritten
    · obtain ⟨rule, hrule, hf⟩ := List.mem_flatMap.1 hf
      obtain ⟨c, hc, looks⟩ := List.mem_map.1 hf
      exact .looked rule c hrule hc looks unwritten
  · rintro (⟨before, d, after, order, reads, unwritten⟩ | ⟨rule, c, hrule, hc, looks, unwritten⟩)
    · exact .inl ⟨before, d, after, order, reads, unwritten⟩
    · exact .inr ⟨List.mem_flatMap.2 ⟨rule, hrule, List.mem_map.2 ⟨c, hc, looks⟩⟩, unwritten⟩

theorem account_congr_derived {s : RuleSet} {r r' : Record}
    (h : AgreeOn s.requiredFields (Derivation.applyAll s.derived r)
      (Derivation.applyAll s.derived r')) (traced : Bool) (stamp stamp' : Stamp) :
    (s.evaluate traced stamp r).account = (s.evaluate traced stamp' r').account := by
  have hscan : scan s.mode (Derivation.applyAll s.derived r) s.rules =
      scan s.mode (Derivation.applyAll s.derived r') s.rules :=
    scan_congr s.mode fun f hf => h f (Table.mem_distinct.2 hf)
  simp only [Evaluation.account, evaluate, hscan]

theorem account_congr {s : RuleSet} {r r' : Record} (h : AgreeOn s.liveFields r r')
    (traced : Bool) (stamp stamp' : Stamp) :
    (s.evaluate traced stamp r).account = (s.evaluate traced stamp' r').account :=
  account_congr_derived (Derivation.applyAll_agree h) traced stamp stamp'

theorem not_live_of_unread {s : RuleSet} {before after : List Derivation} {d : Derivation}
    (order : s.derived = before ++ d :: after) (hd : d.target ∉ d.reads)
    (hbefore : ∀ e ∈ before, d.target ∉ e.reads) : ¬ s.Live d.target := by
  rintro (⟨before', e, after', order', hread, hunwritten⟩ | ⟨_, _, _, _, _, hunwritten⟩)
  -- The reader comes after the writer, is the writer, or stands before it.
  · rcases places_of_splits (order.symm.trans order') with hd' | ⟨-, rfl, -⟩ | he
    · exact hunwritten d hd' rfl
    · exact hd hread
    · exact hbefore e he hread
  · exact hunwritten d (by simp [order]) rfl

/-- Records that agree on the live fields, an absent value being as good as none, match the same
rules with the same outcome and the same trace. So whatever is supplied under the target of a
derivation, and not read before it is written, has no influence, even if the derivation fails. -/
theorem account_of_agree (s : RuleSet) (traced : Bool) (stamp stamp' : Stamp) :
    (∀ r r' : Record, (∀ f, s.Live f → r.get? f = r'.get? f) →
      (s.evaluate traced stamp r).account = (s.evaluate traced stamp' r').account) ∧
    ∀ (before after : List Derivation) (d : Derivation), s.derived = before ++ d :: after →
      d.target ∉ d.reads → (∀ e ∈ before, d.target ∉ e.reads) → ∀ (r : Record) (v : Value),
        (s.evaluate traced stamp (r.insert d.target v)).account =
            (s.evaluate traced stamp' r).account ∧
          (s.evaluate traced stamp (r.remove d.target)).account =
            (s.evaluate traced stamp' r).account := by
  refine ⟨fun r r' h => account_congr (fun f hf => h f (mem_liveFields.1 hf)) traced stamp stamp',
    fun before after d order hd hbefore r v => ?_⟩
  have hdead : ∀ f ∈ s.liveFields, f ≠ d.target := fun f hf he =>
    not_live_of_unread order hd hbefore (he ▸ mem_liveFields.1 hf)
  constructor
  · refine account_congr (fun f hf => ?_) traced stamp stamp'
    rw [Record.get?_insert, if_neg (hdead f hf)]
  · refine account_congr (fun f hf => ?_) traced stamp stamp'
    rw [Record.get?_remove, if_neg (hdead f hf)]

def largeTotal : Condition := ⟨"total", .ge, .number (Binary64.ofInt 1000)⟩

def total : Derivation := .arithmetic "total" (.field "price") .multiply (.field "quantity")

def orderRouting : RuleSet where
  id := "order_routing"
  name := "Order Routing"
  description := none
  rules := [⟨"bulk", "bulk", [largeTotal], .action "Bulk"⟩]
  mode := .firstMatch
  fallback := none
  derived := [total]
  definedAt := Instant.epoch

def unpriced : Record := .ofList [("quantity", .number (Binary64.ofInt 4))]

def claimedTotal : Record :=
  .ofList [("price", .absent), ("quantity", .number (Binary64.ofInt 4)),
    ("total", .number (Binary64.ofInt 5000))]

theorem account_of_agree_total :
    orderRouting.liveFields = ["price", "quantity"] ∧
      (orderRouting.evaluate true ⟨"", Instant.epoch⟩ claimedTotal).account =
        ([], .noDecision, [.checked "bulk" 0 largeTotal (.indeterminate .missingField),
          .fellBack none]) ∧
      (orderRouting.evaluate true ⟨"", Instant.epoch⟩
          (unpriced.insert "total" (.number (Binary64.ofInt 5000)))).account =
        (orderRouting.evaluate true ⟨"", Instant.epoch⟩ unpriced).account := by
  have hlive : orderRouting.liveFields = ["price", "quantity"] := by decide +kernel
  have hagree : ∀ f, orderRouting.Live f → claimedTotal.get? f = unpriced.get? f := by
    intro f hf
    have hmem := mem_liveFields.2 hf
    rw [hlive] at hmem
    have hone : f = "price" ∨ f = "quantity" := by simpa using hmem
    rcases hone with rfl | rfl <;> rfl
  have haccount := account_of_agree orderRouting true ⟨"", Instant.epoch⟩ ⟨"", Instant.epoch⟩
  refine ⟨hlive, (haccount.1 claimedTotal unpriced hagree).trans rfl, ?_⟩
  exact (haccount.2 [] [] total rfl (by decide) (by simp) unpriced _).1

end RuleSet

end Rulebook
