import Rulebook.RuleSet.Compile
import Rulebook.Proofs.LiveFields
/-!
What has to be fetched of a record. The required fields of a rule set are those that its conditions
look at; which of the supplied values count depends on the derivations as well. Needed is a field
that a condition looks at, and in place of the target of a derivation all that the derivation reads.
Main statement: a record of which only needed fields are kept is decided as it is in full. The
required fields hold all needed ones if conditions look at whatever derivations read.
-/

set_option autoImplicit false

namespace Rulebook

namespace Record

def restrict (fields : List String) (r : Record) : Record :=
  ⟨⟨r.table.entries.filter fun e => fields.contains e.1, r.table.increasing.filter⟩⟩

theorem get?_restrict (fields : List String) (r : Record) (f : String) :
    (r.restrict fields).get? f = if f ∈ fields then r.get? f else none := by
  rw [get?, stored?, restrict, Table.get?, Entries.lookup_filter fields.contains]
  by_cases hf : f ∈ fields
  · rw [if_pos (List.contains_iff_mem.2 hf), if_pos hf]
    rfl
  · rw [if_neg (mt List.contains_iff_mem.1 hf), if_neg hf]
    rfl

end Record

open Record (AgreeOn)

namespace Derivation

/-- The fields that decide, before some derivations, what these fields hold behind them. What is
derived without being needed is passed over. -/
def neededBefore (ds : List Derivation) (fields : List String) : List String :=
  ds.foldr (fun d needed =>
    if d.target ∈ needed then d.reads ++ needed.filter (· != d.target) else needed) fields

theorem mem_neededBefore_cons {d : Derivation} {ds : List Derivation} {fields : List String}
    {f : String} : f ∈ neededBefore (d :: ds) fields ↔
      (d.target ∈ neededBefore ds fields ∧ f ∈ d.reads) ∨
      (f ∈ neededBefore ds fields ∧ f ≠ d.target) := by
  have hcons : neededBefore (d :: ds) fields =
      if d.target ∈ neededBefore ds fields then
        d.reads ++ (neededBefore ds fields).filter (· != d.target)
      else neededBefore ds fields := rfl
  rw [hcons]
  split
  · rename_i h
    simp [h]
  · rename_i h
    have hne : f ∈ neededBefore ds fields → f ≠ d.target := fun hf he => h (he ▸ hf)
    simpa [h] using hne

/-- A derivation whose target is needed finds all that it reads; the target of another is not looked
at any more. -/
theorem applyAll_agree_of_needed {ds : List Derivation} {fields : List String} {r r' : Record}
    (h : AgreeOn (neededBefore ds fields) r r') :
    AgreeOn fields (applyAll ds r) (applyAll ds r') := by
  induction ds generalizing r r' with
  | nil => exact h
  | cons d ds ih =>
    refine ih fun f hf => ?_
    rw [get?_apply, get?_apply]
    by_cases htarget : f = d.target
    · have hreads : AgreeOn d.reads r r' := fun g hg =>
        h g (mem_neededBefore_cons.2 (.inl ⟨htarget ▸ hf, hg⟩))
      rw [if_pos htarget, if_pos htarget, result?_congr hreads]
    · rw [if_neg htarget, if_neg htarget]
      exact h f (mem_neededBefore_cons.2 (.inr ⟨hf, htarget⟩))

theorem mem_of_mem_neededBefore {ds : List Derivation} {fields : List String} {f : String}
    (h : f ∈ neededBefore ds fields) : f ∈ fields ∨ ∃ d ∈ ds, f ∈ d.reads := by
  induction ds with
  | nil => exact .inl h
  | cons d ds ih =>
    rcases mem_neededBefore_cons.1 h with ⟨-, hread⟩ | ⟨h, -⟩
    · exact .inr ⟨d, List.mem_cons_self, hread⟩
    · exact (ih h).imp id fun ⟨e, he, hread⟩ => ⟨e, List.mem_cons_of_mem d he, hread⟩

end Derivation

namespace RuleSet

def neededFields (s : RuleSet) : List String := Derivation.neededBefore s.derived s.requiredFields

theorem account_congr_needed {s : RuleSet} {r r' : Record} (h : AgreeOn s.neededFields r r')
    (traced : Bool) (stamp stamp' : Stamp) :
    (s.evaluate traced stamp r).account = (s.evaluate traced stamp' r').account :=
  account_congr_derived (Derivation.applyAll_agree_of_needed h) traced stamp stamp'

theorem mem_requiredFields_of_needed {s : RuleSet}
    (h : ∀ d ∈ s.derived, ∀ f ∈ d.reads, f ∈ s.requiredFields) {f : String}
    (hf : f ∈ s.neededFields) : f ∈ s.requiredFields := by
  rcases Derivation.mem_of_mem_neededBefore hf with hf | ⟨d, hd, hread⟩
  · exact hf
  · exact h d hd f hread

/-- A record may be restricted to any fields that hold all needed ones, as far as it has a value for
them; the required fields will do if conditions look at all that derivations read. -/
theorem account_restrict (s : RuleSet) (traced : Bool) (stamp stamp' : Stamp) (r : Record) :
    (∀ fields : List String, (∀ f ∈ s.neededFields, f ∈ fields ∨ r.get? f = none) →
      (s.evaluate traced stamp (r.restrict fields)).account =
        (s.evaluate traced stamp' r).account) ∧
    ((∀ d ∈ s.derived, ∀ f ∈ d.reads, f ∈ s.requiredFields) →
      (s.evaluate traced stamp (r.restrict s.requiredFields)).account =
        (s.evaluate traced stamp' r).account) := by
  have hrestrict : ∀ fields : List String,
      (∀ f ∈ s.neededFields, f ∈ fields ∨ r.get? f = none) →
      (s.evaluate traced stamp (r.restrict fields)).account =
        (s.evaluate traced stamp' r).account := by
    refine fun fields h => account_congr_needed (fun f hf => ?_) traced stamp stamp'
    rw [Record.get?_restrict]
    rcases h f hf with hmem | hnone
    · rw [if_pos hmem]
    · rw [hnone, ite_self]
  exact ⟨hrestrict, fun h => hrestrict _ fun f hf => .inl (mem_requiredFields_of_needed h hf)⟩

def orderRoutingDefinition : Definition where
  id := "order_routing"
  name := "Order Routing"
  description := none
  rules := [⟨"bulk", "", .list [.structured "total" ">=" (.number (.integer 1000))],
    .action "Bulk"⟩]
  mode := .firstMatch
  fallback := none
  derived := [total]
  definedAt := none

def pricedOrder : Record :=
  .ofList [("note", .text "urgent"), ("price", .number (Binary64.ofInt 250)),
    ("quantity", .number (Binary64.ofInt 4))]

theorem account_restrict_priced :
    orderRouting.neededFields = ["price", "quantity"] ∧
      (orderRouting.evaluate false ⟨"", Instant.epoch⟩
          (pricedOrder.restrict ["price", "quantity"])).account =
        (orderRouting.evaluate false ⟨"", Instant.epoch⟩ pricedOrder).account ∧
      ({ orderRouting with derived := [] }.evaluate false ⟨"", Instant.epoch⟩
          (claimedTotal.restrict ["total"])).account =
        ({ orderRouting with derived := [] }.evaluate false ⟨"", Instant.epoch⟩
          claimedTotal).account := by
  have hneeded : orderRouting.neededFields = ["price", "quantity"] := by decide +kernel
  have hderived := account_restrict orderRouting false ⟨"", Instant.epoch⟩ ⟨"", Instant.epoch⟩
    pricedOrder
  have hplain := account_restrict { orderRouting with derived := [] } false ⟨"", Instant.epoch⟩
    ⟨"", Instant.epoch⟩ claimedTotal
  exact ⟨hneeded, hderived.1 ["price", "quantity"] fun f hf => .inl (hneeded ▸ hf),
    hplain.2 fun d hd => nomatch hd⟩

/-- The total is required, what it is derived from is not. -/
theorem required_not_enough :
    orderRoutingDefinition.compile Instant.epoch = .ok orderRouting ∧
      orderRouting.requiredFields = ["total"] ∧
      (orderRouting.evaluate false ⟨"", Instant.epoch⟩ pricedOrder).decision.matchedRuleIds =
        ["bulk"] ∧
      (orderRouting.evaluate false ⟨"", Instant.epoch⟩ pricedOrder).decision.outcome =
        .action "Bulk" ∧
      (orderRouting.evaluate false ⟨"", Instant.epoch⟩
        (pricedOrder.restrict orderRouting.requiredFields)).decision.matchedRuleIds = [] ∧
      (orderRouting.evaluate false ⟨"", Instant.epoch⟩
        (pricedOrder.restrict orderRouting.requiredFields)).decision.outcome = .noDecision := by
  have hrequired : orderRouting.requiredFields = ["total"] := by decide +kernel
  rw [hrequired]
  exact ⟨rfl, rfl, by decide +kernel, by decide +kernel, by decide +kernel, by decide +kernel⟩

end RuleSet

end Rulebook
