import Rulebook.Proofs.Comparison
import Rulebook.Proofs.Decimal.Bits
import Rulebook.Proofs.DerivedFields
/-!
What derivations leave behind. They change their targets only, and what a target holds is what the
last derivation with this target comes to on the record that stands before it, or nothing. Main
statement: this, and that arithmetic leaves a finite number or nothing, whatever numbers a record
holds.
-/

set_option autoImplicit false

namespace Rulebook

namespace Binary64

open Float.Model (Format UnpackedFloat)
open Float.Model.UnpackedFloat

theorem compare_zero_eq {x : UnpackedFloat} {sign : Sign} :
    x.compare (.zero sign) = some .eq ↔ ∃ s, x = .zero s := by
  cases x with
  | zero s => exact iff_of_true rfl ⟨s, rfl⟩
  | notANumber => exact iff_of_false nofun nofun
  | infinity s | finite s => cases s <;> exact iff_of_false nofun nofun

theorem beq_zero_iff {x : Float} : (x == 0) = true ↔ x = 0 ∨ x = -0 := by
  have hzero : (0 : Float).toModel.unpack = .zero .positive := rfl
  rw [Comparison.beq_iff_compare, hzero, compare_zero_eq]
  constructor
  · rintro ⟨sign, hx⟩
    have hbits : x.toBits = UInt64.ofBitVec (pack Format.binary64 (.zero sign)) := by
      rw [← hx]
      exact congrArg UInt64.ofBitVec (pack_unpack x.toModel.valid).symm
    rw [← ofBits_toBits x, hbits]
    cases sign with
    | positive => exact .inl rfl
    | negative => exact .inr rfl
  · rintro (rfl | rfl)
    · exact ⟨.positive, rfl⟩
    · exact ⟨.negative, rfl⟩

end Binary64

namespace Arithmetic

def apply : Arithmetic → Float → Float → Float
  | .add, a, b => a + b
  | .subtract, a, b => a - b
  | .multiply, a, b => a * b
  | .divide, a, b => a / b

theorem compute?_eq_some {op : Arithmetic} {a b x : Float} :
    op.compute? a b = some x ↔
      (op = .divide → ¬ (b = 0 ∨ b = -0)) ∧ (op.apply a b).isFinite = true ∧ x = op.apply a b := by
  have hfinite (y : Float) : (if y.isFinite = true then some y else none) = some x ↔
      y.isFinite = true ∧ x = y := by
    by_cases hy : y.isFinite = true <;> simp [hy, eq_comm]
  rw [← Binary64.beq_zero_iff]
  cases op with
  | add | subtract | multiply => simp [compute?, apply, hfinite]
  | divide => by_cases hb : (b == 0) = true <;> simp [compute?, apply, hfinite, hb]

end Arithmetic

namespace Operand

inductive Resolves (r : Record) : Operand → Float → Prop where
  | constant (x : Float) : Resolves r (.constant x) x
  | field {name : String} {x : Float} (holds : r.get? name = some (.number x)) :
      Resolves r (.field name) x

theorem resolve?_eq_some {o : Operand} {r : Record} {x : Float} :
    o.resolve? r = some x ↔ Resolves r o x := by
  cases o with
  | constant y =>
    constructor
    · rintro ⟨⟩
      exact .constant x
    · rintro ⟨⟩
      rfl
  | field name =>
    rw [resolve?, Option.bind_eq_some_iff]
    constructor
    · rintro ⟨v, hv, hx⟩
      cases v with
      | number y =>
        cases hx
        exact .field hv
      | text | boolean | absent => cases hx
    · rintro ⟨⟩
      exact ⟨_, ‹_›, rfl⟩

theorem resolve?_eq_none {o : Operand} {r : Record} :
    o.resolve? r = none ↔ ∀ x, ¬ Resolves r o x := by
  simp only [← resolve?_eq_some, Option.eq_none_iff_forall_ne_some, ne_eq]

end Operand

namespace Derivation

open Operand (Resolves)

/-- What a derivation comes to on a record. -/
inductive Comes (r : Record) : Derivation → Option Value → Prop where
  | copied {source target : String} : Comes r (.copy source target) (r.get? source)
  | given {target : String} {value : Value} : Comes r (.constant target value) (some value)
  | computed {target : String} {left right : Operand} {op : Arithmetic} {a b : Float}
      (hleft : Resolves r left a) (hright : Resolves r right b)
      (divisor : op = .divide → ¬ (b = 0 ∨ b = -0)) (finite : (op.apply a b).isFinite = true) :
      Comes r (.arithmetic target left op right) (some (.number (op.apply a b)))
  | noLeft {target : String} {left right : Operand} {op : Arithmetic}
      (h : ∀ a, ¬ Resolves r left a) : Comes r (.arithmetic target left op right) none
  | noRight {target : String} {left right : Operand} {op : Arithmetic}
      (h : ∀ b, ¬ Resolves r right b) : Comes r (.arithmetic target left op right) none
  | zeroDivisor {target : String} {left right : Operand} {b : Float} (hright : Resolves r right b)
      (zero : b = 0 ∨ b = -0) : Comes r (.arithmetic target left .divide right) none
  | notFinite {target : String} {left right : Operand} {op : Arithmetic} {a b : Float}
      (hleft : Resolves r left a) (hright : Resolves r right b)
      (infinite : (op.apply a b).isFinite = false) :
      Comes r (.arithmetic target left op right) none

variable {ds : List Derivation} {d : Derivation} {r : Record} {f : String} {v : Option Value}

theorem result?_arithmetic {target : String} {left right : Operand} {op : Arithmetic} {a b : Float}
    (hleft : Resolves r left a) (hright : Resolves r right b) :
    result? (.arithmetic target left op right) r = (op.compute? a b).map .number := by
  rw [result?, Operand.resolve?_eq_some.2 hleft, Operand.resolve?_eq_some.2 hright]
  rfl

theorem comes_iff : Comes r d v ↔ d.result? r = v := by
  constructor
  · intro h
    cases h with
    | copied => rfl
    | given => rfl
    | computed hleft hright divisor finite =>
      rw [result?_arithmetic hleft hright, Arithmetic.compute?_eq_some.2 ⟨divisor, finite, rfl⟩]
      rfl
    | noLeft h =>
      rw [result?, Operand.resolve?_eq_none.2 h]
      rfl
    | @noRight _ left _ _ h =>
      rw [result?, Operand.resolve?_eq_none.2 h]
      cases left.resolve? r <;> rfl
    | @zeroDivisor _ left _ b hright zero =>
      cases hleft : left.resolve? r with
      | none =>
        rw [result?, hleft]
        rfl
      | some a =>
        rw [result?_arithmetic (Operand.resolve?_eq_some.1 hleft) hright, Arithmetic.compute?,
          if_pos (Binary64.beq_zero_iff.2 zero)]
        rfl
    | @notFinite _ _ _ op a b hleft hright infinite =>
      have hnone : op.compute? a b = none := Option.eq_none_iff_forall_ne_some.2 fun x hx => by
        rw [(Arithmetic.compute?_eq_some.1 hx).2.1] at infinite
        cases infinite
      rw [result?_arithmetic hleft hright, hnone]
      rfl
  · rintro rfl
    cases d with
    | copy source target => exact .copied
    | constant target value => exact .given
    | arithmetic target left op right =>
      cases hleft : left.resolve? r with
      | none =>
        rw [result?, hleft]
        exact .noLeft (Operand.resolve?_eq_none.1 hleft)
      | some a =>
        have hleft := Operand.resolve?_eq_some.1 hleft
        cases hright : right.resolve? r with
        | none =>
          have hnone : result? (.arithmetic target left op right) r = none := by
            rw [result?, Operand.resolve?_eq_some.2 hleft, hright]
            rfl
          rw [hnone]
          exact .noRight (Operand.resolve?_eq_none.1 hright)
        | some b =>
          have hright := Operand.resolve?_eq_some.1 hright
          rw [result?_arithmetic hleft hright]
          cases hx : op.compute? a b with
          | some x =>
            obtain ⟨divisor, finite, rfl⟩ := Arithmetic.compute?_eq_some.1 hx
            exact .computed hleft hright divisor finite
          | none =>
            by_cases hzero : op = .divide ∧ (b = 0 ∨ b = -0)
            · obtain ⟨rfl, hb⟩ := hzero
              exact .zeroDivisor hright hb
            · refine .notFinite hleft hright (Bool.eq_false_iff.2 fun hfinite => ?_)
              rw [Arithmetic.compute?_eq_some.2
                ⟨fun hop hb => hzero ⟨hop, hb⟩, hfinite, rfl⟩] at hx
              cases hx

structure Last (ds before : List Derivation) (d : Derivation) (after : List Derivation) :
    Prop where
  order : ds = before ++ d :: after
  unwritten : ∀ e ∈ after, e.target ≠ d.target

theorem present_ne_absent (v : Option Value) : Record.present v ≠ some .absent := by
  intro h
  cases (Option.filter_eq_some_iff.1 h).2

/-- Targets hold no absent value, and no other field comes to hold one. -/
theorem stored?_applyAll_ne_absent (hvalid : ∀ d ∈ ds, d.fault? = none)
    (h : r.stored? f ≠ some .absent ∨ ∃ d ∈ ds, d.target = f) :
    (applyAll ds r).stored? f ≠ some .absent := by
  induction ds generalizing r with
  | nil => exact h.resolve_right (by simp)
  | cons d ds ih =>
    obtain ⟨hd, hds⟩ := List.forall_mem_cons.1 hvalid
    refine ih hds ?_
    rw [stored?_apply]
    by_cases hf : f = d.target
    · rw [if_pos hf, ← present_result? hd]
      exact .inl (present_ne_absent _)
    · rw [if_neg hf]
      refine h.imp_right fun ⟨e, he, htarget⟩ => ?_
      rcases List.mem_cons.1 he with rfl | he
      · exact absurd htarget.symm hf
      · exact ⟨e, he, htarget⟩

theorem exists_last (hd : d ∈ ds) :
    ∃ before e after, Last ds before e after ∧ e.target = d.target := by
  obtain ⟨v, @⟨before, after, e, order, htarget, unwritten⟩⟩ :=
    exists_wrote ⟨d, hd, rfl⟩ Record.empty
  exact ⟨before, e, after, ⟨order, htarget ▸ unwritten⟩, htarget⟩

theorem get?_applyAll_of_last {before after : List Derivation}
    (hvalid : ∀ d ∈ ds, d.fault? = none) (h : Last ds before d after) (r : Record) :
    (applyAll ds r).get? d.target = d.result? (applyAll before r) :=
  get?_applyAll_of_wrote hvalid (.last h.order rfl h.unwritten)

theorem Comes.finite {target : String} {left right : Operand} {op : Arithmetic}
    (h : Comes r (.arithmetic target left op right) v) :
    v = none ∨ ∃ x : Float, x.isFinite = true ∧ v = some (.number x) := by
  cases h with
  | computed _ _ _ finite => exact .inr ⟨_, finite, rfl⟩
  | noLeft | noRight | zeroDivisor | notFinite => exact .inl rfl

/-- Fields that are no target stay as they are. A target holds what the last derivation with this
target comes to, on the record that the ones before it leave; it holds no absent value, and after
arithmetic a finite number or nothing. -/
theorem applyAll_comes (hvalid : ∀ d ∈ ds, d.fault? = none) (r : Record) :
    (∀ f, (∀ d ∈ ds, d.target ≠ f) → (applyAll ds r).get? f = r.get? f) ∧
    (∀ d ∈ ds, (applyAll ds r).stored? d.target ≠ some .absent ∧
      ∃ before e after, Last ds before e after ∧ e.target = d.target) ∧
    ∀ before d after, Last ds before d after →
      (∀ v, (applyAll ds r).get? d.target = v ↔ Comes (applyAll before r) d v) ∧
      ∀ target left op right, d = .arithmetic target left op right →
        (applyAll ds r).get? d.target = none ∨
          ∃ x : Float, x.isFinite = true ∧ (applyAll ds r).get? d.target = some (.number x) := by
  refine ⟨fun f => get?_applyAll_of_unwritten, fun d hd => ⟨?_, exists_last hd⟩,
    fun before d after h => ⟨fun v => ?_, ?_⟩⟩
  · exact stored?_applyAll_ne_absent hvalid (.inr ⟨d, hd, rfl⟩)
  · rw [get?_applyAll_of_last hvalid h, comes_iff]
  · rintro target left op right rfl
    have hcomes : Comes (applyAll before r) (.arithmetic target left op right)
        ((applyAll ds r).get? target) := comes_iff.2 (get?_applyAll_of_last hvalid h r).symm
    exact hcomes.finite

def repriced : List Derivation :=
  [.copy "list_price" "price", .arithmetic "total" (.field "price") .multiply (.field "quantity"),
    .arithmetic "price" (.field "total") .divide (.field "shares")]

def openOrder : Record :=
  .ofList [("list_price", .number 5), ("price", .number 99), ("quantity", .number 4),
    ("shares", .number (-0)), ("total", .number 1)]

theorem applyAll_comes_repriced :
    (∀ d ∈ repriced, d.fault? = none) ∧
      (applyAll repriced openOrder).get? "quantity" = some (.number 4) ∧
      (applyAll repriced openOrder).get? "total" = some (.number (5 * 4)) ∧
      (applyAll repriced openOrder).get? "price" = none := by
  have hvalid : ∀ d ∈ repriced, d.fault? = none := by decide
  obtain ⟨hother, -, hlast⟩ := applyAll_comes hvalid openOrder
  have htotal := (hlast [_] _ [_] ⟨rfl, by decide⟩).1 (some (.number (5 * 4)))
  have hprice := (hlast [_, _] _ [] ⟨rfl, by decide⟩).1 none
  refine ⟨hvalid, hother "quantity" (by decide), htotal.2 ?_, hprice.2 ?_⟩
  · exact .computed (.field rfl) (.field rfl) (by decide) (by decide +kernel)
  · exact .zeroDivisor (.field rfl) (.inr rfl)

end Derivation

end Rulebook
