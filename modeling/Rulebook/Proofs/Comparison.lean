import Rulebook.Comparison
/-!
What a comparison says. A field and a literal stand in an order, or are two booleans, or something
is in the way; the operator has no part in that. Main statement: an operator and its opposite never
say the same, less, equal and greater exclude each other, and what is in the way is one of the
obstacles that `Obstructed` lists, or the missing order of booleans.
-/

set_option autoImplicit false

namespace Rulebook

namespace Operator

def opposite : Operator → Operator
  | .eq => .ne
  | .ne => .eq
  | .gt => .le
  | .le => .gt
  | .lt => .ge
  | .ge => .lt

theorem holds_opposite (op : Operator) (order : Ordering) :
    op.opposite.holds order = !op.holds order := by
  cases op <;> cases order <;> rfl

end Operator

namespace Verdict

def opposite : Verdict → Verdict
  | .satisfied => .unsatisfied
  | .unsatisfied => .satisfied
  | .indeterminate obstacle => .indeterminate obstacle

theorem ofBool_not (b : Bool) : ofBool (!b) = (ofBool b).opposite := by cases b <;> rfl

theorem ofBool_eq_satisfied {b : Bool} : ofBool b = .satisfied ↔ b = true := by
  cases b <;> simp [ofBool]

theorem ofBool_ne_indeterminate (b : Bool) (o : Obstacle) : ofBool b ≠ .indeterminate o := by
  cases b <;> simp [ofBool]

end Verdict

namespace Comparison

open Float.Model (UnpackedFloat)

/-- How two doubles stand to each other. Nothing is so for what is not a number. -/
inductive InOrder : Float → Float → Ordering → Prop where
  | less {a b : Float} (h : a < b) : InOrder a b .lt
  | equal {a b : Float} (h : (a == b) = true) : InOrder a b .eq
  | greater {a b : Float} (h : b < a) : InOrder a b .gt

theorem exists_compare {a b : UnpackedFloat} (ha : a.isNaN = false) (hb : b.isNaN = false) :
    ∃ order, a.compare b = some order := by
  cases a with
  | notANumber => cases ha
  | infinity s =>
    cases b with
    | notANumber => cases hb
    | infinity t => exact ⟨_, rfl⟩
    | zero | finite => cases s <;> exact ⟨_, rfl⟩
  | zero s =>
    cases b with
    | notANumber => cases hb
    | zero t => exact ⟨_, rfl⟩
    | infinity t | finite t => cases t <;> exact ⟨_, rfl⟩
  | finite s =>
    cases b with
    | notANumber => cases hb
    | zero => cases s <;> exact ⟨_, rfl⟩
    | infinity t => cases t <;> exact ⟨_, rfl⟩
    | finite t => cases s <;> cases t <;> exact ⟨_, rfl⟩

theorem compare_eq_none {a b : UnpackedFloat} :
    a.compare b = none ↔ a.isNaN = true ∨ b.isNaN = true := by
  constructor
  · intro h
    cases ha : a.isNaN with
    | true => exact .inl rfl
    | false =>
      cases hb : b.isNaN with
      | true => exact .inr rfl
      | false =>
        obtain ⟨order, horder⟩ := exists_compare ha hb
        rw [h] at horder
        cases horder
  · rintro (h | h)
    · cases a with
      | notANumber => rfl
      | infinity | zero | finite => cases h
    · cases b with
      | notANumber => cases a <;> rfl
      | infinity | zero | finite => cases h

theorem compare_swap (a b : UnpackedFloat) : b.compare a = (a.compare b).map Ordering.swap := by
  have hsign : ∀ s t : UnpackedFloat.Sign, compare t s = (compare s t).swap := by
    intro s t
    cases s <;> cases t <;> rfl
  have hmagnitude : ∀ (e f : Int) (m n : Nat),
      (compare f e).then (compare n m) = ((compare e f).then (compare m n)).swap := by
    intro e f m n
    rw [Ordering.swap_then, ← Std.OrientedOrd.eq_swap, ← Std.OrientedOrd.eq_swap]
  cases a with
  | notANumber => cases b <;> rfl
  | infinity s =>
    cases b with
    | infinity t => exact congrArg some (hsign s t)
    | notANumber | zero | finite => cases s <;> rfl
  | zero s =>
    cases b with
    | notANumber | zero => rfl
    | infinity t | finite t => cases t <;> rfl
  | finite s m e =>
    cases b with
    | notANumber | zero => cases s <;> rfl
    | infinity t => cases t <;> rfl
    | finite t n f =>
      cases s with
      | positive =>
        cases t with
        | positive => exact congrArg some (hmagnitude e f m n)
        | negative => rfl
      | negative =>
        cases t with
        | positive => rfl
        | negative => exact congrArg (fun order => some order.swap) (hmagnitude e f m n)

theorem lt_iff_compare {a b : Float} :
    a < b ↔ a.toModel.unpack.compare b.toModel.unpack = some .lt := by
  change decide (a.toModel < b.toModel) = true ↔ _
  rw [decide_eq_true_iff]
  exact beq_iff_eq

theorem beq_iff_compare {a b : Float} :
    (a == b) = true ↔ a.toModel.unpack.compare b.toModel.unpack = some .eq := by
  change (a.toModel.unpack.compare b.toModel.unpack == some .eq) = true ↔ _
  exact beq_iff_eq

theorem order?_eq_compare (a b : Float) :
    order? a b = a.toModel.unpack.compare b.toModel.unpack := by
  have hnone : (a.isNaN || b.isNaN) = (a.toModel.unpack.compare b.toModel.unpack).isNone := by
    rw [Bool.eq_iff_iff, Option.isNone_iff_eq_none, compare_eq_none, Bool.or_eq_true]
    rfl
  rw [order?, hnone]
  simp only [lt_iff_compare, beq_iff_compare]
  cases a.toModel.unpack.compare b.toModel.unpack with
  | none => rfl
  | some order => cases order <;> rfl

theorem order?_eq_none {a b : Float} : order? a b = none ↔ a.isNaN = true ∨ b.isNaN = true := by
  rw [order?_eq_compare, compare_eq_none]
  rfl

theorem order?_eq_some {a b : Float} {order : Ordering} :
    order? a b = some order ↔ InOrder a b order := by
  rw [order?_eq_compare]
  constructor
  · intro h
    cases order with
    | lt => exact .less (lt_iff_compare.2 h)
    | eq => exact .equal (beq_iff_compare.2 h)
    | gt => exact .greater (lt_iff_compare.2 (by rw [compare_swap, h]; rfl))
  · intro h
    cases h with
    | less h => exact lt_iff_compare.1 h
    | equal h => exact beq_iff_compare.1 h
    | greater h =>
      rw [compare_swap, lt_iff_compare.1 h]
      rfl

/-- What a literal may be taken for: itself, or the finite number or the boolean that its text reads
as, blanks around it aside. -/
inductive Denotes : Value → Value → Prop where
  | itself (v : Value) : Denotes v v
  | number {s : String} {x : Float} (reads : Binary64.ofText? (Text.trim s) = some x)
      (finite : x.isFinite = true) : Denotes (.text s) (.number x)
  | boolean {s : String} {b : Bool}
      (reads : (Text.trim s).toList.map Char.toLower = Json.boolChars b) :
      Denotes (.text s) (.boolean b)

theorem readNumber?_eq_some {s : String} {x : Float} :
    readNumber? s = some x ↔ Denotes (.text s) (.number x) := by
  rw [readNumber?, Binary64.finiteOfText?, Option.filter_eq_some_iff]
  constructor
  · rintro ⟨reads, finite⟩
    exact .number reads finite
  · intro h
    cases h with
    | number reads finite => exact ⟨reads, finite⟩

theorem readBoolean?_eq_some {s : String} {b : Bool} :
    readBoolean? s = some b ↔ Denotes (.text s) (.boolean b) := by
  have hwords : readBoolean? s = some b ↔
      (Text.trim s).toList.map Char.toLower = Json.boolChars b := by
    unfold readBoolean?
    generalize (Text.trim s).toList.map Char.toLower = word
    constructor
    · intro h
      dsimp only at h
      split at h
      case isTrue hword => cases h; exact hword
      case isFalse =>
        split at h
        case isTrue hword => cases h; exact hword
        case isFalse => cases h
    · rintro rfl
      cases b <;> rfl
  rw [hwords]
  constructor
  · exact .boolean
  · intro h
    cases h with
    | boolean reads => exact reads

theorem evaluate_numbers {literal : Value} {b : Float} (h : Denotes literal (.number b)) (a : Float)
    (op : Operator) : evaluate (some (.number a)) op literal = numbers op a b := by
  generalize hv : Value.number b = v at h
  cases h with
  | itself => cases hv; rfl
  | number reads finite =>
    cases hv
    simp only [evaluate, readNumber?_eq_some.2 (.number reads finite)]
  | boolean => cases hv

theorem evaluate_booleans {literal : Value} {b : Bool} (h : Denotes literal (.boolean b)) (a : Bool)
    (op : Operator) : evaluate (some (.boolean a)) op literal = booleans op a b := by
  generalize hv : Value.boolean b = v at h
  cases h with
  | itself => cases hv; rfl
  | boolean reads =>
    cases hv
    simp only [evaluate, readBoolean?_eq_some.2 (.boolean reads)]
  | number => cases hv

def unpairedKinds : List (Kind × Kind) :=
  [(.text, .number), (.text, .boolean), (.number, .boolean), (.boolean, .number)]

/-- What is in the way of a comparison, whatever the operator. -/
inductive Obstructed : Option Value → Value → Obstacle → Prop where
  | missing {literal : Value} : Obstructed none literal .missingField
  | absent {literal : Value} : Obstructed (some .absent) literal .missingField
  | unpaired {v literal : Value} (kinds : (v.kind, literal.kind) ∈ unpairedKinds) :
      Obstructed (some v) literal (.incompatible v.kind literal.kind)
  | unreadable {v : Value} {s : String} (kind : v.kind = .number ∨ v.kind = .boolean)
      (unread : ∀ u, Denotes (.text s) u → u.kind ≠ v.kind) :
      Obstructed (some v) (.text s) (.unreadable s)
  | notANumber {a b : Float} {literal : Value} (denotes : Denotes literal (.number b))
      (nan : a.isNaN = true ∨ b.isNaN = true) :
      Obstructed (some (.number a)) literal (.incompatible .number .number)

/-- What a field and a literal come to before an operator is looked at. -/
inductive Pairing where
  | obstructed (obstacle : Obstacle)
  | ordered (order : Ordering)
  | booleans (same : Bool)

namespace Pairing

def verdict : Pairing → Operator → Verdict
  | .obstructed obstacle, _ => .indeterminate obstacle
  | .ordered order, op => .ofBool (op.holds order)
  | .booleans same, .eq => .ofBool same
  | .booleans same, .ne => .ofBool !same
  | .booleans _, _ => .indeterminate (.unordered .boolean)

theorem verdict_opposite (p : Pairing) (op : Operator) :
    p.verdict op.opposite = (p.verdict op).opposite := by
  cases p with
  | obstructed obstacle => rfl
  | ordered order =>
    change Verdict.ofBool (op.opposite.holds order) = (Verdict.ofBool (op.holds order)).opposite
    rw [op.holds_opposite, Verdict.ofBool_not]
  | booleans same => cases op <;> cases same <;> rfl

/-- An ordering operator has an answer only where there is an order. -/
theorem ordered_of_verdict {p : Pairing} {op : Operator} (hop : op.isOrdering = true)
    (h : ∀ o, p.verdict op ≠ .indeterminate o) : ∃ order, p = .ordered order := by
  cases p with
  | obstructed obstacle => exact absurd rfl (h obstacle)
  | ordered order => exact ⟨order, rfl⟩
  | booleans same =>
    cases op with
    | eq | ne => cases hop
    | gt | lt | ge | le => exact absurd rfl (h _)

end Pairing

inductive Pairs : Option Value → Value → Pairing → Prop where
  | obstructed {field : Option Value} {literal : Value} {o : Obstacle}
      (h : Obstructed field literal o) : Pairs field literal (.obstructed o)
  | numbers {a b : Float} {literal : Value} {order : Ordering}
      (denotes : Denotes literal (.number b)) (inOrder : InOrder a b order) :
      Pairs (some (.number a)) literal (.ordered order)
  | texts {s t : String} : Pairs (some (.text s)) (.text t) (.ordered (compare s t))
  | booleans {a b : Bool} {literal : Value} (denotes : Denotes literal (.boolean b)) :
      Pairs (some (.boolean a)) literal (.booleans (a == b))

theorem evaluate_of_obstructed {field : Option Value} {literal : Value} {o : Obstacle}
    (h : Obstructed field literal o) (op : Operator) :
    evaluate field op literal = .indeterminate o := by
  cases h with
  | missing => rfl
  | absent => rfl
  | @unpaired v literal kinds =>
    simp only [unpairedKinds, List.mem_cons, Prod.mk.injEq, List.not_mem_nil, or_false] at kinds
    rcases kinds with ⟨hv, hl⟩ | ⟨hv, hl⟩ | ⟨hv, hl⟩ | ⟨hv, hl⟩ <;>
      cases v <;> cases hv <;> cases literal <;> cases hl <;> rfl
  | @unreadable v s kind unread =>
    cases v with
    | number a =>
      have hnone : readNumber? s = none := Option.eq_none_iff_forall_ne_some.2 fun x hx =>
        unread _ (readNumber?_eq_some.1 hx) rfl
      simp only [evaluate, hnone]
    | boolean a =>
      have hnone : readBoolean? s = none := Option.eq_none_iff_forall_ne_some.2 fun b hb =>
        unread _ (readBoolean?_eq_some.1 hb) rfl
      simp only [evaluate, hnone]
    | text | absent => simp [Value.kind] at kind
  | @notANumber a b literal denotes nan =>
    rw [evaluate_numbers denotes, Comparison.numbers, order?_eq_none.2 nan]

theorem evaluate_of_pairs {field : Option Value} {literal : Value} {p : Pairing}
    (h : Pairs field literal p) (op : Operator) : evaluate field op literal = p.verdict op := by
  cases h with
  | obstructed h => exact evaluate_of_obstructed h op
  | numbers denotes inOrder =>
    rw [evaluate_numbers denotes, Comparison.numbers, order?_eq_some.2 inOrder]
    rfl
  | texts => rfl
  | booleans denotes =>
    rw [evaluate_booleans denotes]
    cases op <;> rfl

theorem exists_pairs_numbers {literal : Value} {b : Float} (h : Denotes literal (.number b))
    (a : Float) : ∃ p, Pairs (some (.number a)) literal p := by
  cases horder : order? a b with
  | none => exact ⟨_, .obstructed (.notANumber h (order?_eq_none.1 horder))⟩
  | some order => exact ⟨_, .numbers h (order?_eq_some.1 horder)⟩

theorem denotes_or_obstructed (v : Value) (s : String)
    (kind : v.kind = .number ∨ v.kind = .boolean) :
    (∃ u, Denotes (.text s) u ∧ u.kind = v.kind) ∨
      Obstructed (some v) (.text s) (.unreadable s) := by
  by_cases h : ∃ u, Denotes (.text s) u ∧ u.kind = v.kind
  · exact .inl h
  · exact .inr (.unreadable kind fun u hu hkind => h ⟨u, hu, hkind⟩)

theorem exists_pairs_text (v : Value) (s : String) : ∃ p, Pairs (some v) (.text s) p := by
  cases v with
  | absent => exact ⟨_, .obstructed .absent⟩
  | text t => exact ⟨_, .texts⟩
  | number a =>
    obtain ⟨u, hu, hkind⟩ | h := denotes_or_obstructed (.number a) s (.inl rfl)
    · cases u with
      | number b => exact exists_pairs_numbers hu a
      | text | boolean | absent => cases hkind
    · exact ⟨_, .obstructed h⟩
  | boolean a =>
    obtain ⟨u, hu, hkind⟩ | h := denotes_or_obstructed (.boolean a) s (.inr rfl)
    · cases u with
      | boolean b => exact ⟨_, .booleans hu⟩
      | text | number | absent => cases hkind
    · exact ⟨_, .obstructed h⟩

theorem exists_pairs (field : Option Value) {literal : Value} (hl : literal.isAbsent = false) :
    ∃ p, Pairs field literal p := by
  have unpaired {v : Value} (kinds : (v.kind, literal.kind) ∈ unpairedKinds) :
      ∃ p, Pairs (some v) literal p := ⟨_, .obstructed (.unpaired kinds)⟩
  cases field with
  | none => exact ⟨_, .obstructed .missing⟩
  | some v =>
    cases literal with
    | absent => cases hl
    | text s => exact exists_pairs_text v s
    | number b =>
      cases v with
      | absent => exact ⟨_, .obstructed .absent⟩
      | number a => exact exists_pairs_numbers (.itself _) a
      | text | boolean => exact unpaired (by simp [unpairedKinds, Value.kind])
    | boolean b =>
      cases v with
      | absent => exact ⟨_, .obstructed .absent⟩
      | boolean a => exact ⟨_, .booleans (.itself _)⟩
      | text | number => exact unpaired (by simp [unpairedKinds, Value.kind])

/-- In an order exactly one of less, equal and greater holds, and the others follow from them. -/
theorem ordered_laws {verdict : Operator → Verdict} {order : Ordering}
    (h : ∀ op, verdict op = .ofBool (op.holds order)) :
    (∃ only ∈ [Operator.lt, .eq, .gt], ∀ op ∈ [Operator.lt, .eq, .gt],
      verdict op = .satisfied ↔ op = only) ∧
    (verdict .ge = .satisfied ↔ verdict .gt = .satisfied ∨ verdict .eq = .satisfied) ∧
    (verdict .le = .satisfied ↔ verdict .lt = .satisfied ∨ verdict .eq = .satisfied) := by
  simp only [h, Verdict.ofBool_eq_satisfied]
  cases order <;> decide

/-- The laws of comparison. The opposite operator gives the other answer, or meets the same
obstacle. Where an ordering operator has an answer, one of less, equal and greater holds. No answer
is given to what is obstructed, nor to the order of two booleans. -/
theorem evaluate_lawful (field : Option Value) {literal : Value}
    (hl : literal.isAbsent = false) :
    (∀ op, evaluate field op.opposite literal = (evaluate field op literal).opposite) ∧
    (∀ op, op.isOrdering = true → (∀ o, evaluate field op literal ≠ .indeterminate o) →
      (∃ only ∈ [Operator.lt, .eq, .gt], ∀ op ∈ [Operator.lt, .eq, .gt],
        evaluate field op literal = .satisfied ↔ op = only) ∧
      (evaluate field .ge literal = .satisfied ↔
        evaluate field .gt literal = .satisfied ∨ evaluate field .eq literal = .satisfied) ∧
      (evaluate field .le literal = .satisfied ↔
        evaluate field .lt literal = .satisfied ∨ evaluate field .eq literal = .satisfied)) ∧
    (∀ op o, evaluate field op literal = .indeterminate o ↔ Obstructed field literal o ∨
      op.isOrdering = true ∧ o = .unordered .boolean ∧
        ∃ a b, field = some (.boolean a) ∧ Denotes literal (.boolean b)) ∧
    ∃ p, Pairs field literal p ∧ ∀ op, evaluate field op literal = p.verdict op := by
  obtain ⟨p, hp⟩ := exists_pairs field hl
  have hverdict := evaluate_of_pairs hp
  refine ⟨fun op => ?_, fun op hop hanswer => ?_, fun op o => ⟨fun h => ?_, fun h => ?_⟩,
    p, hp, hverdict⟩
  · rw [hverdict, hverdict, p.verdict_opposite]
  · obtain ⟨order, rfl⟩ := Pairing.ordered_of_verdict hop fun o => hverdict op ▸ hanswer o
    exact ordered_laws hverdict
  · rw [hverdict] at h
    cases hp with
    | obstructed hobstructed =>
      cases h
      exact .inl hobstructed
    | numbers | texts => exact absurd h (Verdict.ofBool_ne_indeterminate _ o)
    | @booleans a b literal denotes =>
      cases op with
      | eq | ne => exact absurd h (Verdict.ofBool_ne_indeterminate _ o)
      | gt | lt | ge | le =>
        cases h
        exact .inr ⟨rfl, rfl, a, b, rfl, denotes⟩
  · rcases h with hobstructed | ⟨hop, rfl, a, b, rfl, denotes⟩
    · exact evaluate_of_obstructed hobstructed op
    · rw [evaluate_booleans denotes]
      cases op with
      | eq | ne => cases hop
      | gt | lt | ge | le => rfl

theorem evaluate_lawful_shouted :
    (Value.text " TRUE ").isAbsent = false ∧
    evaluate (some (.boolean false)) .eq (.text " TRUE ") = .unsatisfied ∧
    evaluate (some (.boolean false)) .ne (.text " TRUE ") = .satisfied ∧
    evaluate (some (.boolean false)) .lt (.text " TRUE ") =
      .indeterminate (.unordered .boolean) := by
  obtain ⟨hopposite, -, hobstacle, -⟩ :=
    @evaluate_lawful (some (.boolean false)) (.text " TRUE ") rfl
  have heq : evaluate (some (.boolean false)) .eq (.text " TRUE ") = .unsatisfied := rfl
  refine ⟨rfl, heq, ?_, (hobstacle .lt _).2 (.inr ⟨rfl, rfl, false, true, rfl, .boolean rfl⟩)⟩
  rw [show Operator.ne = Operator.opposite .eq from rfl, hopposite, heq]
  rfl

end Comparison

end Rulebook
