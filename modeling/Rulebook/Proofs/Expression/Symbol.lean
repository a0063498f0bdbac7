import Rulebook.Proofs.Expression.Field
/-!
Operator symbols. The longest symbol at the front is tried first; one of two signs gives up its last
sign where that is the only literal to be had.
-/

set_option autoImplicit false

namespace Rulebook.Expression

open Text (isBlank trimStart Blanks)

structure LongestAt (op : Operator) (cs : List Char) : Prop where
  front : op.symbol.toList <+: cs
  longest : ∀ other : Operator, other.symbol.toList <+: cs →
    other.symbol.toList.length ≤ op.symbol.toList.length

/-- The operator left of a symbol without its last sign. -/
def shorter? : Operator → Option Operator
  | .ge => some .gt
  | .le => some .lt
  | _ => none

def signs : Operator → List Char
  | .eq => ['=', '=']
  | .ne => ['!', '=']
  | .gt => ['>']
  | .lt => ['<']
  | .ge => ['>', '=']
  | .le => ['<', '=']

theorem toList_symbol (op : Operator) : op.symbol.toList = signs op := by cases op <;> rfl

theorem longestAt_iff {op : Operator} {rest : List Char} :
    LongestAt op (op.symbol.toList ++ rest) ↔
      ((op = .gt ∨ op = .lt) → rest.head? ≠ some '=') := by
  constructor
  · rintro ⟨-, hlongest⟩ hop hhead
    obtain ⟨later, rfl⟩ := List.head?_eq_some_iff.1 hhead
    rcases hop with rfl | rfl
    · exact absurd (hlongest .ge ⟨later, rfl⟩) (by decide)
    · exact absurd (hlongest .le ⟨later, rfl⟩) (by decide)
  · refine fun h => ⟨List.prefix_append _ _, fun other ⟨later, hlater⟩ => ?_⟩
    simp only [toList_symbol] at hlater ⊢
    cases op <;> cases other <;> simp [signs] at hlater h ⊢ <;> simp [← hlater] at h

theorem longestAt_of_shorter? {long short : Operator} (h : shorter? long = some short)
    (rest : List Char) : LongestAt long (long.symbol.toList ++ rest) := by
  refine longestAt_iff.2 ?_
  rintro (rfl | rfl) <;> cases h

theorem longestAt_of_blanks (op : Operator) {after : List Char} (h : Blanks after) :
    LongestAt op (op.symbol.toList ++ after) := by
  refine longestAt_iff.2 fun _ hhead => ?_
  have hblank := h '=' (List.mem_of_mem_head? hhead)
  cases hblank

theorem readOperators_symbol {op : Operator} {rest : List Char}
    (h : LongestAt op (op.symbol.toList ++ rest)) :
    readOperators (op.symbol.toList ++ rest) =
      (op, rest) :: (shorter? op).toList.map fun short => (short, '=' :: rest) := by
  have hhead := longestAt_iff.1 h
  rw [toList_symbol]
  cases op with
  | eq | ne | ge | le => rfl
  | gt | lt =>
    cases rest with
    | nil => rfl
    | cons c rest =>
      have hc : c ≠ '=' := by simpa using hhead
      simp [signs, readOperators, shorter?, hc]

theorem exists_longestAt {cs : List Char} (h : readOperators cs ≠ []) :
    ∃ op rest, cs = op.symbol.toList ++ rest ∧ LongestAt op (op.symbol.toList ++ rest) := by
  unfold readOperators at h
  split at h
  · exact ⟨.eq, _, rfl, longestAt_iff.2 (by simp)⟩
  · exact ⟨.ne, _, rfl, longestAt_iff.2 (by simp)⟩
  · exact ⟨.ge, _, rfl, longestAt_iff.2 (by simp)⟩
  · exact ⟨.le, _, rfl, longestAt_iff.2 (by simp)⟩
  · rename_i rest hother
    refine ⟨.gt, rest, rfl, longestAt_iff.2 fun _ hhead => ?_⟩
    obtain ⟨later, rfl⟩ := List.head?_eq_some_iff.1 hhead
    exact hother later rfl
  · rename_i rest hother
    refine ⟨.lt, rest, rfl, longestAt_iff.2 fun _ hhead => ?_⟩
    obtain ⟨later, rfl⟩ := List.head?_eq_some_iff.1 hhead
    exact hother later rfl
  · exact absurd rfl h

theorem trimStart_symbol {gap : List Char} (h : Blanks gap) (op : Operator) (rest : List Char) :
    trimStart (gap ++ (op.symbol.toList ++ rest)) = op.symbol.toList ++ rest := by
  rw [Text.trimStart_append h, Text.trimStart_eq_self (by cases op <;> rfl)]

theorem endsField_symbol {gap : List Char} (h : Blanks gap) (op : Operator) (cs : List Char) :
    EndsField (gap ++ (op.symbol.toList ++ cs)) := by
  cases gap with
  | cons c gap => exact endsField_of_blank (h c List.mem_cons_self) _
  | nil => cases op <;> rintro d ⟨⟩ <;> decide

theorem symbol_unique {gap gap' rest rest' : List Char} {op op' : Operator} (hgap : Blanks gap)
    (hgap' : Blanks gap') (hop : LongestAt op (op.symbol.toList ++ rest))
    (hop' : LongestAt op' (op'.symbol.toList ++ rest'))
    (h : gap ++ (op.symbol.toList ++ rest) = gap' ++ (op'.symbol.toList ++ rest')) :
    op = op' ∧ rest = rest' := by
  have hrest : op.symbol.toList ++ rest = op'.symbol.toList ++ rest' := by
    rw [← trimStart_symbol hgap, h, trimStart_symbol hgap']
  have hread := readOperators_symbol hop
  rw [hrest, readOperators_symbol hop'] at hread
  obtain ⟨rfl, rfl⟩ := Prod.mk.inj (List.cons.inj hread).1
  exact ⟨rfl, rfl⟩

/-- The first symbol that leaves a literal is the longest one, or what is left of it. -/
theorem findSome?_readOperators {field literal : List Char} {op : Operator} {long : Operator}
    {rest : List Char} (h : LongestAt long (long.symbol.toList ++ rest)) :
    ((readOperators (long.symbol.toList ++ rest)).findSome? fun (operator, rest) =>
        (literalText? rest).map fun literal => (field, operator, literal)) =
          some (field, op, literal) ↔
      (op = long ∧ literalText? rest = some literal) ∨
        (shorter? long = some op ∧ (∀ c ∈ rest, c = '\n') ∧ literal = ['=']) := by
  rw [readOperators_symbol h, ← literalText?_sign]
  cases hrest : literalText? rest with
  | some text => simp [hrest, @eq_comm _ long]
  | none =>
    cases hshort : shorter? long with
    | none => simp [hrest]
    | some short => cases hs : literalText? ('=' :: rest) <;> simp [hrest, hs]

end Rulebook.Expression
