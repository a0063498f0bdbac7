import Rulebook.Proofs.Expression.Symbol
/-!
The grammar of expressions: a field, an operator symbol and a literal, blanks between them. Main
statement: what is read is in the grammar, or departs from it in one of two ways.
-/

set_option autoImplicit false

namespace Rulebook.Expression

open Text (isBlank trimStart trimEnd Blanks)

def Paired (text : List Char) : Prop :=
  ∀ a ∈ text, ∀ b ∈ text, isQuote a = true → isQuote b = true → a = b

instance (text : List Char) : Decidable (Paired text) :=
  @List.decidableBAll _ _ (fun _ => List.decidableBAll _ text) text

inductive Comparison : List Char → Operator → Value → Prop where
  | intro {gap before literal after : List Char} {op : Operator} {v : Value}
      (blanks : Blanks gap)
      (symbol : LongestAt op (op.symbol.toList ++ (before ++ (literal ++ after))))
      (blanksBefore : Blanks before) (reads : LiteralText literal v) (oneLine : '\n' ∉ literal)
      (blanksAfter : Blanks after) :
      Comparison (gap ++ (op.symbol.toList ++ (before ++ (literal ++ after)))) op v

/-- A symbol with nothing but line ends behind it gives its last sign up to the literal. -/
inductive CutComparison : List Char → Operator → Prop where
  | intro {gap after : List Char} {long short : Operator} (blanks : Blanks gap)
      (cut : shorter? long = some short) (lineEnds : ∀ c ∈ after, c = '\n') :
      CutComparison (gap ++ (long.symbol.toList ++ after)) short

/-- The expressions of the grammar: quotes in pairs, the longest symbol, and a literal. -/
inductive Grammatical : List Char → Expression → Prop where
  | intro {lead text field tail : List Char} {op : Operator} {v : Value} (blanks : Blanks lead)
      (named : FieldText text field) (paired : Paired text) (compared : Comparison tail op v) :
      Grammatical (lead ++ (text ++ tail)) ⟨String.ofList (trimEnd (trimStart field)), op, v⟩

/-- What is read beyond the grammar. -/
inductive Irregular : List Char → Expression → Prop where
  | mixedQuotes {lead text field tail : List Char} {op : Operator} {v : Value}
      (blanks : Blanks lead) (named : FieldText text field) (mixed : ¬ Paired text)
      (compared : Comparison tail op v) :
      Irregular (lead ++ (text ++ tail)) ⟨String.ofList (trimEnd (trimStart field)), op, v⟩
  | cutSymbol {lead text field tail : List Char} {op : Operator} (blanks : Blanks lead)
      (named : FieldText text field) (cut : CutComparison tail op) :
      Irregular (lead ++ (text ++ tail))
        ⟨String.ofList (trimEnd (trimStart field)), op, .text "="⟩

theorem split?_eq_some {cs field literal : List Char} {op : Operator} :
    split? cs = some (field, op, literal) ↔
      ∃ long gap rest,
        readField (trimStart cs) = some (field, gap ++ (long.symbol.toList ++ rest)) ∧
        Blanks gap ∧ LongestAt long (long.symbol.toList ++ rest) ∧
        ((op = long ∧ literalText? rest = some literal) ∨
          (shorter? long = some op ∧ (∀ c ∈ rest, c = '\n') ∧ literal = ['='])) := by
  unfold split?
  constructor
  · intro h
    split at h
    · cases h
    · rename_i read tail hread
      obtain ⟨gap, hgap, htail⟩ := Text.exists_lead tail
      have hsome : readOperators (trimStart tail) ≠ [] := by
        intro hnone
        rw [hnone] at h
        cases h
      obtain ⟨long, rest, hsymbol, hlongest⟩ := exists_longestAt hsome
      rw [hsymbol] at h htail
      have hfield : read = field := by
        obtain ⟨_, -, hpart⟩ := List.exists_of_findSome?_eq_some h
        obtain ⟨_, -, heq⟩ := Option.map_eq_some_iff.1 hpart
        exact congrArg Prod.fst heq
      subst hfield
      exact ⟨long, gap, rest, by rw [hread, htail], hgap, hlongest,
        (findSome?_readOperators hlongest).1 h⟩
  · rintro ⟨long, gap, rest, hread, hgap, hlongest, hliteral⟩
    rw [hread]
    dsimp only
    rw [trimStart_symbol hgap]
    exact (findSome?_readOperators hlongest).2 hliteral

theorem read_eq_ok {s : String} {e : Expression} :
    read s = .ok e ↔ ∃ field op literal v, split? s.toList = some (field, op, literal) ∧
      literalOfText literal = .ok v ∧
      e = ⟨String.ofList (trimEnd (trimStart field)), op, v⟩ := by
  unfold read
  constructor
  · intro h
    split at h
    · cases h
    · rename_i field op literal hsplit
      obtain ⟨v, hv, rfl⟩ := map_eq_ok.1 h
      exact ⟨field, op, literal, v, hsplit, hv, rfl⟩
  · rintro ⟨field, op, literal, v, hsplit, hv, rfl⟩
    rw [hsplit]
    exact map_eq_ok.2 ⟨v, hv, rfl⟩

theorem comparison_iff {tail : List Char} {op : Operator} {v : Value} :
    Comparison tail op v ↔
      ∃ gap rest literal, tail = gap ++ (op.symbol.toList ++ rest) ∧ Blanks gap ∧
        LongestAt op (op.symbol.toList ++ rest) ∧ literalText? rest = some literal ∧
        literalOfText literal = .ok v := by
  constructor
  · rintro ⟨blanks, symbol, blanksBefore, reads, oneLine, blanksAfter⟩
    exact ⟨_, _, _, rfl, blanks, symbol, (literalText?_eq_some reads.ne_nil).2
      ⟨reads.trimmed, oneLine, _, _, blanksBefore, blanksAfter, rfl⟩,
      literalOfText_eq_ok.2 reads⟩
  · rintro ⟨gap, rest, literal, rfl, blanks, symbol, hliteral, hread⟩
    have reads := literalOfText_eq_ok.1 hread
    obtain ⟨-, oneLine, before, after, blanksBefore, blanksAfter, rfl⟩ :=
      (literalText?_eq_some reads.ne_nil).1 hliteral
    exact .intro blanks symbol blanksBefore reads oneLine blanksAfter

theorem Comparison.endsField {tail : List Char} {op : Operator} {v : Value}
    (h : Comparison tail op v) : EndsField tail := by
  cases h with
  | intro blanks _ _ _ _ _ => exact endsField_symbol blanks _ _

theorem CutComparison.endsField {tail : List Char} {op : Operator} (h : CutComparison tail op) :
    EndsField tail := by
  cases h with
  | intro blanks _ _ => exact endsField_symbol blanks _ _

theorem read_iff {s : String} {e : Expression} :
    read s = .ok e ↔ ∃ lead text field tail op v, s.toList = lead ++ (text ++ tail) ∧ Blanks lead ∧
      FieldText text field ∧ e = ⟨String.ofList (trimEnd (trimStart field)), op, v⟩ ∧
      (Comparison tail op v ∨ (CutComparison tail op ∧ v = .text "=")) := by
  rw [read_eq_ok]
  constructor
  · rintro ⟨field, op, literal, v, hsplit, hv, rfl⟩
    obtain ⟨long, gap, rest, hfield, hgap, hlongest, hliteral⟩ := split?_eq_some.1 hsplit
    obtain ⟨text, htext, htrim⟩ := readField_eq_some hfield
    obtain ⟨lead, hlead, hs⟩ := Text.exists_lead s.toList
    rw [htrim] at hs
    refine ⟨lead, text, field, _, op, v, hs, hlead, htext, rfl, ?_⟩
    rcases hliteral with ⟨rfl, hliteral⟩ | ⟨hcut, hends, rfl⟩
    · exact .inl (comparison_iff.2 ⟨gap, rest, literal, rfl, hgap, hlongest, hliteral, hv⟩)
    · rw [literalOfText_sign] at hv
      cases hv
      exact .inr ⟨.intro hgap hcut hends, rfl⟩
  · rintro ⟨lead, text, field, tail, op, v, hs, hlead, htext, rfl, htail⟩
    have hfield (hends : EndsField tail) : readField (trimStart s.toList) = some (field, tail) := by
      rw [hs, trimStart_field hlead htext, readField_append htext hends]
    rcases htail with hcompared | ⟨hcut, rfl⟩
    · have hread := hfield hcompared.endsField
      obtain ⟨gap, rest, literal, rfl, hgap, hlongest, hliteral, hv⟩ := comparison_iff.1 hcompared
      exact ⟨field, op, literal, v, split?_eq_some.2
        ⟨op, gap, rest, hread, hgap, hlongest, .inl ⟨rfl, hliteral⟩⟩, hv, rfl⟩
    · have hread := hfield hcut.endsField
      cases hcut with
      | @intro gap after long _ hgap hshorter hends =>
        exact ⟨field, op, _, _, split?_eq_some.2 ⟨long, gap, after, hread, hgap,
          longestAt_of_shorter? hshorter after, .inr ⟨hshorter, hends, rfl⟩⟩,
          literalOfText_sign, rfl⟩

theorem not_comparison_of_blanks {gap after : List Char} {op op' : Operator} {v : Value}
    (hgap : Blanks gap) (hop : LongestAt op (op.symbol.toList ++ after)) (hafter : Blanks after) :
    ¬ Comparison (gap ++ (op.symbol.toList ++ after)) op' v := by
  intro h
  obtain ⟨gap', rest, literal, htail, hgap', hlongest, hliteral, hv⟩ := comparison_iff.1 h
  obtain ⟨rfl, rfl⟩ := symbol_unique hgap hgap' hop hlongest htail
  have hne := (literalOfText_eq_ok.1 hv).ne_nil
  rw [literalText?_blanks hafter] at hliteral
  split at hliteral
  · exact hne (Option.some.inj hliteral).symm
  · cases hliteral

theorem not_comparison_of_cut {tail : List Char} {op op' : Operator} {v : Value}
    (h : CutComparison tail op) : ¬ Comparison tail op' v := by
  cases h with
  | intro hgap _ hends =>
    have hafter := blanks_of_lineEnds hends
    exact not_comparison_of_blanks hgap (longestAt_of_blanks _ hafter) hafter

theorem not_irregular_of_grammatical {cs : List Char} {e e' : Expression} (h : Grammatical cs e) :
    ¬ Irregular cs e' := by
  obtain @⟨lead, text, field, tail, op, v, blanks, named, paired, compared⟩ := h
  intro h'
  generalize hcs : lead ++ (text ++ tail) = cs at h'
  cases h' with
  | mixedQuotes blanks' named' mixed compared' =>
    obtain ⟨rfl, -⟩ := field_unique blanks blanks' named named' compared.endsField
      compared'.endsField hcs
    exact mixed paired
  | cutSymbol blanks' named' cut =>
    obtain ⟨-, rfl⟩ := field_unique blanks blanks' named named' compared.endsField
      cut.endsField hcs
    exact not_comparison_of_cut cut compared

theorem read_without_literal {s : String} {lead text field gap after : List Char} {op : Operator}
    (hlead : Blanks lead) (htext : FieldText text field) (hgap : Blanks gap) (hafter : Blanks after)
    (hs : s.toList = lead ++ (text ++ (gap ++ (op.symbol.toList ++ after)))) :
    (∃ e, read s = .ok e) ↔ (op = .ge ∨ op = .le) ∧ ∀ c ∈ after, c = '\n' := by
  have hop := longestAt_of_blanks op hafter
  have hends : EndsField (gap ++ (op.symbol.toList ++ after)) := endsField_symbol hgap op after
  constructor
  · rintro ⟨e, he⟩
    obtain ⟨lead', text', field', tail, op', v, hs', hlead', htext', rfl, htail⟩ := read_iff.1 he
    rw [hs] at hs'
    rcases htail with hcompared | ⟨hcut, rfl⟩
    · obtain ⟨-, rfl⟩ := field_unique hlead hlead' htext htext' hends hcompared.endsField hs'
      exact absurd hcompared (not_comparison_of_blanks hgap hop hafter)
    · obtain ⟨-, htail⟩ := field_unique hlead hlead' htext htext' hends hcut.endsField hs'
      cases hcut with
      | @intro gap' after' long _ hgap' hshorter hlines =>
        obtain ⟨rfl, rfl⟩ := symbol_unique hgap hgap' hop (longestAt_of_shorter? hshorter _) htail
        refine ⟨?_, hlines⟩
        cases op <;> simp [shorter?] at hshorter ⊢
  · rintro ⟨hop, hlines⟩
    obtain ⟨short, hshorter⟩ : ∃ short, shorter? op = some short := by
      rcases hop with rfl | rfl <;> exact ⟨_, rfl⟩
    exact ⟨_, read_iff.2 ⟨lead, text, field, _, short, _, hs, hlead, htext, rfl,
      .inr ⟨.intro hgap hshorter hlines, rfl⟩⟩⟩

theorem read_error {s : String} {reason : ConditionError} (h : read s = .error reason) :
    ∃ text, reason = .unparsable text := by
  unfold read at h
  split at h
  · exact ⟨s, (Except.error.inj h).symm⟩
  · rename_i literal _
    cases hread : literalOfText literal with
    | ok v =>
      rw [hread] at h
      cases h
    | error fault =>
      rw [hread] at h
      obtain rfl : fault = reason := Except.error.inj h
      exact ⟨_, literalOfText_error hread⟩

/-- What is read is an expression of the grammar, or one with two kinds of quotes around its key, or
one whose symbol gives up its last sign for a literal. The rest is unparsable. -/
theorem read_iff_grammatical (s : String) :
    (∀ e, read s = .ok e ↔ Grammatical s.toList e ∨ Irregular s.toList e) ∧
    (∀ e e', Grammatical s.toList e → ¬ Irregular s.toList e') ∧
    (∀ (lead text field gap after : List Char) (op : Operator), Blanks lead →
      FieldText text field → Blanks gap → Blanks after →
      s.toList = lead ++ (text ++ (gap ++ (op.symbol.toList ++ after))) →
        ((∃ e, read s = .ok e) ↔ (op = .ge ∨ op = .le) ∧ ∀ c ∈ after, c = '\n')) ∧
    ∀ reason, read s = .error reason → ∃ text, reason = .unparsable text := by
  refine ⟨fun e => ?_, fun _ _ => not_irregular_of_grammatical,
    fun _ _ _ _ _ _ => read_without_literal, fun _ => read_error⟩
  rw [read_iff]
  constructor
  · rintro ⟨lead, text, field, tail, op, v, hs, hlead, htext, rfl, hcompared | ⟨hcut, rfl⟩⟩
    · rw [hs]
      by_cases hpaired : Paired text
      · exact .inl (.intro hlead htext hpaired hcompared)
      · exact .inr (.mixedQuotes hlead htext hpaired hcompared)
    · rw [hs]
      exact .inr (.cutSymbol hlead htext hcut)
  · generalize s.toList = cs
    rintro (⟨hlead, htext, -, hcompared⟩ | ⟨hlead, htext, -, hcompared⟩ | ⟨hlead, htext, hcut⟩)
    · exact ⟨_, _, _, _, _, _, rfl, hlead, htext, rfl, .inl hcompared⟩
    · exact ⟨_, _, _, _, _, _, rfl, hlead, htext, rfl, .inl hcompared⟩
    · exact ⟨_, _, _, _, _, _, rfl, hlead, htext, rfl, .inr ⟨hcut, rfl⟩⟩

theorem read_iff_grammatical_irregular :
    read "score >=" = .ok ⟨"score", .gt, .text "="⟩ ∧
    read "input['tier\"]==7" = .ok ⟨"tier", .eq, .number 7⟩ := by
  have hnone : Blanks [] := by decide
  constructor
  · refine ((read_iff_grammatical "score >=").1 _).2 (.inr ?_)
    have hname : readName "score".toList = some ("score".toList, []) := by rfl
    have hfield : FieldText "score".toList "score".toList := .name (readName_eq_some hname).1
    have hcut : CutComparison ([' '] ++ (Operator.ge.symbol.toList ++ [])) .gt :=
      .intro (by decide) rfl (by simp)
    exact .cutSymbol hnone hfield hcut
  · refine ((read_iff_grammatical "input['tier\"]==7").1 _).2 (.inr ?_)
    have hfield : FieldText
        ("input[".toList ++ ([] ++ '\'' :: ("tier".toList ++ '"' :: ([] ++ [']']))))
        "tier".toList :=
      .key (by decide) (by decide) (by decide) (by simp [isQuote]) hnone hnone
    have hliteral : LiteralText ['7'] (.number 7) := .number (by decide +kernel)
    have hequal : Comparison ([] ++ (Operator.eq.symbol.toList ++ ([] ++ (['7'] ++ [])))) .eq
        (.number 7) :=
      .intro hnone (longestAt_iff.2 (by decide)) hnone hliteral (by decide) hnone
    exact .mixedQuotes hnone hfield (by decide) hequal

end Rulebook.Expression
