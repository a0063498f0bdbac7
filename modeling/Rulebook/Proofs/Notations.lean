import Rulebook.Proofs.Expression.Grammar
import Rulebook.Proofs.Recompilation
import Rulebook.Proofs.SuffixKey
/-!
Three notations for a condition: a structure, a key with a suffix, and an expression. Main
statement: written in any of them, a condition is lowered to the same field, operator and literal.
-/

set_option autoImplicit false

namespace Rulebook

open Text (Blanks)

/-- Texts that stand for a literal and for nothing else: the text of a number, the word of a
boolean, and quotes around a text of one line in which there is none of them. -/
inductive Spelled : Value → List Char → Prop where
  | number {cs : List Char} {x : Float} (finite : x.isFinite = true)
      (reads : Binary64.ofText? (String.ofList cs) = some x) : Spelled (.number x) cs
  | boolean {word : String} {b : Bool} (known : (word, b) ∈ Expression.booleanWords) :
      Spelled (.boolean b) word.toList
  | text {quote : Char} {t : String} (kind : Expression.isQuote quote = true)
      (closed : quote ∉ t.toList) (oneLine : '\n' ∉ t.toList) :
      Spelled (.text t) (quote :: (t.toList ++ [quote]))

/-- What is put behind a name to pick an operator. A name that ends in no suffix, or is one, picks
equality by itself. -/
inductive SuffixFor (name : String) : Operator → String → Prop where
  | listed {op : Operator} {suffix : String} (h : (suffix, op) ∈ SuffixKey.suffixes) :
      SuffixFor name op suffix
  | plain (h : ∀ e ∈ SuffixKey.suffixes, e.1.toList <:+ name.toList → name = e.1) :
      SuffixFor name .eq ""

namespace Spelled

variable {v : Value} {cs : List Char}

theorem literalText (h : Spelled v cs) : Expression.LiteralText cs v := by
  cases h with
  | number finite reads => exact .number (Option.filter_eq_some_iff.2 ⟨reads, finite⟩)
  | boolean known => exact .boolean known
  | @text quote t kind closed _ =>
    have ht := Expression.LiteralText.quoted kind closed
    rwa [String.ofList_toList] at ht

theorem numberChar {x : Float} (finite : x.isFinite = true)
    (reads : Binary64.ofText? (String.ofList cs) = some x) : ∀ c ∈ cs, isNumberChar c = true :=
  Expression.numberChar_of_finiteOfText? (Option.filter_eq_some_iff.2 ⟨reads, finite⟩)

theorem oneLine (h : Spelled v cs) : '\n' ∉ cs := by
  have hword (hchars : ∀ c ∈ cs, isNumberChar c = true) : '\n' ∉ cs := fun hline => by
    cases hchars _ hline
  cases h with
  | number finite reads => exact hword (numberChar finite reads)
  | boolean known => exact hword (Expression.numberChar_of_booleanWord known)
  | @text quote t kind _ oneLine =>
    have hquote : '\n' ≠ quote := by
      rintro rfl
      cases kind
    simp [hquote, oneLine]

theorem head?_ne (h : Spelled v cs) : cs.head? ≠ some '=' := by
  have hword (hchars : ∀ c ∈ cs, isNumberChar c = true) : cs.head? ≠ some '=' := fun hhead => by
    cases hchars _ (List.mem_of_mem_head? hhead)
  cases h with
  | number finite reads => exact hword (numberChar finite reads)
  | boolean known => exact hword (Expression.numberChar_of_booleanWord known)
  | text kind _ _ =>
    rintro ⟨⟩
    cases kind

theorem literalFault? (h : Spelled v cs) : Condition.literalFault? v = none :=
  h.literalText.literalFault?

theorem comparison (h : Spelled v cs) {gap before after : List Char} (op : Operator)
    (hgap : Blanks gap) (hbefore : Blanks before) (hafter : Blanks after) :
    Expression.Comparison (gap ++ (op.symbol.toList ++ (before ++ (cs ++ after)))) op v := by
  have hsymbol : Expression.LongestAt op (op.symbol.toList ++ (before ++ (cs ++ after))) := by
    -- Only `=` right behind a symbol of one sign could make it a longer one.
    refine Expression.longestAt_iff.2 fun _ hhead => ?_
    cases before with
    | nil => exact h.head?_ne (by simpa [h.literalText.ne_nil] using hhead)
    | cons c before =>
      cases hhead
      cases hbefore '=' List.mem_cons_self
  exact .intro hgap hsymbol hbefore h.literalText h.oneLine hafter

end Spelled

theorem Expression.IsName.trimmed {name : List Char} (h : IsName name) : Text.Trimmed name :=
  Text.trimmed_of_not_blank fun c hc =>
    Text.not_blank_of_printed (printed_of_isNameRest (h.isNameRest c hc))

namespace Condition

theorem built_name {name : String} (h : Expression.IsName name.toList) (op : Operator) {v : Value}
    (hv : literalFault? v = none) : Built ⟨name, op, v⟩ := by
  have htrim : Text.trim name = name := by
    rw [Text.trim, h.trimmed.trim_eq_self, String.ofList_toList]
  have hnamed : name.toList ≠ [] := by
    generalize name.toList = cs at h
    cases h
    simp
  exact ⟨htrim, by simpa using hnamed, hv⟩

theorem build_name {name spelling : String} {op : Operator} {v : Value}
    (h : Expression.IsName name.toList) (hop : Operator.ofText? spelling = some op)
    (hv : literalFault? v = none) : build name spelling v = .ok ⟨name, op, v⟩ := by
  obtain ⟨htrim, hnamed, -⟩ := built_name h op hv
  simp only [build, hop, htrim, hnamed, hv]
  rfl

theorem literalOfJson_eq_ok {j : Json} {v : Value} (hj : Value.ofJson? j = some v)
    (hv : literalFault? v = none) : literalOfJson j = .ok v := by
  cases v with
  | absent => cases hv
  | number | text | boolean => simp [literalOfJson, hj]

end Condition

theorem SuffixFor.split {name suffix : String} {op : Operator} (h : SuffixFor name op suffix)
    (hname : Expression.IsName name.toList) : SuffixKey.split (name ++ suffix) = (name, op) := by
  cases h with
  | listed h =>
    refine SuffixKey.split_append ?_ h
    rintro rfl
    cases hname
  | plain h => rw [String.append_empty, SuffixKey.split_plain h]

theorem Clauses.lowered_single (key : String) (j : Json) :
    (Clauses.suffixed [(key, j)]).lowered = [do
      Condition.build (SuffixKey.split key).1 (SuffixKey.split key).2.symbol
        (← Condition.literalOfJson j)] := rfl

/-- A condition on a name is the same in all notations, whatever its text holds between quotes and
whatever suffix its name ends in. -/
theorem notations_agree {name : String} {op : Operator} {v : Value} {spelling suffix : String}
    {j : Json} {lead text gap before literal after : List Char}
    (hname : Expression.IsName name.toList) (hspelling : Operator.ofText? spelling = some op)
    (hsuffix : SuffixFor name op suffix) (hj : Value.ofJson? j = some v)
    (hliteral : Spelled v literal) (htext : Expression.FieldText text name.toList)
    (hlead : Blanks lead) (hgap : Blanks gap) (hbefore : Blanks before) (hafter : Blanks after) :
    (Clause.structured name spelling j).lower = .ok ⟨name, op, v⟩ ∧
    (Clauses.suffixed [(name ++ suffix, j)]).lowered = [.ok ⟨name, op, v⟩] ∧
    (Clause.expression (String.ofList (lead ++ (text ++ (gap ++ (op.symbol.toList ++
      (before ++ (literal ++ after)))))))).lower = .ok ⟨name, op, v⟩ := by
  have hv := hliteral.literalFault?
  have hjson := Condition.literalOfJson_eq_ok hj hv
  have hbuild := Condition.build_name hname (Operator.ofText?_symbol op) hv
  refine ⟨bind_eq_ok.2 ⟨v, hjson, Condition.build_name hname hspelling hv⟩, ?_, ?_⟩
  · rw [Clauses.lowered_single, hsuffix.split hname]
    exact congrArg (· :: []) (bind_eq_ok.2 ⟨v, hjson, hbuild⟩)
  · refine bind_eq_ok.2 ⟨⟨name, op, v⟩, Expression.read_iff.2 ?_, hbuild⟩
    have hfield : String.ofList (Text.trimEnd (Text.trimStart name.toList)) = name := by
      rw [hname.trimmed.trim_eq_self, String.ofList_toList]
    exact ⟨lead, text, name.toList, _, op, v, String.toList_ofList, hlead, htext, by rw [hfield],
      .inl (hliteral.comparison op hgap hbefore hafter)⟩

theorem notations_agree_key :
    (Clause.structured "age_gt" " gte" (.text " x >= '1' ")).lower =
      .ok ⟨"age_gt", .ge, .text " x >= '1' "⟩ ∧
    (Clauses.suffixed [("age_gt_ge", .text " x >= '1' ")]).lowered =
      [.ok ⟨"age_gt", .ge, .text " x >= '1' "⟩] ∧
    (Clause.expression " input[ 'age_gt']>=\n\" x >= '1' \" ").lower =
      .ok ⟨"age_gt", .ge, .text " x >= '1' "⟩ := by
  have hread : Expression.readName "age_gt".toList = some ("age_gt".toList, []) := by rfl
  have hname : Expression.IsName "age_gt".toList := (Expression.readName_eq_some hread).1
  have hliteral : Spelled (.text " x >= '1' ") ('"' :: (" x >= '1' ".toList ++ ['"'])) :=
    .text (by decide) (by decide) (by decide)
  have htext : Expression.FieldText
      ("input[".toList ++ ([' '] ++ '\'' :: ("age_gt".toList ++ '\'' :: ([] ++ [']']))))
      "age_gt".toList :=
    .key (by decide) (by decide) (by decide) (by simp [Expression.isQuote]) (by decide) (by decide)
  have hlead : Blanks [' '] := by decide
  have hgap : Blanks [] := by decide
  have hbefore : Blanks ['\n'] := by decide
  have hspelling : Operator.ofText? " gte" = some .ge := by decide +kernel
  have hsuffix : SuffixFor "age_gt" .ge "_ge" := .listed (by decide)
  simpa [Operator.symbol] using
    notations_agree hname hspelling hsuffix rfl hliteral htext hlead hgap hbefore hlead

end Rulebook
