import Rulebook.Proofs.Notations
/-!
What expressions that are read are good for. Main statement: an expression that is read makes a
condition, unless its field is blank, which only a key in brackets can be; and its literal holds
blanks only between one pair of quotes, so that nothing with a second condition in it is read.
-/

set_option autoImplicit false

namespace Rulebook.Expression

open Text (isBlank trimStart trimEnd Blanks)

/-- The field of an expression, its symbol, and what is left behind the symbol. -/
structure Parts (cs text field : List Char) (op : Operator) (rest : List Char) : Prop where
  named : FieldText text field
  order : ∃ lead gap, Blanks lead ∧ Blanks gap ∧
    cs = lead ++ (text ++ (gap ++ (op.symbol.toList ++ rest)))

def Enclosed (literal inner : List Char) : Prop :=
  ∃ quote, isQuote quote = true ∧ quote ∉ inner ∧ literal = quote :: (inner ++ [quote])

/-- What is known of an expression with this field and this literal in its text. -/
structure Usable (e : Expression) (text literal : List Char) : Prop where
  operator : e.operator.symbol ∈ ["==", "!=", ">", "<", ">=", "<="]
  present : e.literal ≠ .absent
  finite : ∀ x, e.literal = .number x → x.isFinite = true
  texts : ∀ t, e.literal = .text t → Enclosed literal t.toList ∨
    literal = t.toList ∧ t ≠ "" ∧ (∀ c ∈ t.toList, isBlank c = false) ∧ Bare t.toList
  whole : (∃ c ∈ literal, isBlank c = true) →
    ∃ t, Enclosed literal t.toList ∧ e.literal = .text t
  builds : e.field ≠ "" → e.toCondition = .ok ⟨e.field, e.operator, e.literal⟩
  blank : e.field = "" → e.toCondition = .error .emptyField ∧ "input[".toList <+: text

variable {literal text field : List Char} {v : Value} {s : String} {e : Expression}

namespace LiteralText

theorem texts {t : String} (h : LiteralText literal (.text t)) : Enclosed literal t.toList ∨
    literal = t.toList ∧ t ≠ "" ∧ (∀ c ∈ t.toList, isBlank c = false) ∧ Bare t.toList := by
  cases h with
  | @quoted quote inner kind closed =>
    rw [String.toList_ofList]
    exact .inl ⟨quote, kind, closed, rfl⟩
  | word named bare whole =>
    rw [String.toList_ofList]
    exact .inr ⟨rfl, by simpa using named, whole, bare⟩

theorem enclosed (h : LiteralText literal v) (hblank : ∃ c ∈ literal, isBlank c = true) :
    ∃ t, Enclosed literal t.toList ∧ v = .text t := by
  have hprinted (hchars : ∀ c ∈ literal, isNumberChar c = true) : False := by
    obtain ⟨c, hc, hblank⟩ := hblank
    rw [Text.not_blank_of_printed (printed_of_isNumberChar (hchars c hc))] at hblank
    cases hblank
  cases h with
  | @quoted quote inner kind closed =>
    exact ⟨_, ⟨quote, kind, by rwa [String.toList_ofList], by rw [String.toList_ofList]⟩, rfl⟩
  | boolean known => exact (hprinted (numberChar_of_booleanWord known)).elim
  | number reads => exact (hprinted (numberChar_of_finiteOfText? reads)).elim
  | word _ _ whole =>
    obtain ⟨c, hc, hblank⟩ := hblank
    rw [whole c hc] at hblank
    cases hblank

end LiteralText

theorem bracket_of_blank (h : FieldText text field) (hblank : trimEnd (trimStart field) = []) :
    "input[".toList <+: text := by
  cases h with
  | name h =>
    rw [h.trimmed.trim_eq_self] at hblank
    subst hblank
    cases h
  | key => exact List.prefix_append _ _

theorem exists_parts (h : read s = .ok e) : ∃ text field rest,
    Parts s.toList text field e.operator rest ∧
      e.field = String.ofList (trimEnd (trimStart field)) ∧
      LiteralText (trimEnd (trimStart rest)) e.literal := by
  obtain ⟨lead, text, field, tail, op, v, hs, hlead, named, rfl, htail⟩ := read_iff.1 h
  rcases htail with hcompared | ⟨hcut, rfl⟩
  · cases hcompared with
    | @intro gap before literal after _ _ hgap _ hbefore reads _ hafter =>
      have hliteral : trimEnd (trimStart (before ++ (literal ++ after))) = literal :=
        Text.trim_eq_iff.2 ⟨reads.trimmed, before, after, hbefore, hafter, by simp⟩
      exact ⟨text, field, _, ⟨named, lead, gap, hlead, hgap, hs⟩, rfl, by rwa [hliteral]⟩
  · cases hcut with
    | @intro gap after long _ hgap hshorter hends =>
      have hsigns : long.symbol.toList ++ after = op.symbol.toList ++ '=' :: after := by
        cases long <;> cases hshorter <;> rfl
      have hliteral : trimEnd (trimStart ('=' :: after)) = ['='] :=
        Text.trim_eq_iff.2 ⟨⟨rfl, rfl⟩, [], after, by simp [Blanks], blanks_of_lineEnds hends, rfl⟩
      rw [hsigns] at hs
      refine ⟨text, field, _, ⟨named, lead, gap, hlead, hgap, hs⟩, rfl, ?_⟩
      rw [hliteral]
      exact literalOfText_eq_ok.1 literalOfText_sign

theorem usable_of_parts (named : FieldText text field)
    (hfield : e.field = String.ofList (trimEnd (trimStart field)))
    (reads : LiteralText literal e.literal) : Usable e text literal := by
  have htrim : Text.trim e.field = e.field := by
    rw [hfield, Text.trim, String.toList_ofList, (Text.trimmed_trim field).trim_eq_self]
  have hfault := reads.literalFault?
  constructor
  case operator => cases e.operator <;> decide
  case present =>
    intro habsent
    rw [habsent] at hfault
    cases hfault
  case finite =>
    intro x hx
    simpa [hx, Condition.literalFault?] using hfault
  case texts =>
    intro t ht
    rw [ht] at reads
    exact reads.texts
  case whole => exact reads.enclosed
  case builds =>
    intro hnamed
    have hbuilt : Condition.Built ⟨e.field, e.operator, e.literal⟩ :=
      ⟨htrim, by simpa using hnamed, hfault⟩
    simpa only [toCondition] using Condition.build_of_built hbuilt
  case blank =>
    intro hblank
    have hempty : trimEnd (trimStart field) = [] := by simpa [hfield] using hblank
    refine ⟨?_, bracket_of_blank named hempty⟩
    rw [toCondition, Condition.build, Operator.ofText?_symbol, htrim, hblank]
    rfl

theorem literalText_of_read_parts {rest : List Char} {op : Operator} (h : read s = .ok e)
    (hparts : Parts s.toList text field op rest)
    (hlongest : LongestAt op (op.symbol.toList ++ rest)) (hrest : ¬ Blanks rest) :
    LiteralText (trimEnd (trimStart rest)) e.literal := by
  obtain ⟨named, lead, gap, hlead, hgap, hs⟩ := hparts
  obtain ⟨lead', text', field', tail, op', v, hs', hlead', named', rfl, htail⟩ := read_iff.1 h
  rw [hs] at hs'
  have hends : EndsField (gap ++ (op.symbol.toList ++ rest)) := endsField_symbol hgap op rest
  rcases htail with hcompared | ⟨hcut, rfl⟩
  · obtain ⟨-, rfl⟩ := field_unique hlead hlead' named named' hends hcompared.endsField hs'
    obtain ⟨gap', rest', literal, htail, hgap', hlongest', hliteral, hv⟩ :=
      comparison_iff.1 hcompared
    obtain ⟨-, rfl⟩ := symbol_unique hgap hgap' hlongest hlongest' htail
    have reads := literalOfText_eq_ok.1 hv
    obtain ⟨htrimmed, -, before, after, hbefore, hafter, hwhole⟩ :=
      (literalText?_eq_some reads.ne_nil).1 hliteral
    have hliteral' : trimEnd (trimStart rest) = literal :=
      Text.trim_eq_iff.2 ⟨htrimmed, before, after, hbefore, hafter, by simp [hwhole]⟩
    rwa [hliteral']
  · obtain ⟨-, htail⟩ := field_unique hlead hlead' named named' hends hcut.endsField hs'
    cases hcut with
    | @intro gap' after long _ hgap' hshorter hlines =>
      have hlongest' := longestAt_of_shorter? hshorter after
      obtain ⟨-, rfl⟩ := symbol_unique hgap hgap' hlongest hlongest' htail
      exact absurd (blanks_of_lineEnds hlines) hrest

/-- Every expression that is read is usable: it makes a condition if its field is not blank. If what
is left behind the longest symbol has a blank in it and does not stand between one pair of quotes,
nothing is read. -/
theorem read_usable (s : String) :
    (∀ e, read s = .ok e → ∃ text field rest, Parts s.toList text field e.operator rest ∧
      e.field = String.ofList (trimEnd (trimStart field)) ∧
      Usable e text (trimEnd (trimStart rest))) ∧
    ∀ text field op rest, Parts s.toList text field op rest →
      LongestAt op (op.symbol.toList ++ rest) →
      (∃ c ∈ trimEnd (trimStart rest), isBlank c = true) →
      (∀ inner, ¬ Enclosed (trimEnd (trimStart rest)) inner) →
        ∃ part, read s = .error (.unparsable part) := by
  constructor
  · intro e h
    obtain ⟨text, field, rest, hparts, hfield, reads⟩ := exists_parts h
    exact ⟨text, field, rest, hparts, hfield, usable_of_parts hparts.named hfield reads⟩
  · intro text field op rest hparts hlongest hblank hopen
    have hrest : ¬ Blanks rest := by
      intro hrest
      rw [Text.trimStart_blanks hrest] at hblank
      simp [trimEnd] at hblank
    cases h : read s with
    | error reason =>
      obtain ⟨part, rfl⟩ := read_error h
      exact ⟨part, rfl⟩
    | ok e =>
      have reads := literalText_of_read_parts h hparts hlongest hrest
      obtain ⟨t, henclosed, -⟩ := reads.enclosed hblank
      exact absurd henclosed (hopen t.toList)

theorem read_usable_bounds :
    read "input[' ']==x" = .ok ⟨"", .eq, .text "x"⟩ ∧
    toCondition ⟨"", .eq, .text "x"⟩ = .error .emptyField ∧
    ∃ part, read "score >= 7 and x" = .error (.unparsable part) := by
  have hread : read "input[' ']==x" = .ok ⟨"", .eq, .text "x"⟩ := by rfl
  obtain ⟨_, _, _, -, -, husable⟩ := (read_usable "input[' ']==x").1 _ hread
  refine ⟨hread, (husable.blank rfl).1, ?_⟩
  have hname : readName "score".toList = some ("score".toList, []) := by rfl
  have hparts : Parts "score >= 7 and x".toList "score".toList "score".toList .ge
      " 7 and x".toList :=
    ⟨.name (readName_eq_some hname).1, [], [' '], by decide, by decide, by decide⟩
  refine (read_usable "score >= 7 and x").2 _ _ _ _ hparts (longestAt_iff.2 (by decide))
    ⟨' ', by decide, rfl⟩ ?_
  rintro inner ⟨quote, kind, -, hliteral⟩
  obtain rfl : '7' = quote := congrArg (List.headD · ' ') hliteral
  cases kind

end Rulebook.Expression
