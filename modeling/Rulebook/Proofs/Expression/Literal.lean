import Rulebook.Expression
import Rulebook.Proofs.Blank
import Rulebook.Proofs.Decimal.Characters
import Rulebook.Proofs.Results
/-!
The literals of expressions: text between quotes, booleans, numbers and words. A text between quotes
is taken as it is; everything else is read as the first of the others that it is.
-/

set_option autoImplicit false

namespace Rulebook.Expression

open Text (isBlank trimStart trimEnd Blanks Trimmed)

theorem printed_of_isNumberChar {c : Char} (h : isNumberChar c = true) :
    0x20 < c.toNat ∧ c.toNat < 0x85 := by
  simp only [isNumberChar, Bool.or_eq_true, decide_eq_true_eq] at h
  rcases h with ((h | rfl) | rfl) | rfl
  · exact Text.printed_of_isAlphanum h
  all_goals decide

theorem not_quote_of_isNumberChar {c : Char} (h : isNumberChar c = true) : isQuote c = false := by
  cases hq : isQuote c with
  | false => rfl
  | true =>
    simp only [isQuote, Bool.or_eq_true, decide_eq_true_eq] at hq
    rcases hq with rfl | rfl <;> cases h

theorem not_blank_of_isQuote {c : Char} (h : isQuote c = true) : isBlank c = false := by
  simp only [isQuote, Bool.or_eq_true, decide_eq_true_eq] at h
  rcases h with rfl | rfl <;> rfl

theorem numberChar_of_finiteOfText? {cs : List Char} {x : Float}
    (h : Binary64.finiteOfText? (String.ofList cs) = some x) : ∀ c ∈ cs, isNumberChar c = true := by
  have hall := Binary64.all_of_ofText? (Option.filter_eq_some_iff.1 h).1
  rw [String.toList_ofList] at hall
  exact List.all_eq_true.1 hall

structure Bare (cs : List Char) : Prop where
  front : cs.head?.any isQuote = false
  back : cs.getLast?.any isQuote = false

def booleanWords : List (String × Bool) :=
  [("true", true), ("True", true), ("false", false), ("False", false)]

/-- What a literal may be written as, and what it stands for. -/
inductive LiteralText : List Char → Value → Prop where
  | quoted {quote : Char} {inner : List Char} (kind : isQuote quote = true)
      (closed : quote ∉ inner) :
      LiteralText (quote :: (inner ++ [quote])) (.text (String.ofList inner))
  | boolean {word : String} {b : Bool} (known : (word, b) ∈ booleanWords) :
      LiteralText word.toList (.boolean b)
  | number {cs : List Char} {x : Float}
      (reads : Binary64.finiteOfText? (String.ofList cs) = some x) : LiteralText cs (.number x)
  | word {cs : List Char} (named : cs ≠ []) (bare : Bare cs)
      (whole : ∀ c ∈ cs, isBlank c = false) (noBoolean : ∀ b, (String.ofList cs, b) ∉ booleanWords)
      (noNumber : Binary64.finiteOfText? (String.ofList cs) = none) :
      LiteralText cs (.text (String.ofList cs))

theorem unquote?_eq_some {quote : Char} {cs inner : List Char} :
    unquote? quote cs = some inner ↔ cs = quote :: (inner ++ [quote]) := by
  unfold unquote?
  constructor
  · intro h
    split at h
    · rename_i hends
      obtain ⟨hlength, hfront, hback⟩ := hends
      obtain ⟨tail, rfl⟩ := List.head?_eq_some_iff.1 hfront
      rcases List.eq_nil_or_concat tail with rfl | ⟨body, last, rfl⟩
      · simp at hlength
      · rw [List.getLast?_cons] at hback
        simp_all
    · cases h
  · rintro rfl
    rw [if_pos ⟨by simp, rfl, by simp [List.getLast?_cons]⟩]
    simp

theorem unquote?_of_bare {quote : Char} (kind : isQuote quote = true) {cs : List Char}
    (h : Bare cs) : unquote? quote cs = none := by
  refine Option.eq_none_iff_forall_ne_some.2 fun inner hinner => ?_
  have hfront := h.front
  rw [unquote?_eq_some.1 hinner] at hfront
  simp [kind] at hfront

theorem literalOfText_of_bare {cs : List Char} (hne : cs ≠ []) (h : Bare cs) :
    literalOfText cs = wordLiteral cs := by
  have hempty : cs.isEmpty = false := by simpa using hne
  have hsingle : unquote? '\'' cs = none := unquote?_of_bare rfl h
  have hdouble : unquote? '"' cs = none := unquote?_of_bare rfl h
  simp [literalOfText, hempty, hsingle, hdouble, h.front, h.back]

theorem bare_of_not_quote {cs : List Char} (h : ∀ c ∈ cs, isQuote c = false) : Bare cs := by
  constructor <;> refine (Option.any_eq_false _ _).2 fun c hc => ?_
  · exact h c (List.mem_of_mem_head? hc)
  · exact h c (List.mem_of_mem_getLast? hc)

theorem bare_of_numberChar {cs : List Char} (h : ∀ c ∈ cs, isNumberChar c = true) : Bare cs :=
  bare_of_not_quote fun c hc => not_quote_of_isNumberChar (h c hc)

theorem finiteOfText?_booleanWord {word : String} {b : Bool} (h : (word, b) ∈ booleanWords) :
    Binary64.finiteOfText? word = none := by
  simp only [booleanWords, List.mem_cons, Prod.mk.injEq, List.not_mem_nil, or_false] at h
  rcases h with ⟨rfl, -⟩ | ⟨rfl, -⟩ | ⟨rfl, -⟩ | ⟨rfl, -⟩ <;> rfl

theorem numberChar_of_booleanWord {word : String} {b : Bool} (h : (word, b) ∈ booleanWords) :
    ∀ c ∈ word.toList, isNumberChar c = true := by
  have hall : ∀ e ∈ booleanWords, e.1.toList.all isNumberChar = true := by decide
  exact List.all_eq_true.1 (hall _ h)

theorem wordLiteral_of_boolean {word : String} {b : Bool} (h : (word, b) ∈ booleanWords) :
    wordLiteral word.toList = .ok (.boolean b) := by
  simp only [booleanWords, List.mem_cons, Prod.mk.injEq, List.not_mem_nil, or_false] at h
  rcases h with ⟨rfl, rfl⟩ | ⟨rfl, rfl⟩ | ⟨rfl, rfl⟩ | ⟨rfl, rfl⟩ <;> rfl

theorem wordLiteral_of_not_boolean {cs : List Char}
    (h : ∀ b, (String.ofList cs, b) ∉ booleanWords) :
    wordLiteral cs = match Binary64.finiteOfText? (String.ofList cs) with
      | some x => .ok (.number x)
      | none =>
        if cs.any isBlank then .error (.unparsable (String.ofList cs))
        else .ok (.text (String.ofList cs)) := by
  have htrue : ¬ (String.ofList cs = "true" ∨ String.ofList cs = "True") := by
    simpa only [booleanWords, List.mem_cons, Prod.mk.injEq, List.not_mem_nil, or_false, and_true,
      and_false, reduceCtorEq] using h true
  have hfalse : ¬ (String.ofList cs = "false" ∨ String.ofList cs = "False") := by
    simpa only [booleanWords, List.mem_cons, Prod.mk.injEq, List.not_mem_nil, or_false, and_true,
      and_false, reduceCtorEq, false_or] using h false
  exact (if_neg htrue).trans (if_neg hfalse)

theorem literalText_of_wordLiteral {cs : List Char} {v : Value} (hne : cs ≠ []) (hbare : Bare cs)
    (h : wordLiteral cs = .ok v) : LiteralText cs v := by
  by_cases hboolean : ∃ b, (String.ofList cs, b) ∈ booleanWords
  · obtain ⟨b, hb⟩ := hboolean
    have hv := wordLiteral_of_boolean hb
    rw [String.toList_ofList, h] at hv
    cases hv
    simpa using LiteralText.boolean hb
  · have hno := not_exists.1 hboolean
    rw [wordLiteral_of_not_boolean hno] at h
    split at h
    · rename_i hnumber
      cases h
      exact .number hnumber
    · rename_i hnumber
      split at h
      · cases h
      · rename_i hblank
        cases h
        exact .word hne hbare (by simpa using hblank) hno hnumber

theorem literalText_of_read {cs : List Char} {v : Value} (h : literalOfText cs = .ok v) :
    LiteralText cs v := by
  simp only [literalOfText] at h
  split at h
  · cases h
  · rename_i hempty
    split at h
    · rename_i inner hinner
      split at h
      · cases h
      · rename_i hclosed
        cases h
        rw [unquote?_eq_some.1 hinner]
        exact .quoted rfl (by simpa using hclosed)
    · split at h
      · rename_i inner hinner
        split at h
        · cases h
        · rename_i hclosed
          cases h
          rw [unquote?_eq_some.1 hinner]
          exact .quoted rfl (by simpa using hclosed)
      · split at h
        · cases h
        · rename_i hquotes
          obtain ⟨hfront, hback⟩ := Bool.or_eq_false_iff.1 (Bool.not_eq_true _ ▸ hquotes)
          exact literalText_of_wordLiteral (by simpa using hempty) ⟨hfront, hback⟩ h

theorem literalOfText_quoted {quote : Char} {inner : List Char} (kind : isQuote quote = true)
    (closed : quote ∉ inner) :
    literalOfText (quote :: (inner ++ [quote])) = .ok (.text (String.ofList inner)) := by
  have hinner : unquote? quote (quote :: (inner ++ [quote])) = some inner :=
    unquote?_eq_some.2 rfl
  simp only [isQuote, Bool.or_eq_true, decide_eq_true_eq] at kind
  rcases kind with rfl | rfl
  · simp [literalOfText, hinner, closed]
  · have hsingle : unquote? '\'' ('"' :: (inner ++ ['"'])) = none := by simp [unquote?]
    simp [literalOfText, hsingle, hinner, closed]

theorem literalOfText_of_literalText {cs : List Char} {v : Value} (h : LiteralText cs v) :
    literalOfText cs = .ok v := by
  cases h with
  | quoted kind closed => exact literalOfText_quoted kind closed
  | @boolean word b known =>
    have hne : word.toList ≠ [] := by
      intro hnil
      rw [String.toList_eq_nil_iff.1 hnil] at known
      exact absurd known (by cases b <;> decide)
    rw [literalOfText_of_bare hne (bare_of_numberChar (numberChar_of_booleanWord known)),
      wordLiteral_of_boolean known]
  | @number cs x reads =>
    have hbare := bare_of_numberChar (numberChar_of_finiteOfText? reads)
    have hne : cs ≠ [] := by
      rintro rfl
      cases reads
    have hno : ∀ b, (String.ofList cs, b) ∉ booleanWords := fun b hb => by
      rw [finiteOfText?_booleanWord hb] at reads
      cases reads
    rw [literalOfText_of_bare hne hbare, wordLiteral_of_not_boolean hno, reads]
  | word named bare whole noBoolean noNumber =>
    rw [literalOfText_of_bare named bare, wordLiteral_of_not_boolean noBoolean, noNumber]
    simpa using whole

/-- A literal is read as what it stands for, and nothing else is a literal. -/
theorem literalOfText_eq_ok {cs : List Char} {v : Value} :
    literalOfText cs = .ok v ↔ LiteralText cs v :=
  ⟨literalText_of_read, literalOfText_of_literalText⟩

theorem wordLiteral_error {cs : List Char} {reason : ConditionError}
    (h : wordLiteral cs = .error reason) : reason = .unparsable (String.ofList cs) := by
  simp only [wordLiteral] at h
  split at h
  · cases h
  split at h
  · cases h
  split at h
  · cases h
  split at h
  · exact (Except.error.inj h).symm
  · cases h

theorem literalOfText_error {cs : List Char} {reason : ConditionError}
    (h : literalOfText cs = .error reason) : reason = .unparsable (String.ofList cs) := by
  simp only [literalOfText] at h
  split at h
  · exact (Except.error.inj h).symm
  split at h
  · split at h
    · exact (Except.error.inj h).symm
    · cases h
  split at h
  · split at h
    · exact (Except.error.inj h).symm
    · cases h
  split at h
  · exact (Except.error.inj h).symm
  · exact wordLiteral_error h

theorem LiteralText.ne_nil {cs : List Char} {v : Value} (h : LiteralText cs v) : cs ≠ [] := by
  rintro rfl
  cases literalOfText_of_literalText h

theorem LiteralText.literalFault? {cs : List Char} {v : Value} (h : LiteralText cs v) :
    Condition.literalFault? v = none := by
  cases h with
  | number reads => simp [Condition.literalFault?, (Option.filter_eq_some_iff.1 reads).2]
  | quoted | boolean | word => rfl

theorem trimmed_of_numberChar {cs : List Char} (h : ∀ c ∈ cs, isNumberChar c = true) :
    Trimmed cs :=
  Text.trimmed_of_not_blank fun c hc => Text.not_blank_of_printed (printed_of_isNumberChar (h c hc))

theorem LiteralText.trimmed {cs : List Char} {v : Value} (h : LiteralText cs v) : Trimmed cs := by
  cases h with
  | quoted kind _ =>
    have hblank := not_blank_of_isQuote kind
    exact ⟨hblank, by simp [List.getLast?_cons, hblank]⟩
  | boolean known => exact trimmed_of_numberChar (numberChar_of_booleanWord known)
  | number reads => exact trimmed_of_numberChar (numberChar_of_finiteOfText? reads)
  | word named bare whole _ _ => exact Text.trimmed_of_not_blank whole

theorem literalOfText_sign : literalOfText ['='] = .ok (.text "=") := by rfl

theorem literalText?_of_trim {cs text : List Char} (h : trimEnd (trimStart cs) = text)
    (hne : text ≠ []) : literalText? cs = if text.contains '\n' then none else some text := by
  unfold literalText?
  rw [h]
  cases text with
  | nil => exact absurd rfl hne
  | cons c text => rfl

theorem literalText?_blanks {cs : List Char} (h : Blanks cs) :
    literalText? cs = if cs.any (· != '\n') then some [] else none := by
  unfold literalText?
  rw [Text.trimStart_blanks h]
  rfl

theorem literalText?_eq_some {cs text : List Char} (hne : text ≠ []) :
    literalText? cs = some text ↔
      Trimmed text ∧ '\n' ∉ text ∧
        ∃ before after, Blanks before ∧ Blanks after ∧ cs = before ++ (text ++ after) := by
  have hiff := @Text.trim_eq_iff cs text
  simp only [List.append_assoc] at hiff
  constructor
  · intro h
    have htrim : trimEnd (trimStart cs) = text := by
      unfold literalText? at h
      split at h
      · split at h
        · cases h
          exact absurd rfl hne
        · cases h
      · split at h
        · cases h
        · simpa using h
    obtain ⟨htrimmed, hparts⟩ := hiff.1 htrim
    rw [literalText?_of_trim htrim hne] at h
    exact ⟨htrimmed, by simpa using h, hparts⟩
  · rintro ⟨htrimmed, hline, hparts⟩
    rw [literalText?_of_trim (hiff.2 ⟨htrimmed, hparts⟩) hne]
    simpa using hline

theorem blanks_of_lineEnds {cs : List Char} (h : ∀ c ∈ cs, c = '\n') : Blanks cs :=
  fun c hc => by rw [h c hc]; rfl

theorem trim_sign {cs : List Char} (h : ¬ Blanks cs) :
    trimEnd (trimStart cs) ≠ [] ∧ ∃ before,
      trimEnd (trimStart ('=' :: cs)) = '=' :: (before ++ trimEnd (trimStart cs)) := by
  obtain ⟨htrimmed, before, after, hbefore, hafter, hcs⟩ :=
    Text.trim_eq_iff.1 (Eq.refl (trimEnd (trimStart cs)))
  generalize trimEnd (trimStart cs) = text at htrimmed hcs ⊢
  have hne : text ≠ [] := by
    rintro rfl
    refine h fun c hc => ?_
    rw [hcs, List.append_nil] at hc
    exact (List.mem_append.1 hc).elim (hbefore c) (hafter c)
  obtain ⟨start, last, rfl⟩ := List.eq_nil_or_concat text |>.resolve_left hne
  refine ⟨hne, before, Text.trim_eq_iff.2 ⟨⟨rfl, ?_⟩, [], after, by simp [Blanks], hafter,
    by simp [hcs]⟩⟩
  simpa [List.getLast?_cons, List.getLast?_append] using htrimmed.back

theorem literalText?_sign {cs text : List Char} :
    literalText? cs = none ∧ literalText? ('=' :: cs) = some text ↔
      (∀ c ∈ cs, c = '\n') ∧ text = ['='] := by
  by_cases hblanks : Blanks cs
  · have htrim : trimEnd (trimStart ('=' :: cs)) = ['='] :=
      Text.trim_eq_iff.2 ⟨⟨rfl, rfl⟩, [], cs, by simp [Blanks], hblanks, rfl⟩
    rw [literalText?_blanks hblanks, literalText?_of_trim htrim (by simp)]
    simp [@eq_comm _ ['=']]
  · obtain ⟨hne, before, hsign⟩ := trim_sign hblanks
    rw [literalText?_of_trim rfl hne, literalText?_of_trim hsign (by simp)]
    have hends : ¬ ∀ c ∈ cs, c = '\n' := fun h => hblanks (blanks_of_lineEnds h)
    by_cases hline : '\n' ∈ trimEnd (trimStart cs) <;> simp [hline, hends]

end Rulebook.Expression
