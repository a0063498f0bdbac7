import Rulebook.Proofs.Comparison
import Rulebook.Proofs.Expression.Literal
/-!
Quotes around a literal. What is written without quotes is read as a number or a boolean at once; as
a text it is read only when a field asks for one. Main statement: both readings agree, so that only
a field that holds a text can tell a literal from the same literal in quotes.
-/

set_option autoImplicit false

namespace Rulebook

namespace Binary64

theorem ofText?_of_booleanLetters {s : String} {b : Bool}
    (h : s.toList.map Char.toLower = Json.boolChars b) : ofText? s = none := by
  cases hcs : s.toList with
  | nil =>
    rw [hcs] at h
    cases b <;> cases h
  | cons c cs =>
    rw [hcs] at h
    have hletters : (Json.boolChars b).all Char.isAlpha = true := by cases b <;> rfl
    have hletter : c.isAlpha = true :=
      isAlpha_of_toLower (List.all_eq_true.1 hletters _ (h ▸ List.mem_cons_self))
    have hword : specialWord? false (c :: cs) = none := by
      simp only [specialWord?, h]
      cases b <;> rfl
    simp only [ofText?, hcs, Numeral.readSign_of_isAlpha hletter, hword,
      Numeral.ofChars?_of_isAlpha hletter, Option.map_none]

end Binary64

namespace Comparison

theorem evaluate_of_denotes {field : Option Value} {literal literal' : Value}
    (hl : literal.isAbsent = false) (hfield : ∀ s, field ≠ some (.text s))
    (h : ∀ u, u.kind = .number ∨ u.kind = .boolean → Denotes literal u → Denotes literal' u)
    {op : Operator} {b : Bool} (hanswer : evaluate field op literal = .ofBool b) :
    evaluate field op literal' = .ofBool b := by
  obtain ⟨p, hp⟩ := exists_pairs field hl
  rw [evaluate_of_pairs hp] at hanswer
  cases hp with
  | @obstructed _ _ o => exact absurd hanswer.symm (Verdict.ofBool_ne_indeterminate b o)
  | numbers denotes inOrder =>
    rw [← hanswer]
    exact evaluate_of_pairs (.numbers (h _ (.inl rfl) denotes) inOrder) op
  | texts => exact absurd rfl (hfield _)
  | booleans denotes =>
    rw [← hanswer]
    exact evaluate_of_pairs (.booleans (h _ (.inr rfl) denotes)) op

end Comparison

namespace Expression

open Rulebook.Comparison (Denotes evaluate)

theorem denotes_trim {s : String} {u : Value} (hu : u.kind = .number ∨ u.kind = .boolean) :
    Denotes (.text (Text.trim s)) u ↔ Denotes (.text s) u := by
  cases u with
  | number x =>
    rw [← Comparison.readNumber?_eq_some, ← Comparison.readNumber?_eq_some,
      Comparison.readNumber?, Text.trim_trim]
    rfl
  | boolean b =>
    rw [← Comparison.readBoolean?_eq_some, ← Comparison.readBoolean?_eq_some,
      Comparison.readBoolean?, Text.trim_trim]
    rfl
  | text | absent => simp [Value.kind] at hu

/-- A word that is a boolean at once is no other number or boolean as a text. -/
theorem denotes_booleanWord {w : String} {b : Bool} (h : (Text.trim w, b) ∈ booleanWords)
    (u : Value) (hu : u.kind = .number ∨ u.kind = .boolean) :
    Denotes (.boolean b) u ↔ Denotes (.text w) u := by
  have hletters : (Text.trim w).toList.map Char.toLower = Json.boolChars b := by
    have hall : ∀ e ∈ booleanWords, e.1.toList.map Char.toLower = Json.boolChars e.2 := by decide
    exact hall (Text.trim w, b) h
  constructor
  · intro hd
    cases hd with
    | itself => exact .boolean hletters
  · intro hd
    cases hd with
    | itself => simp [Value.kind] at hu
    | number reads _ =>
      rw [Binary64.ofText?_of_booleanLetters hletters] at reads
      cases reads
    | @boolean _ c reads =>
      rw [hletters] at reads
      obtain rfl : b = c := by cases b <;> cases c <;> first | rfl | cases reads
      exact .itself _

theorem denotes_number {w : String} {x : Float}
    (h : Binary64.finiteOfText? (Text.trim w) = some x) (u : Value)
    (hu : u.kind = .number ∨ u.kind = .boolean) :
    Denotes (.number x) u ↔ Denotes (.text w) u := by
  obtain ⟨reads, finite⟩ := Option.filter_eq_some_iff.1 h
  constructor
  · intro hd
    cases hd with
    | itself => exact .number reads finite
  · intro hd
    cases hd with
    | itself => simp [Value.kind] at hu
    | number reads' _ =>
      rw [reads] at reads'
      cases reads'
      exact .itself _
    | boolean letters =>
      rw [Binary64.ofText?_of_booleanLetters letters] at reads
      cases reads

theorem denotes_unquoted {w : String} {v : Value} (h : literalOfText (Text.trim w).toList = .ok v)
    (unquoted : (Text.trim w).toList.head?.any isQuote = false) (u : Value)
    (hu : u.kind = .number ∨ u.kind = .boolean) : Denotes v u ↔ Denotes (.text w) u := by
  generalize hcs : (Text.trim w).toList = cs at h unquoted
  obtain hw : String.ofList cs = Text.trim w := by rw [← hcs, String.ofList_toList]
  cases literalOfText_eq_ok.1 h with
  | quoted kind _ => simp [kind] at unquoted
  | @boolean word b known =>
    rw [String.ofList_toList] at hw
    exact denotes_booleanWord (hw ▸ known) u hu
  | number reads => exact denotes_number (hw ▸ reads) u hu
  | word =>
    rw [hw]
    exact denotes_trim hu

theorem LiteralText.isAbsent {cs : List Char} {v : Value} (h : LiteralText cs v) :
    v.isAbsent = false := by
  cases h <;> rfl

/-- A literal written without quotes stands for the same numbers and booleans as its text does, so
that a field that holds no text answers both alike. -/
theorem unquoted_answers_as_text {w : String} {v : Value}
    (accepted : literalOfText (Text.trim w).toList = .ok v)
    (unquoted : (Text.trim w).toList.head?.any isQuote = false) :
    (∀ u, u.kind = .number ∨ u.kind = .boolean → (Denotes v u ↔ Denotes (.text w) u)) ∧
    ∀ (field : Option Value) (op : Operator) (b : Bool), (∀ s, field ≠ some (.text s)) →
      (evaluate field op v = .ofBool b ↔ evaluate field op (.text w) = .ofBool b) := by
  have hdenotes := denotes_unquoted accepted unquoted
  refine ⟨hdenotes, fun field op b hfield => ⟨?_, ?_⟩⟩
  · exact Comparison.evaluate_of_denotes (literalOfText_eq_ok.1 accepted).isAbsent hfield
      fun u hu => (hdenotes u hu).1
  · exact Comparison.evaluate_of_denotes rfl hfield fun u hu => (hdenotes u hu).2

theorem unquoted_answers_as_text_exponent :
    literalOfText (Text.trim " +1e3\t").toList = .ok (.number (Binary64.ofInt 1000)) ∧
    (Text.trim " +1e3\t").toList.head?.any isQuote = false ∧
    evaluate (some (.number (Binary64.ofInt 999))) .lt (.text " +1e3\t") = .satisfied ∧
    evaluate (some (.boolean true)) .ne (.text " +1e3\t") ≠ .satisfied := by
  have accepted : literalOfText (Text.trim " +1e3\t").toList =
      .ok (.number (Binary64.ofInt 1000)) := rfl
  have halike := (unquoted_answers_as_text accepted rfl).2
  refine ⟨accepted, rfl, (halike _ _ true (by simp)).1 ?_, fun h => ?_⟩
  · decide +kernel
  · cases (halike _ _ true (by simp)).2 h

end Expression

end Rulebook
