import Rulebook.Proofs.Expression.Literal
/-!
Fields of expressions: names, and keys between quotes in brackets. A field is read up to where it
ends, and in one way only.
-/

set_option autoImplicit false

namespace Rulebook.Expression

open Text (isBlank trimStart trimEnd Blanks)

inductive IsName : List Char → Prop where
  | intro {c : Char} {cs : List Char} (start : isNameStart c = true)
      (later : ∀ x ∈ cs, isNameRest x = true) : IsName (c :: cs)

/-- How a field is written, and what it names. -/
inductive FieldText : List Char → List Char → Prop where
  | name {name : List Char} (h : IsName name) : FieldText name name
  | key {opening closing : Char} {key before after : List Char} (opens : isQuote opening = true)
      (closes : isQuote closing = true) (named : key ≠ []) (plain : ∀ c ∈ key, isQuote c = false)
      (blanksBefore : Blanks before) (blanksAfter : Blanks after) :
      FieldText ("input[".toList ++
        (before ++ opening :: (key ++ closing :: (after ++ [']'])))) key

def EndsField (cs : List Char) : Prop := ∀ c ∈ cs.head?, isNameRest c = false ∧ c ≠ '['

theorem printed_of_isNameRest {c : Char} (h : isNameRest c = true) :
    0x20 < c.toNat ∧ c.toNat < 0x85 := by
  simp only [isNameRest, Bool.or_eq_true, decide_eq_true_eq] at h
  rcases h with (h | rfl) | rfl
  · exact Text.printed_of_isAlphanum h
  all_goals decide

theorem endsField_of_blank {c : Char} (h : isBlank c = true) (cs : List Char) :
    EndsField (c :: cs) := by
  rintro d ⟨⟩
  constructor
  · cases hr : isNameRest c with
    | false => rfl
    | true => simp [Text.not_blank_of_printed (printed_of_isNameRest hr)] at h
  · rintro rfl
    cases h

theorem isNameRest_of_isNameStart {c : Char} (h : isNameStart c = true) : isNameRest c = true := by
  simp only [isNameStart, Bool.or_eq_true, decide_eq_true_eq] at h
  rcases h with h | rfl
  · simp [isNameRest, Char.isAlphanum, h]
  · rfl

theorem IsName.isNameRest {name : List Char} (h : IsName name) :
    ∀ c ∈ name, isNameRest c = true := by
  cases h with
  | intro start later =>
    exact List.forall_mem_cons.2 ⟨isNameRest_of_isNameStart start, later⟩

theorem takeWhile_stop {p : Char → Bool} {cs rest : List Char} (h : ∀ c ∈ cs, p c = true)
    (hrest : ∀ c ∈ rest.head?, p c = false) :
    (cs ++ rest).takeWhile p = cs ∧ (cs ++ rest).dropWhile p = rest := by
  rw [List.takeWhile_append_of_pos h, List.dropWhile_append_of_pos h]
  cases rest with
  | nil => simp
  | cons c rest => simp [hrest c rfl]

theorem readName_append {name rest : List Char} (h : IsName name)
    (hrest : ∀ c ∈ rest.head?, isNameRest c = false) :
    readName (name ++ rest) = some (name, rest) := by
  cases h with
  | @intro c cs start later =>
    obtain ⟨htake, hdrop⟩ := takeWhile_stop later hrest
    simp [readName, start, htake, hdrop]

theorem readName_eq_some {cs field rest : List Char} (h : readName cs = some (field, rest)) :
    IsName field ∧ cs = field ++ rest := by
  unfold readName at h
  split at h
  · split at h
    · rename_i start
      cases h
      exact ⟨.intro start (List.all_eq_true.1 List.all_takeWhile),
        by rw [List.cons_append, List.takeWhile_append_dropWhile]⟩
    · cases h
  · cases h

theorem trimStart_quote {before : List Char} (h : Blanks before) {c : Char}
    (hc : isBlank c = false) (cs : List Char) : trimStart (before ++ c :: cs) = c :: cs := by
  rw [Text.trimStart_append h, Text.trimStart_cons hc]

theorem readKey_append {opening closing : Char} {key before after : List Char}
    (opens : isQuote opening = true) (closes : isQuote closing = true) (named : key ≠ [])
    (plain : ∀ c ∈ key, isQuote c = false) (blanksBefore : Blanks before)
    (blanksAfter : Blanks after) (rest : List Char) :
    readKey (before ++ opening :: (key ++ closing :: (after ++ ']' :: rest))) =
      some (key, rest) := by
  have hplain : ∀ c ∈ key, (!isQuote c) = true := by simpa using plain
  have hstop : ∀ c ∈ (closing :: (after ++ ']' :: rest)).head?, (!isQuote c) = false := by
    simp [closes]
  obtain ⟨htake, hdrop⟩ := takeWhile_stop hplain hstop
  unfold readKey
  rw [trimStart_quote blanksBefore (not_blank_of_isQuote opens)]
  simp only [opens, if_true, htake, hdrop]
  rw [trimStart_quote blanksAfter rfl]
  cases key with
  | nil => exact absurd rfl named
  | cons c key => rfl

theorem readKey_eq_some {cs key rest : List Char} (h : readKey cs = some (key, rest)) :
    ∃ opening closing before after, isQuote opening = true ∧ isQuote closing = true ∧ key ≠ [] ∧
      (∀ c ∈ key, isQuote c = false) ∧ Blanks before ∧ Blanks after ∧
      cs = before ++ opening :: (key ++ closing :: (after ++ ']' :: rest)) := by
  obtain ⟨before, hbefore, hcs⟩ := Text.exists_lead cs
  unfold readKey at h
  split at h
  · rename_i opening body hopening
    split at h
    · rename_i opens
      split at h
      · cases h
      · rename_i closing behind hclosing hkey
        split at h
        · rename_i later hlater
          cases h
          obtain ⟨after, hafter, hbehind⟩ := Text.exists_lead behind
          have closes := List.head?_dropWhile_not (!isQuote ·) body
          rw [hclosing] at closes
          refine ⟨opening, closing, before, after, opens, by simpa using closes, hkey, ?_, hbefore,
            hafter, ?_⟩
          · simpa using List.all_eq_true.1 (List.all_takeWhile (p := (!isQuote ·)) (l := body))
          · rw [← hlater, ← hbehind, ← hclosing, List.takeWhile_append_dropWhile, ← hopening, ← hcs]
        · cases h
      · cases h
    · cases h
  · cases h

theorem readField_name {name rest : List Char} (h : IsName name) (hrest : EndsField rest) :
    readField (name ++ rest) = some (name, rest) := by
  have hread : readName (name ++ rest) = some (name, rest) :=
    readName_append h fun c hc => (hrest c hc).1
  unfold readField
  split
  · rename_i later hinput
    have hsplit : name ++ rest = "input".toList ++ '[' :: later := hinput
    -- Either the name is part of `input`, or it goes on into the bracket.
    have hinputRest : "input".toList.all isNameRest = true := by decide
    rcases List.append_eq_append_iff.1 hsplit with ⟨extra, hextra, hrest'⟩ | ⟨extra, hextra, hlater⟩
    · cases extra with
      | nil => exact absurd rfl (hrest '[' (by simp [hrest'])).2
      | cons c extra =>
        have hc := List.all_eq_true.1 hinputRest c (by simp [hextra])
        rw [(hrest c (by simp [hrest'])).1] at hc
        cases hc
    · cases extra with
      | nil =>
        obtain rfl : '[' :: later = rest := hlater
        exact absurd rfl (hrest '[' rfl).2
      | cons c extra =>
        obtain ⟨rfl, -⟩ := List.cons.inj hlater
        have hc := h.isNameRest '[' (by simp [hextra])
        cases hc
  · exact hread

theorem readField_append {text field rest : List Char} (h : FieldText text field)
    (hrest : EndsField rest) : readField (text ++ rest) = some (field, rest) := by
  cases h with
  | name h => exact readField_name h hrest
  | @key opening closing _ before after opens closes named plain blanksBefore blanksAfter =>
    have hread := readKey_append opens closes named plain blanksBefore blanksAfter rest
    simpa [readField, List.append_assoc] using hread

theorem readField_eq_some {cs field rest : List Char} (h : readField cs = some (field, rest)) :
    ∃ text, FieldText text field ∧ cs = text ++ rest := by
  unfold readField at h
  split at h
  · obtain ⟨opening, closing, before, after, opens, closes, named, plain, hbefore, hafter, rfl⟩ :=
      readKey_eq_some h
    exact ⟨_, .key opens closes named plain hbefore hafter, by simp [List.append_assoc]⟩
  · obtain ⟨hname, rfl⟩ := readName_eq_some h
    exact ⟨field, .name hname, rfl⟩

theorem trimStart_field {lead text field : List Char} (h : Blanks lead)
    (named : FieldText text field) (tail : List Char) :
    trimStart (lead ++ (text ++ tail)) = text ++ tail := by
  rw [Text.trimStart_append h]
  cases named with
  | name h =>
    cases h with
    | intro start _ =>
      exact Text.trimStart_cons (Text.not_blank_of_printed
        (printed_of_isNameRest (isNameRest_of_isNameStart start)))
  | key _ _ _ _ _ _ => exact Text.trimStart_cons rfl

theorem field_unique {lead lead' text text' field field' tail tail' : List Char}
    (hlead : Blanks lead) (hlead' : Blanks lead') (htext : FieldText text field)
    (htext' : FieldText text' field') (htail : EndsField tail) (htail' : EndsField tail')
    (h : lead ++ (text ++ tail) = lead' ++ (text' ++ tail')) : text = text' ∧ tail = tail' := by
  have hrest : text ++ tail = text' ++ tail' := by
    rw [← trimStart_field hlead htext tail, h, trimStart_field hlead' htext']
  have hread := readField_append htext htail
  rw [hrest, readField_append htext' htail'] at hread
  obtain rfl : tail' = tail := congrArg Prod.snd (Option.some.inj hread)
  exact ⟨List.append_cancel_right hrest, rfl⟩

end Rulebook.Expression
