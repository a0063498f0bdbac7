import Rulebook.Proofs.Json.Number
import Rulebook.Proofs.Json.Text
/-!
A document that fits, in any spacing, is read back. Fitting means that every part has a value and
no more containers are open at once than may be.
-/

set_option autoImplicit false

namespace Rulebook.Json

/-- Documents that survive being written, with room for so many open containers. -/
inductive Fits : Nat → Json → Prop where
  | null {room : Nat} : Fits room .null
  | bool {room : Nat} (b : Bool) : Fits room (.bool b)
  | integer {room : Nat} {n : Int} (least_le : -0x8000000000000000 ≤ n)
      (lt_limit : n < 0x10000000000000000) : Fits room (.number (.integer n))
  | real {room : Nat} {x : Float} (finite : x.isFinite = true) : Fits room (.number (.real x))
  | text {room : Nat} (s : String) : Fits room (.text s)
  | list {room : Nat} {items : List Json} (fit : ∀ j ∈ items, Fits room j) :
      Fits (room + 1) (.list items)
  | fields {room : Nat} {entries : List (String × Json)} (fit : ∀ e ∈ entries, Fits room e.2) :
      Fits (room + 1) (.fields entries)

theorem itemValues?_of_items {js : List Json} (h : ∀ j ∈ js, ∃ v, j.value? = some v) :
    ∃ vs, itemValues? js = some vs := by
  induction js with
  | nil => exact ⟨_, rfl⟩
  | cons j js ih =>
    obtain ⟨⟨v, hv⟩, hjs⟩ := List.forall_mem_cons.1 h
    obtain ⟨vs, hvs⟩ := ih hjs
    exact ⟨v :: vs, by simp [itemValues?, hv, hvs]⟩

theorem fieldValues?_of_fields {es : List (String × Json)}
    (h : ∀ e ∈ es, ∃ v, e.2.value? = some v) : ∃ vs, fieldValues? es = some vs := by
  induction es with
  | nil => exact ⟨_, rfl⟩
  | cons e es ih =>
    obtain ⟨⟨v, hv⟩, hes⟩ := List.forall_mem_cons.1 h
    obtain ⟨later, hlater⟩ := ih hes
    simp [fieldValues?, hv, hlater]

theorem value?_of_fits {room : Nat} {j : Json} (h : Fits room j) : ∃ v, j.value? = some v := by
  induction h with
  | null => exact ⟨_, rfl⟩
  | bool => exact ⟨_, rfl⟩
  | integer => exact ⟨_, rfl⟩
  | real => exact ⟨_, rfl⟩
  | text => exact ⟨_, rfl⟩
  | list _ ih =>
    obtain ⟨vs, hvs⟩ := itemValues?_of_items ih
    exact ⟨.list vs, by simp [value?, hvs]⟩
  | fields _ ih =>
    obtain ⟨vs, hvs⟩ := fieldValues?_of_fields ih
    exact ⟨.fields vs, by simp [value?, hvs]⟩

structure Spacing.Blank (sp : Spacing) : Prop where
  line : ∀ level, (sp.line level).all isSpace = true
  colon : sp.colon.all isSpace = true

theorem Spacing.tight_blank : tight.Blank := ⟨fun _ => rfl, rfl⟩

theorem Spacing.lines_blank : lines.Blank := ⟨fun level => by simp [lines, isSpace], rfl⟩

theorem skipSpace_append {blanks cs : List Char} (h : blanks.all isSpace = true) :
    skipSpace (blanks ++ cs) = skipSpace cs :=
  List.dropWhile_append_of_pos (by simpa using h)

theorem skipSpace_cons {c : Char} {cs : List Char} (h : isSpace c = false) :
    skipSpace (c :: cs) = c :: cs := by
  simp [skipSpace, h]

theorem endsNumber_append {blanks cs : List Char} (h : blanks.all isSpace = true)
    (hc : endsNumber cs = true) : endsNumber (blanks ++ cs) = true := by
  cases blanks with
  | nil => exact hc
  | cons b bs =>
    have hb : isSpace b = true := by simp_all
    simp only [isSpace, Bool.or_eq_true, decide_eq_true_eq] at hb
    rcases hb with ((rfl | rfl) | rfl) | rfl <;> rfl

theorem head_of_readNumber {cs rest : List Char} {j : Json} (h : readNumber cs = some (j, rest)) :
    ∃ c tail, cs = c :: tail ∧ (c = '-' ∨ c.isDigit = true) := by
  cases cs with
  | nil => cases h
  | cons c tail =>
    refine ⟨c, tail, rfl, Classical.byContradiction fun hc => ?_⟩
    obtain ⟨hm, hd⟩ := not_or.1 hc
    have hminus : readMinus (c :: tail) = (false, c :: tail) := readMinus_sign false hm
    simp [readNumber, hminus, Numeral.readDigits, hd] at h

theorem readValue_of_readNumber {cs rest : List Char} {j : Json}
    (h : readNumber cs = some (j, rest)) (fuel room : Nat) :
    readValue (fuel + 1) room cs = some (j, rest) := by
  obtain ⟨c, tail, rfl, hc⟩ := head_of_readNumber h
  have hs : skipSpace (c :: tail) = c :: tail := by
    refine skipSpace_cons (Bool.eq_false_iff.2 fun hb => ?_)
    simp only [isSpace, Bool.or_eq_true, decide_eq_true_eq] at hb
    rcases hb with ((rfl | rfl) | rfl) | rfl <;> simp at hc
  rw [readValue, hs]
  split <;> simp_all

theorem readValue_append {blanks : List Char} (h : blanks.all isSpace = true) (fuel room : Nat)
    (cs : List Char) : readValue fuel room (blanks ++ cs) = readValue fuel room cs := by
  cases fuel with
  | zero => simp only [readValue]
  | succ fuel => rw [readValue, readValue, skipSpace_append h]

theorem readItems_append {blanks : List Char} (h : blanks.all isSpace = true) (fuel room : Nat)
    (cs : List Char) : readItems fuel room (blanks ++ cs) = readItems fuel room cs := by
  cases fuel with
  | zero => simp only [readItems]
  | succ fuel => rw [readItems, readItems, readValue_append h]

theorem readFields_append {blanks : List Char} (h : blanks.all isSpace = true) (fuel room : Nat)
    (cs : List Char) : readFields fuel room (blanks ++ cs) = readFields fuel room cs := by
  cases fuel with
  | zero => simp only [readFields]
  | succ fuel => rw [readFields, readFields, skipSpace_append h]

/-- A document is read back from what is written of it, in front of anything that does not make a
number longer. -/
def ReadBack (sp : Spacing) (room : Nat) (j : Json) : Prop :=
  ∀ (level fuel : Nat) (tail : List Char), endsNumber tail = true →
    2 * (chars sp level j).length ≤ fuel + 1 →
    readValue (fuel + 1) room (chars sp level j ++ tail) = some (j, tail)

section

variable {sp : Spacing} (hsp : sp.Blank)

include hsp

theorem endsNumber_itemChars (level : Nat) (items : List Json) (tail : List Char) :
    endsNumber (itemChars sp level items ++ tail) = true := by
  cases items with
  | nil =>
    rw [itemChars, List.append_assoc]
    exact endsNumber_append (hsp.line level) rfl
  | cons j js => rfl

theorem endsNumber_fieldChars (level : Nat) (entries : List (String × Json)) (tail : List Char) :
    endsNumber (fieldChars sp level entries ++ tail) = true := by
  cases entries with
  | nil =>
    rw [fieldChars, List.append_assoc]
    exact endsNumber_append (hsp.line level) rfl
  | cons e es => rfl

theorem readItems_chars {room : Nat} {j : Json} {js : List Json}
    (h : ∀ i ∈ j :: js, ReadBack sp room i) (level fuel : Nat) (tail : List Char)
    (hf : 2 * ((chars sp (level + 1) j).length + (itemChars sp level js).length) < fuel) :
    readItems fuel room (chars sp (level + 1) j ++ (itemChars sp level js ++ tail)) =
      some (j :: js, tail) := by
  obtain ⟨fuel, rfl⟩ : ∃ k, fuel = k + 1 := ⟨fuel - 1, by omega⟩
  induction js generalizing j fuel with
  | nil =>
    have hj : ReadBack sp room j := h j List.mem_cons_self
    simp only [itemChars, List.length_append, List.length_cons] at hf
    obtain ⟨fuel, rfl⟩ : ∃ k, fuel = k + 1 := ⟨fuel - 1, by omega⟩
    rw [readItems, hj _ _ _ (endsNumber_itemChars hsp level [] tail) (by omega)]
    simp only [itemChars, List.append_assoc, skipSpace_append (hsp.line level)]
    rfl
  | cons i is ih =>
    obtain ⟨hj, hjs⟩ := List.forall_mem_cons.1 h
    simp only [itemChars, List.length_cons, List.length_append] at hf
    obtain ⟨fuel, rfl⟩ : ∃ k, fuel = k + 1 := ⟨fuel - 1, by omega⟩
    have hrest := ih hjs fuel (by omega)
    rw [readItems, hj _ _ _ (endsNumber_itemChars hsp level (i :: is) tail) (by omega)]
    simp only [itemChars, List.cons_append, List.append_assoc, skipSpace_cons (c := ',') rfl]
    rw [readItems_append (hsp.line _), hrest]
    rfl

theorem readFields_chars {room : Nat} {key : String} {j : Json} {es : List (String × Json)}
    (h : ∀ e ∈ (key, j) :: es, ReadBack sp room e.2) (level fuel : Nat) (tail : List Char)
    (hf : 2 * ((chars sp (level + 1) j).length + (fieldChars sp level es).length) < fuel) :
    readFields fuel room (textChars key ++ ':' :: (sp.colon ++ (chars sp (level + 1) j ++
      (fieldChars sp level es ++ tail)))) = some (some ((key, j) :: es), tail) := by
  obtain ⟨fuel, rfl⟩ : ∃ k, fuel = k + 1 := ⟨fuel - 1, by omega⟩
  induction es generalizing key j fuel with
  | nil =>
    obtain ⟨cs, hcs, hread⟩ := readText_textChars key (':' :: (sp.colon ++
      (chars sp (level + 1) j ++ (fieldChars sp level [] ++ tail))))
    rw [readFields, hcs, skipSpace_cons rfl]
    simp only [hread, skipSpace_cons (c := ':') rfl, readValue_append hsp.colon]
    have hj : ReadBack sp room j := h (key, j) List.mem_cons_self
    simp only [fieldChars, List.length_append, List.length_cons] at hf
    obtain ⟨fuel, rfl⟩ : ∃ k, fuel = k + 1 := ⟨fuel - 1, by omega⟩
    rw [hj _ _ _ (endsNumber_fieldChars hsp level [] tail) (by omega)]
    simp only [fieldChars, List.append_assoc, skipSpace_append (hsp.line level)]
    rfl
  | cons e es ih =>
    obtain ⟨key', j'⟩ := e
    have hj : ReadBack sp room j := h (key, j) List.mem_cons_self
    have hes : ∀ e ∈ (key', j') :: es, ReadBack sp room e.2 :=
      fun e he => h e (List.mem_cons_of_mem _ he)
    simp only [fieldChars, List.length_cons, List.length_append] at hf
    obtain ⟨fuel, rfl⟩ : ∃ k, fuel = k + 1 := ⟨fuel - 1, by omega⟩
    have hrest := ih hes fuel (by omega)
    obtain ⟨cs, hcs, hread⟩ := readText_textChars key (':' :: (sp.colon ++
      (chars sp (level + 1) j ++ (fieldChars sp level ((key', j') :: es) ++ tail))))
    rw [readFields, hcs, skipSpace_cons rfl]
    simp only [hread, skipSpace_cons (c := ':') rfl, readValue_append hsp.colon]
    rw [hj _ _ _ (endsNumber_fieldChars hsp level _ tail) (by omega)]
    simp only [fieldChars, List.cons_append, List.append_assoc, skipSpace_cons (c := ',') rfl]
    rw [readFields_append (hsp.line _), hrest]
    rfl

omit hsp in
theorem number_not_blank {c : Char} (h : c = '-' ∨ c.isDigit = true) :
    isSpace c = false ∧ c ≠ ']' := by
  refine ⟨Bool.eq_false_iff.2 fun hb => ?_, ?_⟩
  · simp only [isSpace, Bool.or_eq_true, decide_eq_true_eq] at hb
    rcases hb with ((rfl | rfl) | rfl) | rfl <;> simp at h
  · rintro rfl
    simp at h

omit hsp in
theorem chars_head {room : Nat} {j : Json} (h : Fits room j) (sp : Spacing) (level : Nat) :
    ∃ c cs, chars sp level j = c :: cs ∧ isSpace c = false ∧ c ≠ ']' := by
  cases h with
  | null => exact ⟨_, _, rfl, rfl, by decide⟩
  | bool b => cases b <;> exact ⟨_, _, rfl, rfl, by decide⟩
  | integer hlo hhi =>
    have hread := readNumber_integer hlo hhi (show endsNumber [] = true from rfl)
    rw [List.append_nil] at hread
    obtain ⟨c, cs, hc, hd⟩ := head_of_readNumber hread
    exact ⟨c, cs, hc, number_not_blank hd⟩
  | real hx =>
    have hread := readNumber_real hx (show endsNumber [] = true from rfl)
    rw [List.append_nil] at hread
    obtain ⟨c, cs, hc, hd⟩ := head_of_readNumber hread
    exact ⟨c, cs, hc, number_not_blank hd⟩
  | text s => exact ⟨_, _, rfl, rfl, by decide⟩
  | @list room items fit => cases items <;> exact ⟨_, _, rfl, rfl, by decide⟩
  | @fields room entries fit => cases entries <;> exact ⟨_, _, rfl, rfl, by decide⟩

omit hsp in
theorem readValue_list {c : Char} {cs rest blanks : List Char} {items : List Json} {fuel room : Nat}
    (hblanks : blanks.all isSpace = true) (hb : isSpace c = false) (hc : c ≠ ']')
    (h : readItems fuel room (c :: cs) = some (items, rest)) :
    readValue (fuel + 1) (room + 1) ('[' :: (blanks ++ c :: cs)) = some (.list items, rest) := by
  rw [readValue, skipSpace_cons rfl]
  simp only [skipSpace_append hblanks, skipSpace_cons hb]
  split
  · rename_i heq
    exact absurd (List.cons.inj heq).1 hc
  · simp only [Nat.add_sub_cancel, h]
    rfl

omit hsp in
theorem readValue_fields {cs rest blanks : List Char} {entries : List (String × Json)}
    {fuel room : Nat} (hblanks : blanks.all isSpace = true)
    (h : readFields fuel room ('"' :: cs) = some (some entries, rest)) :
    readValue (fuel + 1) (room + 1) ('{' :: (blanks ++ '"' :: cs)) =
      some (.fields entries, rest) := by
  rw [readValue, skipSpace_cons rfl]
  simp only [skipSpace_append hblanks, skipSpace_cons (c := '"') rfl]
  split
  · rename_i heq
    cases heq
  · simp only [Nat.add_sub_cancel, h]
    rfl

theorem readBack_list {room : Nat} {items : List Json} (fit : ∀ j ∈ items, Fits room j)
    (ih : ∀ j ∈ items, ReadBack sp room j) : ReadBack sp (room + 1) (.list items) := by
  intro level fuel tail _ hf
  cases items with
  | nil => rfl
  | cons j js =>
    simp only [chars, List.length_cons, List.length_append] at hf
    have hitems := readItems_chars hsp ih level fuel tail (by omega)
    obtain ⟨c, cs, hc, hblank, hclose⟩ := chars_head (fit j List.mem_cons_self) sp (level + 1)
    rw [hc] at hitems
    have hread := readValue_list (hsp.line (level + 1)) hblank hclose hitems
    simpa [chars, hc] using hread

theorem readBack_fields {room : Nat} {entries : List (String × Json)}
    (ih : ∀ e ∈ entries, ReadBack sp room e.2) : ReadBack sp (room + 1) (.fields entries) := by
  intro level fuel tail _ hf
  cases entries with
  | nil => rfl
  | cons e es =>
    obtain ⟨key, j⟩ := e
    simp only [chars, List.length_cons, List.length_append] at hf
    have hfields := readFields_chars hsp ih level fuel tail (by omega)
    have hread := readValue_fields (hsp.line (level + 1)) hfields
    simpa [chars, textChars] using hread

theorem readBack_of_fits {room : Nat} {j : Json} (h : Fits room j) : ReadBack sp room j := by
  induction h with
  | null => exact fun _ _ _ _ _ => rfl
  | bool b => cases b <;> exact fun _ _ _ _ _ => rfl
  | integer hlo hhi =>
    exact fun _ _ _ ht _ => readValue_of_readNumber (readNumber_integer hlo hhi ht) _ _
  | real hx => exact fun _ _ _ ht _ => readValue_of_readNumber (readNumber_real hx ht) _ _
  | text s =>
    intro level fuel tail _ _
    obtain ⟨cs, hcs, hread⟩ := readText_textChars s tail
    rw [chars, hcs, readValue, skipSpace_cons rfl]
    simp only [hread]
    rfl
  | list fit ih => exact readBack_list hsp fit ih
  | fields fit ih => exact readBack_fields hsp ih

/-- Any spacing will do: what is written of a document that fits is that document again. -/
theorem read?_chars {j : Json} (h : Fits depthLimit j) :
    read? (String.ofList (chars sp 0 j)) = some j := by
  have hread := readBack_of_fits hsp h 0 (2 * (chars sp 0 j).length + 1) [] rfl (by omega)
  rw [List.append_nil] at hread
  simp [read?, hread]

end

theorem read?_compact {j : Json} (h : Fits depthLimit j) : read? j.compact = some j :=
  read?_chars Spacing.tight_blank h

theorem read?_pretty {j : Json} (h : Fits depthLimit j) : read? j.pretty = some j :=
  read?_chars Spacing.lines_blank h

end Rulebook.Json
