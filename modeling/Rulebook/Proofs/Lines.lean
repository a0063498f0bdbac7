import Mathlib.Data.List.DropRight
import Rulebook.Text.Bytes
/-!
Lines of bytes and lines of text. A line end stands for itself alone in the bytes of a text, so the
lines of the bytes are the bytes of the lines.
-/

set_option autoImplicit false

namespace Rulebook.Bytes

theorem ofText_ofList (cs : List Char) :
    ofText (String.ofList cs) = cs.flatMap String.utf8EncodeChar := by
  simp [ofText, List.utf8Encode]

theorem ofText_eq_flatMap (s : String) : ofText s = s.toList.flatMap String.utf8EncodeChar := by
  rw [← ofText_ofList, String.ofList_toList]

theorem ofText_append (s t : String) : ofText (s ++ t) = ofText s ++ ofText t := by
  simp [ofText_eq_flatMap]

theorem lineEnd_mem_utf8EncodeChar {c : Char} :
    lineEnd ∈ String.utf8EncodeChar c ↔ c = '\n' := by
  have hc : c = '\n' ↔ c.val.toNat = 10 := by
    rw [← Char.val_inj, ← UInt32.toNat_inj]
    rfl
  have hbyte : ∀ n : Nat, (10 : UInt8) = UInt8.ofNat n ↔ n % 256 = 10 := fun n => by
    rw [← UInt8.toNat_inj, UInt8.toNat_ofNat', eq_comm]
    rfl
  simp only [String.utf8EncodeChar, lineEnd, hc]
  generalize c.val.toNat = n
  repeat' split
  all_goals
    simp only [List.mem_cons, List.not_mem_nil, or_false, hbyte]
    omega

theorem lineEnd_mem_ofText {s : String} : lineEnd ∈ ofText s ↔ '\n' ∈ s.toList := by
  simp [ofText_eq_flatMap, lineEnd_mem_utf8EncodeChar]

theorem lines_append_of_cons {as bs l : Bytes} {ls : List Bytes} (ha : lineEnd ∉ as)
    (hb : lines bs = l :: ls) : lines (as ++ bs) = (as ++ l) :: ls := by
  induction as with
  | nil => exact hb
  | cons a as ih =>
    obtain ⟨hne, has⟩ := not_or.1 (mt List.mem_cons.2 ha)
    simp [lines, Ne.symm hne, ih has]

theorem lines_cons_line {l : Bytes} (hl : lineEnd ∉ l) (bs : Bytes) :
    lines (l ++ lineEnd :: bs) = l :: lines bs := by
  have h := lines_append_of_cons hl (show lines (lineEnd :: bs) = [] :: lines bs by simp [lines])
  rwa [List.append_nil] at h

def ofLines (ls : List Bytes) : Bytes := ls.flatMap (· ++ [lineEnd])

theorem lines_ofLines_append {ls : List Bytes} (h : ∀ l ∈ ls, lineEnd ∉ l) (bs : Bytes) :
    lines (ofLines ls ++ bs) = ls ++ lines bs := by
  induction ls with
  | nil => rfl
  | cons l ls ih =>
    obtain ⟨hl, hls⟩ := List.forall_mem_cons.1 h
    simp only [ofLines, List.flatMap_cons, List.append_assoc, List.cons_append,
      List.nil_append] at ih ⊢
    rw [lines_cons_line hl, ih hls]

theorem lineEnd_not_mem_lines (bs : Bytes) : ∀ l ∈ lines bs, lineEnd ∉ l := by
  induction bs with
  | nil => simp [lines]
  | cons b bs ih =>
    simp only [lines]
    split
    · simpa using ih
    · rename_i hb
      split
      · simp [Ne.symm hb]
      · rename_i l ls heq
        rw [heq] at ih
        obtain ⟨hl, hls⟩ := List.forall_mem_cons.1 ih
        refine List.forall_mem_cons.2 ⟨?_, hls⟩
        simp [Ne.symm hb, hl]

theorem lines_eq_nil {bs : Bytes} : lines bs = [] ↔ bs = [] := by
  cases bs with
  | nil => simp [lines]
  | cons b bs =>
    simp only [lines]
    split
    · simp
    · split <;> simp

theorem endsMidLine_cons {bs : Bytes} (b : UInt8) (h : bs ≠ []) :
    endsMidLine (b :: bs) = endsMidLine bs := by
  simp [endsMidLine, List.getLast?_eq_some_getLast, h, List.getLast_cons]

/-- Bytes are the bytes of their lines, but for the last line end, which may be missing. -/
theorem ofLines_lines (bs : Bytes) :
    ofLines (lines bs) = if endsMidLine bs then bs ++ [lineEnd] else bs := by
  induction bs with
  | nil => rfl
  | cons b bs ih =>
    have hmid : b = lineEnd ∨ bs ≠ [] → endsMidLine (b :: bs) = endsMidLine bs := fun h => by
      by_cases hbs : bs = []
      · simp [hbs, endsMidLine, h.resolve_right (fun hne => hne hbs)]
      · exact endsMidLine_cons b hbs
    by_cases hb : b = lineEnd
    · rw [hmid (.inl hb), lines, if_pos hb, ofLines, List.flatMap_cons, ← ofLines, ih, hb]
      split <;> rfl
    · cases hl : lines bs with
      | nil =>
        have hbs := lines_eq_nil.1 hl
        simp [lines, hb, hbs, endsMidLine, ofLines]
      | cons l ls =>
        have hne : bs ≠ [] := fun h => by simp [lines_eq_nil.2 h] at hl
        rw [hl] at ih
        have hcons : ofLines ((b :: l) :: ls) = b :: ofLines (l :: ls) := rfl
        rw [hmid (.inr hne), lines, if_neg hb, hl]
        simp only [hcons, ih]
        split <;> rfl

theorem lines_append (bs tail : Bytes) :
    lines ((if endsMidLine bs then bs ++ [lineEnd] else bs) ++ tail) = lines bs ++ lines tail := by
  rw [← ofLines_lines, lines_ofLines_append (lineEnd_not_mem_lines bs)]

theorem lines_repaired {bs : Bytes} (h : endsMidLine bs = true) :
    lines (bs ++ [lineEnd]) = lines bs := by
  have happend := lines_append bs []
  rwa [if_pos h, lines, List.append_nil, List.append_nil] at happend

theorem lines_append_lineEnd (bs : Bytes) :
    lines (bs ++ [lineEnd]) = if endsMidLine bs then lines bs else lines bs ++ [[]] := by
  split
  · exact lines_repaired ‹_›
  · rename_i h
    have happend := lines_append bs [lineEnd]
    rwa [if_neg h] at happend

theorem lines_append_line {bs l : Bytes} (h : endsMidLine bs = false) (hl : lineEnd ∉ l) :
    lines (bs ++ (l ++ [lineEnd])) = lines bs ++ [l] := by
  have happend := lines_append bs (l ++ [lineEnd])
  rwa [h, if_neg Bool.false_ne_true, lines_cons_line hl] at happend

def ended (bs : Bytes) : Bytes := bs.rdropWhile (· != lineEnd)

def unended (bs : Bytes) : Bytes := bs.rtakeWhile (· != lineEnd)

theorem ended_append_unended (bs : Bytes) : ended bs ++ unended bs = bs :=
  List.rdropWhile_append_rtakeWhile ..

theorem lineEnd_not_mem_unended (bs : Bytes) : lineEnd ∉ unended bs := fun h => by
  simpa using List.mem_rtakeWhile_imp h

theorem endsMidLine_concat (bs : Bytes) (b : UInt8) : endsMidLine (bs ++ [b]) = (b != lineEnd) := by
  simp [endsMidLine]

theorem endsMidLine_append (as : Bytes) {bs : Bytes} (h : bs ≠ []) :
    endsMidLine (as ++ bs) = endsMidLine bs := by
  simp [endsMidLine, List.getLast?_append_of_ne_nil as h]

theorem endsMidLine_ended (bs : Bytes) : endsMidLine (ended bs) = false := by
  induction bs using List.reverseRecOn with
  | nil => rfl
  | append_singleton bs b ih =>
    rw [ended, List.rdropWhile_concat]
    split
    · exact ih
    · rename_i hb
      rw [endsMidLine_concat]
      simpa using hb

theorem unended_eq_nil {bs : Bytes} : unended bs = [] ↔ endsMidLine bs = false := by
  induction bs using List.reverseRecOn with
  | nil => simp [unended, endsMidLine]
  | append_singleton bs b ih =>
    rw [unended, List.rtakeWhile_concat, endsMidLine_concat]
    split <;> simp_all

theorem lines_append_unended (bs tail : Bytes) :
    lines (bs ++ tail) = lines (ended bs) ++ lines (unended bs ++ tail) := by
  have happend := lines_append (ended bs) (unended bs ++ tail)
  rwa [endsMidLine_ended, if_neg Bool.false_ne_true, ← List.append_assoc,
    ended_append_unended] at happend

theorem ended_of_not_midLine {bs : Bytes} (h : endsMidLine bs = false) : ended bs = bs := by
  have hall := ended_append_unended bs
  rwa [unended_eq_nil.2 h, List.append_nil] at hall

theorem lines_eq_ended (bs : Bytes) : lines bs = lines (ended bs) ++ lines (unended bs) := by
  have happend := lines_append_unended bs []
  rwa [List.append_nil, List.append_nil] at happend

theorem endsMidLine_of_not_mem {l : Bytes} (hne : l ≠ []) (hl : lineEnd ∉ l) :
    endsMidLine l = true := by
  obtain ⟨init, last, rfl⟩ := (List.eq_nil_or_concat l).resolve_left hne
  rw [List.concat_eq_append] at hl ⊢
  have hlast : last ≠ lineEnd := fun h => hl (by simp [h])
  rw [endsMidLine_concat]
  simpa using hlast

theorem lines_of_not_mem {l : Bytes} (hne : l ≠ []) (hl : lineEnd ∉ l) : lines l = [l] := by
  rw [← lines_repaired (endsMidLine_of_not_mem hne hl), lines_cons_line hl, lines]

theorem lines_ended_append_line (bs : Bytes) {l : Bytes} (hl : lineEnd ∉ l) :
    lines (ended (bs ++ (l ++ [lineEnd]))) = lines (ended bs) ++ [unended bs ++ l] := by
  have hjoined : lineEnd ∉ unended bs ++ l := List.not_mem_append (lineEnd_not_mem_unended bs) hl
  have hended : endsMidLine (bs ++ (l ++ [lineEnd])) = false := by
    rw [← List.append_assoc, endsMidLine_concat, bne_self_eq_false]
  rw [ended_of_not_midLine hended, lines_append_unended, ← List.append_assoc,
    lines_cons_line hjoined, lines]

theorem lines_ended_prefix (bs tail : Bytes) :
    lines (ended bs) <+: lines (ended (bs ++ tail)) := by
  induction tail using List.reverseRecOn with
  | nil => simp
  | append_singleton tail b ih =>
    rw [← List.append_assoc, ended.eq_def (bs ++ tail ++ [b]), List.rdropWhile_concat]
    split
    · exact ih
    · rw [List.append_assoc, lines_append_unended]
      exact List.prefix_append _ _

def IsLine (bs : Bytes) : Prop := ∃ l, lineEnd ∉ l ∧ bs = l ++ [lineEnd]

/-- The lines of a text, the empty piece behind a last line end among them. -/
def textLines (s : String) : List String := (s.toList.splitOn '\n').map String.ofList

theorem lines_utf8 (cs : List Char) :
    lines (cs.flatMap String.utf8EncodeChar ++ [lineEnd]) =
      (cs.splitOn '\n').map (·.flatMap String.utf8EncodeChar) := by
  induction cs with
  | nil => rfl
  | cons c cs ih =>
    rw [List.flatMap_cons, List.append_assoc, List.splitOn_cons_eq_if_modifyHead]
    by_cases hc : c = '\n'
    · subst hc
      simp only [beq_self_eq_true, if_true, List.map_cons, ← ih]
      rfl
    · obtain ⟨l, ls, hl⟩ := List.exists_cons_of_ne_nil (List.splitOn_ne_nil '\n' cs)
      have hchar : lineEnd ∉ String.utf8EncodeChar c := mt lineEnd_mem_utf8EncodeChar.1 hc
      rw [hl, List.map_cons] at ih
      simp [lines_append_of_cons hchar ih, hl, hc]

theorem lines_ofText (s : String) : lines (ofText s ++ [lineEnd]) = (textLines s).map ofText := by
  rw [ofText_eq_flatMap, lines_utf8, textLines, List.map_map]
  refine List.map_congr_left fun l _ => ?_
  rw [Function.comp_apply, ofText_ofList]

end Rulebook.Bytes
