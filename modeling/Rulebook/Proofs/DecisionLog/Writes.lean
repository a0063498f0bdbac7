import Rulebook.DecisionLog
import Rulebook.Proofs.Lines
/-!
Lines appended with faults, one after another. A write may break off anywhere, and what it has
written by then cannot always be taken back. Main statement: an acknowledged line is a line of its
own exactly if what was left behind last before it ends with a whole line; otherwise it is joined to
the part that was left.
-/

set_option autoImplicit false

namespace Rulebook.DecisionLog

structure Write where
  bytes : Bytes
  fault : Option WriteFault

namespace Write

def acknowledged (w : Write) : Bool := w.fault.isNone

def kept (w : Write) : Bytes := appendLine [] w.bytes w.fault

def line (w : Write) : Bytes := w.bytes.dropLast

variable {w : Write}

theorem kept_of_acknowledged (h : w.acknowledged = true) : w.kept = w.bytes := by
  rw [kept, Option.isNone_iff_eq_none.1 h]
  rfl

theorem kept_prefix (w : Write) : w.kept <+: w.bytes := by
  obtain ⟨bytes, fault⟩ := w
  cases fault with
  | none => exact List.prefix_rfl
  | some fault =>
    simp only [kept, appendLine]
    split
    · exact List.nil_prefix
    · exact List.take_prefix ..

theorem bytes_eq (h : Bytes.IsLine w.bytes) :
    Bytes.lineEnd ∉ w.line ∧ w.bytes = w.line ++ [Bytes.lineEnd] := by
  obtain ⟨l, hl, heq⟩ := h
  rw [line, heq, List.dropLast_concat]
  exact ⟨hl, rfl⟩

theorem endsMidLine_kept (h : Bytes.IsLine w.bytes) (hne : w.kept ≠ []) :
    Bytes.endsMidLine w.kept = (w.kept != w.bytes) := by
  obtain ⟨hline, heq⟩ := bytes_eq h
  rcases List.prefix_concat_iff.1 (heq ▸ w.kept_prefix) with hall | hpart
  · rw [hall, Bytes.endsMidLine_concat, heq, bne_self_eq_false, bne_self_eq_false]
  · have hno : Bytes.lineEnd ∉ w.kept := fun hm => hline (hpart.subset hm)
    have hpartial : w.kept ≠ w.bytes := fun he => hno (by simp [he, heq])
    rw [Bytes.endsMidLine_of_not_mem hne hno, bne_iff_ne.2 hpartial]

end Write

def writeAll (content : Bytes) (ws : List Write) : Bytes :=
  ws.foldl (fun content w => appendLine content w.bytes w.fault) content

/-- Whether the last call that left anything in the file left only a part of its line. -/
def torn (ws : List Write) : Bool :=
  (ws.filter (!·.kept.isEmpty)).getLast?.any fun w => w.kept != w.bytes

def acknowledgedLines (ws : List Write) : List Bytes :=
  (ws.filter Write.acknowledged).map Write.line

theorem appendLine_eq (content line : Bytes) (fault : Option WriteFault) :
    appendLine content line fault = content ++ appendLine [] line fault := by
  cases fault with
  | none => rfl
  | some fault => cases h : fault.takenBack <;> simp [appendLine, h]

theorem writeAll_eq (content : Bytes) (ws : List Write) :
    writeAll content ws = content ++ ws.flatMap Write.kept := by
  induction ws generalizing content with
  | nil => exact (List.append_nil content).symm
  | cons w ws ih =>
    have hstep : writeAll content (w :: ws) = writeAll (content ++ w.kept) ws :=
      congrArg (writeAll · ws) (appendLine_eq content w.bytes w.fault)
    rw [hstep, ih, List.append_assoc, List.flatMap_cons]

theorem writeAll_concat (content : Bytes) (ws : List Write) (w : Write) :
    writeAll content (ws ++ [w]) = writeAll content ws ++ w.kept := by
  simp [writeAll_eq]

theorem torn_concat (ws : List Write) (w : Write) :
    torn (ws ++ [w]) = if w.kept = [] then torn ws else w.kept != w.bytes := by
  by_cases h : w.kept = [] <;> simp [torn, h]

theorem endsMidLine_writeAll {content : Bytes} {ws : List Write}
    (hwhole : Bytes.endsMidLine content = false) (hlines : ∀ w ∈ ws, Bytes.IsLine w.bytes) :
    Bytes.endsMidLine (writeAll content ws) = torn ws := by
  induction ws using List.reverseRecOn with
  | nil => exact hwhole
  | append_singleton ws w ih =>
    obtain ⟨hws, hw⟩ := List.forall_mem_append.1 hlines
    rw [writeAll_concat, torn_concat]
    split
    · rename_i hnothing
      rw [hnothing, List.append_nil, ih hws]
    · rename_i hsome
      rw [Bytes.endsMidLine_append _ hsome]
      exact Write.endsMidLine_kept (hw w (List.mem_singleton_self w)) hsome

theorem lines_of_acknowledged (content : Bytes) (before after : List Write) {w : Write}
    (hw : Bytes.IsLine w.bytes) (hack : w.acknowledged = true) :
    Bytes.lines (writeAll content (before ++ w :: after)) =
      Bytes.lines (Bytes.ended (writeAll content before)) ++
        (Bytes.unended (writeAll content before) ++ w.line) ::
          Bytes.lines (after.flatMap Write.kept) := by
  obtain ⟨hline, heq⟩ := Write.bytes_eq hw
  have hcontent : writeAll content (before ++ w :: after) =
      writeAll content before ++ (w.line ++ Bytes.lineEnd :: after.flatMap Write.kept) := by
    simp [writeAll_eq, Write.kept_of_acknowledged hack, heq]
  have hjoined : Bytes.lineEnd ∉ Bytes.unended (writeAll content before) ++ w.line :=
    List.not_mem_append (Bytes.lineEnd_not_mem_unended _) hline
  rw [hcontent, Bytes.lines_append_unended, ← List.append_assoc, Bytes.lines_cons_line hjoined]

/-- By induction from the last call on: an acknowledged line comes to the ended lines, and these
stay whatever is written behind them. -/
theorem acknowledged_sublist_ended {content : Bytes} {ws : List Write}
    (hwhole : Bytes.endsMidLine content = false) (hlines : ∀ w ∈ ws, Bytes.IsLine w.bytes)
    (huntorn : ∀ before w after, ws = before ++ w :: after → w.acknowledged = true →
      torn before = false) :
    (acknowledgedLines ws).Sublist (Bytes.lines (Bytes.ended (writeAll content ws))) := by
  induction ws using List.reverseRecOn with
  | nil => exact List.nil_sublist _
  | append_singleton ws w ih =>
    obtain ⟨hws, hw⟩ := List.forall_mem_append.1 hlines
    have hsub := ih hws fun before v after horder =>
      huntorn before v (after ++ [w]) (by simp [horder])
    rw [writeAll_concat]
    by_cases hack : w.acknowledged = true
    · obtain ⟨hline, heq⟩ := Write.bytes_eq (hw w (List.mem_singleton_self w))
      have hended : Bytes.unended (writeAll content ws) = [] := by
        rw [Bytes.unended_eq_nil, endsMidLine_writeAll hwhole hws]
        exact huntorn ws w [] rfl hack
      have hsnoc : acknowledgedLines (ws ++ [w]) = acknowledgedLines ws ++ [w.line] := by
        simp [acknowledgedLines, hack]
      rw [hsnoc, Write.kept_of_acknowledged hack, heq, Bytes.lines_ended_append_line _ hline, hended]
      exact hsub.append_right _
    · have hsnoc : acknowledgedLines (ws ++ [w]) = acknowledgedLines ws := by
        simp [acknowledgedLines, hack]
      rw [hsnoc]
      exact hsub.trans (Bytes.lines_ended_prefix _ _).sublist

/-- If no acknowledged call comes behind a torn line, the acknowledged lines are whole lines of the
file, in order. Each of them is a line of its own exactly if the calls before it did not end with a
torn line; if they did, it is joined to the part that was left. -/
theorem acknowledged_own_line_iff {content : Bytes} {ws : List Write}
    (hwhole : Bytes.endsMidLine content = false) (hlines : ∀ w ∈ ws, Bytes.IsLine w.bytes) :
    ((∀ before w after, ws = before ++ w :: after → w.acknowledged = true →
        torn before = false) →
      (acknowledgedLines ws).Sublist (Bytes.lines (writeAll content ws))) ∧
    ∀ before w after, ws = before ++ w :: after → w.acknowledged = true →
      let later := Bytes.lines (after.flatMap Write.kept)
      (Bytes.lines (writeAll content ws) =
          Bytes.lines (writeAll content before) ++ w.line :: later ↔ torn before = false) ∧
      (torn before = true → ∃ earlier part, part ≠ [] ∧
        Bytes.lines (writeAll content before) = earlier ++ [part] ∧
        Bytes.lines (writeAll content ws) = earlier ++ (part ++ w.line) :: later) := by
  refine ⟨fun huntorn => ?_, fun before w after horder hack => ?_⟩
  · refine (acknowledged_sublist_ended hwhole hlines huntorn).trans ?_
    rw [Bytes.lines_eq_ended (writeAll content ws)]
    exact List.sublist_append_left _ _
  · subst horder
    obtain ⟨hbefore, hrest⟩ := List.forall_mem_append.1 hlines
    have hall := lines_of_acknowledged content before after (hrest w List.mem_cons_self) hack
    have htorn := endsMidLine_writeAll hwhole hbefore
    cases h : torn before with
    | false =>
      have hended := htorn.trans h
      rw [Bytes.ended_of_not_midLine hended, Bytes.unended_eq_nil.2 hended, List.nil_append] at hall
      exact ⟨iff_of_true hall rfl, nofun⟩
    | true =>
      have hpart : Bytes.unended (writeAll content before) ≠ [] := by
        rw [Ne, Bytes.unended_eq_nil, htorn, h]
        exact nofun
      have hlast := Bytes.lines_eq_ended (writeAll content before)
      rw [Bytes.lines_of_not_mem hpart (Bytes.lineEnd_not_mem_unended _)] at hlast
      refine ⟨iff_of_false (fun hown => ?_) nofun, fun _ => ⟨_, _, hpart, hlast, hall⟩⟩
      -- On its own it would be one line more.
      have hlength := congrArg List.length (hall.symm.trans hown)
      rw [hlast] at hlength
      simp at hlength

def cutWrite : Write := ⟨[0x7B, 0x7D, Bytes.lineEnd], some ⟨.unavailable "full", 1, false⟩⟩

def wholeWrite : Write := ⟨[0x5B, 0x5D, Bytes.lineEnd], none⟩

theorem acknowledged_own_line_iff_joined :
    (acknowledgedLines [wholeWrite, cutWrite]).Sublist
        (Bytes.lines (writeAll [] [wholeWrite, cutWrite])) ∧
      torn [wholeWrite, cutWrite] = true ∧
      Bytes.lines (writeAll [] [wholeWrite, cutWrite, wholeWrite]) ≠
        Bytes.lines (writeAll [] [wholeWrite, cutWrite]) ++ [wholeWrite.line] ∧
      ¬ (acknowledgedLines [wholeWrite, cutWrite, wholeWrite]).Sublist
        (Bytes.lines (writeAll [] [wholeWrite, cutWrite, wholeWrite])) := by
  have hcut : Bytes.IsLine cutWrite.bytes := ⟨[0x7B, 0x7D], by decide, rfl⟩
  have hwhole : Bytes.IsLine wholeWrite.bytes := ⟨[0x5B, 0x5D], by decide, rfl⟩
  have htwo := @acknowledged_own_line_iff [] [wholeWrite, cutWrite] rfl (by simp [hcut, hwhole])
  have hthree := @acknowledged_own_line_iff [] [wholeWrite, cutWrite, wholeWrite] rfl
    (by simp [hcut, hwhole])
  have htorn : torn [wholeWrite, cutWrite] = true := by decide
  refine ⟨htwo.1 ?_, htorn, fun hown => ?_, by decide⟩
  · rintro (_ | ⟨_, _ | ⟨_, before⟩⟩) w after horder hack
    · rfl
    · cases horder
      cases hack
    · simp at horder
  · have hown' := ((hthree.2 [wholeWrite, cutWrite] wholeWrite [] rfl rfl).1).1 hown
    exact absurd (htorn.symm.trans hown') nofun

end Rulebook.DecisionLog
