import Mathlib.Data.List.Permutation
import Rulebook.DecisionLog.Writer
import Rulebook.Proofs.DecisionLog.Writes
/-!
Lines that are taken back. Whatever a writer answers, appending a line comes to `appendLine` with some
fault. Main statement: if the writer can be cut off, a call that fails leaves no trace, so that after
any calls the acknowledged lines stand behind what was there, in order.
-/

set_option autoImplicit false

namespace Rulebook.Writer

variable {σ : Type}

/-- `content` is what the writer holds. Writes only add to it: the bytes they say they have taken, or
if they fail any part from the front. -/
structure Holds (w : Writer σ) (content : σ → Bytes) : Prop where
  took : ∀ bytes s n s', w.write bytes s = (.took n, s') →
    n ≤ bytes.length ∧ content s' = content s ++ bytes.take n
  interrupted : ∀ bytes s s', w.write bytes s = (.interrupted, s') → content s' = content s
  failed : ∀ bytes s e s', w.write bytes s = (.failed e, s') →
    ∃ n, content s' = content s ++ bytes.take n
  flush : ∀ s, content (w.flush s).2 = content s
  size : ∀ s n, w.size s = .ok n → n = (content s).length
  cut : ∀ n s s', n ≤ (content s).length → w.truncate n s = (.ok (), s') →
    content s' = (content s).take n
  uncut : ∀ n s e s', w.truncate n s = (.error e, s') → content s' = content s

def CutsOff (w : Writer σ) : Prop := ∀ n s, (w.truncate n s).1 = .ok ()

variable {w : Writer σ} {content : σ → Bytes}

theorem writeAll_content (h : w.Holds content) (bytes : Bytes) (s : σ) :
    ((w.writeAll bytes s).1 = .ok () → content (w.writeAll bytes s).2 = content s ++ bytes) ∧
      ∃ n, content (w.writeAll bytes s).2 = content s ++ bytes.take n := by
  fun_induction writeAll w bytes s with
  | case1 s => exact ⟨fun _ => (List.append_nil _).symm, 0, (List.append_nil _).symm⟩
  | case2 s b bs e s' hwrite => exact ⟨nofun, h.failed _ _ _ _ hwrite⟩
  | case3 s b bs s' hwrite ih => rwa [h.interrupted _ _ _ hwrite] at ih
  | case4 s b bs s' hwrite =>
    obtain ⟨-, hcontent⟩ := h.took _ _ _ _ hwrite
    exact ⟨nofun, 0, hcontent⟩
  | case5 s b bs n s' hwrite ih =>
    obtain ⟨-, hcontent⟩ := h.took _ _ _ _ hwrite
    obtain ⟨hall, m, hpart⟩ := ih
    rw [hcontent] at hall hpart
    refine ⟨fun hok => ?_, n + 1 + m, ?_⟩
    · rw [hall hok, List.append_assoc, List.take_succ_cons, List.cons_append,
        List.take_append_drop]
    · rw [hpart, List.append_assoc, List.take_add, List.drop_succ_cons]

theorem writeLine_content (h : w.Holds content) (line : Bytes) (s : σ) :
    ((w.writeLine line s).1 = .ok () → content (w.writeLine line s).2 = content s ++ line) ∧
      ∃ n, content (w.writeLine line s).2 = content s ++ line.take n := by
  obtain ⟨hall, hpart⟩ := writeAll_content h line s
  unfold writeLine
  split
  · rename_i s' hwrite
    rw [hwrite] at hall
    have hflushed := (h.flush s').trans (hall rfl)
    exact ⟨fun _ => hflushed, line.length, by rw [hflushed, List.take_length]⟩
  · rename_i e s' hwrite
    rw [hwrite] at hpart
    exact ⟨nofun, hpart⟩

def outcome (fault : Option WriteFault) : Except LogError Unit :=
  match fault with
  | none => .ok ()
  | some fault => .error fault.error

/-- One call, whatever the writer answers: it comes to `appendLine` with some fault, and the fault is
taken back if the writer can be cut off. -/
theorem append_eq (h : w.Holds content) (line : Bytes) (s : σ) :
    ∃ fault : Option WriteFault, (w.append line s).1 = outcome fault ∧
      content (w.append line s).2 = appendLine (content s) line fault ∧
        (w.CutsOff → ∀ f ∈ fault, f.takenBack = true) := by
  unfold append
  split
  · rename_i e hsize
    exact ⟨some ⟨e, 0, true⟩, rfl, rfl, by simp⟩
  · rename_i size hsize
    obtain rfl := h.size _ _ hsize
    obtain ⟨hall, n, hpart⟩ := writeLine_content h line s
    split
    · rename_i s' hwrite
      rw [hwrite] at hall
      exact ⟨none, rfl, hall rfl, by simp⟩
    · rename_i e s' hwrite
      rw [hwrite] at hpart
      have hlength : (content s).length ≤ (content s').length := by
        rw [hpart, List.length_append]
        exact Nat.le_add_right ..
      cases hcut : w.truncate (content s).length s' with
      | mk result s'' =>
        cases result with
        | ok done =>
          refine ⟨some ⟨e, n, true⟩, rfl, ?_, by simp⟩
          exact (h.cut _ _ _ hlength hcut).trans (by rw [hpart, List.take_left]; rfl)
        | error reason =>
          refine ⟨some ⟨e, n, false⟩, rfl, (h.uncut _ _ _ _ hcut).trans hpart, fun hcuts => ?_⟩
          have hdone := hcuts (content s).length s'
          rw [hcut] at hdone
          cases hdone

open DecisionLog (Write)

/-- A whole run: the calls come to writes with some faults, call by call. -/
theorem appendAll_eq (h : w.Holds content) (s : σ) (lines : List Bytes) :
    ∃ ws : List Write, ws.map (·.bytes) = lines ∧
      ws.map (fun x => outcome x.fault) = (w.appendAll s lines).1 ∧
        content (w.appendAll s lines).2 = DecisionLog.writeAll (content s) ws ∧
          (w.CutsOff → ∀ x ∈ ws, ∀ f ∈ x.fault, f.takenBack = true) := by
  induction lines generalizing s with
  | nil => exact ⟨[], rfl, rfl, rfl, by simp⟩
  | cons line lines ih =>
    obtain ⟨fault, hresult, hcontent, hback⟩ := append_eq h line s
    obtain ⟨ws, hbytes, hresults, hlater, hbacks⟩ := ih (w.append line s).2
    refine ⟨⟨line, fault⟩ :: ws, ?_, ?_, ?_, fun hcuts => ?_⟩
    · rw [List.map_cons, hbytes]
    · rw [List.map_cons, hresults, ← hresult]
      rfl
    · calc
        content (w.appendAll s (line :: lines)).2
          = DecisionLog.writeAll (content (w.append line s).2) ws := hlater
        _ = DecisionLog.writeAll (content s) (⟨line, fault⟩ :: ws) := by rw [hcontent]; rfl
    · exact List.forall_mem_cons.2 ⟨hback hcuts, hbacks hcuts⟩

theorem kept_of_takenBack {x : Write} (h : ∀ f ∈ x.fault, f.takenBack = true) :
    x.kept = if (outcome x.fault).isOk then x.bytes else [] := by
  obtain ⟨bytes, fault⟩ := x
  cases fault with
  | none => rfl
  | some fault =>
    have hback := h fault rfl
    simp [Write.kept, appendLine, hback, outcome, Except.isOk, Except.toBool]

def acknowledged (lines : List Bytes) (results : List (Except LogError Unit)) : List Bytes :=
  ((lines.zip results).filter fun x => x.2.isOk).map Prod.fst

theorem flatMap_kept {ws : List Write} (h : ∀ x ∈ ws, ∀ f ∈ x.fault, f.takenBack = true) :
    ws.flatMap Write.kept =
      (acknowledged (ws.map (·.bytes)) (ws.map fun x => outcome x.fault)).flatten := by
  induction ws with
  | nil => rfl
  | cons x ws ih =>
    obtain ⟨hx, hws⟩ := List.forall_mem_cons.1 h
    rw [List.flatMap_cons, ih hws, kept_of_takenBack hx]
    cases hok : (outcome x.fault).isOk <;> simp [acknowledged, hok]

/-- Calls on a writer that can be cut off, whatever fails: the content is what it was with the
acknowledged lines behind it. The same calls leave the same in a log file, with faults that are all
taken back. -/
theorem appendAll_leaves_acknowledged (h : w.Holds content) (hcuts : w.CutsOff) {s s' : σ}
    {lines : List Bytes} {results : List (Except LogError Unit)}
    (hrun : w.appendAll s lines = (results, s')) :
    results.length = lines.length ∧
    content s' = content s ++ (acknowledged lines results).flatten ∧
    ∃ ws : List Write, ws.map (·.bytes) = lines ∧ ws.map (fun x => outcome x.fault) = results ∧
      (∀ x ∈ ws, ∀ f ∈ x.fault, f.takenBack = true) ∧
        content s' = DecisionLog.writeAll (content s) ws := by
  obtain ⟨ws, hbytes, hresults, hcontent, hback⟩ := appendAll_eq h s lines
  rw [hrun] at hresults hcontent
  dsimp only at hresults hcontent
  refine ⟨?_, ?_, ws, hbytes, hresults, hback hcuts, hcontent⟩
  · rw [← hresults, ← hbytes, List.length_map, List.length_map]
  · rw [hcontent, DecisionLog.writeAll_eq, flatMap_kept (hback hcuts), hbytes, hresults]

def planned : Writer (Bytes × List WriteReply) where
  write bytes
    | (content, []) => (.took bytes.length, (content ++ bytes, []))
    | (content, .took n :: plan) => (.took (min n bytes.length), (content ++ bytes.take n, plan))
    | (content, .interrupted :: plan) => (.interrupted, (content, plan))
    | (content, .failed e :: plan) => (.failed e, (content, plan))
  flush
    | (content, []) => (.ok (), (content, []))
    | (content, .failed e :: plan) => (.error e, (content, plan))
    | (content, _ :: plan) => (.ok (), (content, plan))
  size | (content, _) => .ok content.length
  truncate n | (content, plan) => (.ok (), (content.take n, plan))
  patience s := s.2.length
  patience_lt bytes s s' h := by
    split at h <;> cases h
    simp

theorem planned_holds : planned.Holds Prod.fst where
  took bytes s n s' h := by
    simp only [planned] at h
    split at h <;> cases h
    · simp
    · exact ⟨Nat.min_le_right .., by simp [List.take_eq_take_iff]⟩
  interrupted bytes s s' h := by
    simp only [planned] at h
    split at h <;> cases h
    rfl
  failed bytes s e s' h := by
    simp only [planned] at h
    split at h <;> cases h
    exact ⟨0, by simp⟩
  flush s := by
    simp only [planned]
    split <;> rfl
  size s n h := by cases h; rfl
  cut n s s' _ h := by cases h; rfl
  uncut n s e s' h := by cases h

def full : LogError := .unavailable "No space left on device (os error 28)"

def plan : List WriteReply :=
  [.took 1, .interrupted, .took 1, .took 0, .took 1, .failed full, .took 2, .failed full]

def fourLines : List Bytes := [[0x61, 0x0A], [0x62, 0x0A], [0x63, 0x0A], [0x64, 0x0A]]

theorem appendAll_leaves_acknowledged_full :
    (planned.appendAll ([0x2A], plan) fourLines).1 = [.ok (), .error full, .error full, .ok ()] ∧
      (planned.appendAll ([0x2A], plan) fourLines).2.1 = [0x2A, 0x61, 0x0A, 0x64, 0x0A] := by
  have hresults : (planned.appendAll ([0x2A], plan) fourLines).1 =
      [.ok (), .error full, .error full, .ok ()] := by cbv
  obtain ⟨results, s', hrun⟩ : ∃ results s',
      planned.appendAll ([0x2A], plan) fourLines = (results, s') := ⟨_, _, rfl⟩
  obtain ⟨-, hcontent, -⟩ := appendAll_leaves_acknowledged planned_holds (fun _ _ => rfl) hrun
  rw [hrun] at hresults ⊢
  cases hresults
  exact ⟨rfl, hcontent⟩

end Rulebook.Writer
