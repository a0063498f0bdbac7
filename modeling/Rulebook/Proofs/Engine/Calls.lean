import Rulebook.Engine.Basic
import Rulebook.Proofs.Registry
/-!
Calls of an engine and runs of them. What goes wrong with files belongs to a call; a run goes on
after every failure.
-/

set_option autoImplicit false

namespace Rulebook

namespace DecisionLog

def handle? : DecisionLog → Option OpenFile
  | .memory _ => none
  | .file _ handle => some handle

/-- The path under which the file of a log is read; there is none in memory. -/
def path? : DecisionLog → Option Path
  | .memory _ => none
  | .file p _ => some p

theorem append_log (log : DecisionLog) (disk : Disk) (fault : Option WriteFault) (d : Decision) :
    (log.append disk fault d).2.1 = log ∨
      ∃ ds ds', log = .memory ds ∧ (log.append disk fault d).2.1 = .memory ds' := by
  cases log with
  | memory ds => exact .inr ⟨ds, _, rfl, rfl⟩
  | file path handle =>
    refine .inl ?_
    obtain ⟨place, node⟩ := handle
    cases node with
    | directory | full => rfl
    | file number content =>
      simp only [append]
      split
      · split <;> rfl
      · rfl

theorem append_handle (log : DecisionLog) (disk : Disk) (fault : Option WriteFault)
    (d : Decision) : (log.append disk fault d).2.1.handle? = log.handle? := by
  rcases log.append_log disk fault d with hsame | ⟨ds, ds', rfl, hafter⟩
  · rw [hsame]
  · rw [hafter]
    rfl

theorem append_path (log : DecisionLog) (disk : Disk) (fault : Option WriteFault)
    (d : Decision) : (log.append disk fault d).2.1.path? = log.path? := by
  rcases log.append_log disk fault d with hsame | ⟨ds, ds', rfl, hafter⟩
  · rw [hsame]
  · rw [hafter]
    rfl

end DecisionLog

namespace Engine

inductive Call where
  | define (now : Instant) (interruption : Option Disk.Interruption) (d : Definition)
  | evaluate (stamp : Stamp) (fault : Option WriteFault) (id : String) (r : Record)
  | evaluateAll (stamp : Nat → Stamp) (fault : Nat → Option WriteFault) (id : String)
      (rs : List Record)
  | decisions (outage : Option LogError) (id : Option String)
  | summarize (outage : Option LogError) (id : Option String)

inductive Reply where
  | defined (result : Except EngineError RuleSet)
  | receipt (result : Except EngineError Receipt)
  | receipts (result : Except EngineError (List Receipt))
  | found (result : Except EngineError (List Decision))
  | summary (result : Except EngineError Summary)

def call (e : Engine) (disk : Disk) : Call → Reply × Engine × Disk
  | .define now interruption d =>
    let (result, e, disk) := e.define disk now interruption d
    (.defined result, e, disk)
  | .evaluate stamp fault id r =>
    let (result, e, disk) := e.evaluate disk stamp fault id r
    (.receipt result, e, disk)
  | .evaluateAll stamp fault id rs =>
    let (result, e, disk) := e.evaluateAll disk stamp fault id rs
    (.receipts result, e, disk)
  | .decisions outage id => (.found (e.decisions disk outage id), e, disk)
  | .summarize outage id => (.summary (e.summarize disk outage id), e, disk)

def run (e : Engine) (disk : Disk) : List Call → List Reply × Engine × Disk
  | [] => ([], e, disk)
  | c :: cs =>
    let (reply, e, disk) := e.call disk c
    let (replies, e, disk) := run e disk cs
    (reply :: replies, e, disk)

variable {e e' : Engine} {disk disk' : Disk}

/-- A definition is refused, cannot be saved, or is saved and then registered. Once it is saved its
identifier is still free. -/
theorem define_cases {now : Instant} {interruption : Option Disk.Interruption} {d : Definition}
    {result : Except EngineError RuleSet}
    (h : e.define disk now interruption d = (result, e', disk')) :
    (∃ reason, e.registry.prepare now d = .error reason ∧ result = .error (.definition reason) ∧
      e' = e ∧ disk' = disk) ∨
    (∃ s reason, e.registry.prepare now d = .ok s ∧
      e.save disk interruption s = (.error reason, disk') ∧
      result = .error (.snapshot reason) ∧ e' = e) ∨
    ∃ s, e.registry.prepare now d = .ok s ∧ e.registry.contains s.id = false ∧
      e.save disk interruption s = (.ok (), disk') ∧ result = .ok s ∧
      e' = { e with registry := ⟨e.registry.table.insert s.id s⟩ } := by
  unfold define at h
  split at h
  · rename_i reason hprepare
    cases h
    exact .inl ⟨reason, hprepare, rfl, rfl, rfl⟩
  · rename_i s hprepare
    obtain ⟨hfree, hcompile⟩ := Registry.prepare_eq_ok.1 hprepare
    rw [← Definition.id_of_compile hcompile] at hfree
    split at h
    · rename_i reason after hsave
      cases h
      exact .inr (.inl ⟨s, reason, hprepare, hsave, rfl, rfl⟩)
    · rename_i after hsave
      rw [Registry.insert_eq_ok.2 ⟨hfree, rfl⟩] at h
      cases h
      exact .inr (.inr ⟨s, hprepare, hfree, hsave, rfl, rfl⟩)

section Invariants

variable {P : Engine → Disk → Prop}

theorem recordFrom_invariant (hrecord : ∀ {e disk} fault v, P e disk →
      P (e.record disk fault v).2.1 (e.record disk fault v).2.2)
    (h : P e disk) (fault : Nat → Option WriteFault) (k : Nat) (vs : List Evaluation) :
    P (recordFrom k e disk fault vs).2.1 (recordFrom k e disk fault vs).2.2 := by
  induction vs generalizing e disk k with
  | nil => exact h
  | cons v vs ih => exact ih (hrecord (fault k) v h) (k + 1)

/-- What holds behind a definition and behind a recording, if it holds before, holds behind each
call. -/
theorem call_invariant {c : Call}
    (hdefine : ∀ {e e' disk disk' now interruption d result}, c = .define now interruption d →
      P e disk → e.define disk now interruption d = (result, e', disk') → P e' disk')
    (hrecord : ∀ {e disk} fault v, P e disk →
      P (e.record disk fault v).2.1 (e.record disk fault v).2.2)
    (h : P e disk) : P (e.call disk c).2.1 (e.call disk c).2.2 := by
  cases c with
  | define now interruption d => exact hdefine rfl h rfl
  | evaluate stamp fault id r =>
    simp only [call, evaluate]
    split
    · exact h
    · exact hrecord fault _ h
  | evaluateAll stamp fault id rs =>
    simp only [call, evaluateAll]
    split
    · exact h
    · exact recordFrom_invariant hrecord h fault 0 _
  | decisions outage id => exact h
  | summarize outage id => exact h

theorem run_invariant {calls : List Call}
    (hcall : ∀ {e disk}, ∀ c ∈ calls, P e disk → P (e.call disk c).2.1 (e.call disk c).2.2)
    (h : P e disk) : P (e.run disk calls).2.1 (e.run disk calls).2.2 := by
  induction calls generalizing e disk with
  | nil => exact h
  | cons c cs ih =>
    exact ih (fun c' hc' => hcall c' (List.mem_cons_of_mem c hc')) (hcall c List.mem_cons_self h)

end Invariants

end Engine

end Rulebook
