import Rulebook.Proofs.Engine.Recording
import Rulebook.Proofs.Stored
/-!
Registry and snapshot file in step. Once the file holds the rule sets of the registry it holds them
after every call, whether it succeeds, is refused or breaks off.
-/

set_option autoImplicit false

namespace Rulebook.Engine

def Call.Timely : Call → Prop
  | .define now _ d => now.Valid ∧ ∀ t ∈ d.definedAt, t.Valid
  | _ => True

/-- The snapshot file holds the rule sets of the registry, and no log is in its way. -/
structure InStep (e : Engine) (disk : Disk) (p : Path) : Prop where
  path : e.snapshot = some p
  sound : e.registry.Sound
  text : disk.readText p = .ok (Snapshot.text e.registry.list)
  apart : e.Apart disk

variable {e e' : Engine} {disk disk' : Disk} {p : Path} {now : Instant}
  {interruption : Option Disk.Interruption} {d : Definition} {s : RuleSet}

theorem readText_of_save (hkeyed : e.registry.Keyed) (hp : e.snapshot = some p)
    (hfree : e.registry.contains s.id = false)
    (hsave : e.save disk interruption s = (.ok (), disk')) :
    disk'.readText p = .ok (Snapshot.text (Registry.list ⟨e.registry.table.insert s.id s⟩)) := by
  simp only [save, hp] at hsave
  exact Snapshot.readText_of_save_insert hkeyed hfree hsave

theorem sound_of_define {result : Except EngineError RuleSet} (h : e.registry.Sound)
    (htimely : (Call.define now interruption d).Timely)
    (hdefine : e.define disk now interruption d = (result, e', disk')) : e'.registry.Sound := by
  rcases define_cases hdefine with
    ⟨_, -, -, rfl, -⟩ | ⟨_, _, -, -, -, rfl⟩ | ⟨s, hprepare, hfree, -, -, rfl⟩
  · exact h
  · exact h
  · exact (h.insert hfree (Registry.compiled_of_prepare hprepare htimely.1 htimely.2)).1

namespace InStep

theorem holds (h : e.InStep disk p) : Snapshot.Holds e.registry disk p :=
  Snapshot.holds_of_readText h.sound h.text

theorem define {result : Except EngineError RuleSet} (h : e.InStep disk p)
    (happart : (Snapshot.temporary p).plain ≠ p.plain)
    (htimely : (Call.define now interruption d).Timely)
    (hdefine : e.define disk now interruption d = (result, e', disk')) : e'.InStep disk' p := by
  have hsound := sound_of_define h.sound htimely hdefine
  rcases define_cases hdefine with
    ⟨_, -, -, rfl, rfl⟩ | ⟨s, _, -, hsave, -, rfl⟩ | ⟨s, -, hfree, hsave, -, rfl⟩
  · exact h
  · have hkeeps := h.apart.of_keeps (keepsDirectories_of_save hsave) rfl rfl
    simp only [save, h.path] at hsave
    exact ⟨h.path, hsound, (Snapshot.sameFile_of_save_error happart hsave).readText h.text, hkeeps⟩
  · exact ⟨h.path, hsound, readText_of_save h.sound.keyed h.path hfree hsave,
      h.apart.of_keeps (keepsDirectories_of_save hsave) rfl rfl⟩

theorem record (h : e.InStep disk p) (fault : Option WriteFault) (v : Evaluation) :
    (e.record disk fault v).2.1.InStep (e.record disk fault v).2.2 p := by
  have hkeeps := e.log.append_keepsDirectories disk fault v.decision
  refine ⟨h.path, h.sound, ?_, h.apart.of_keeps hkeeps (e.log.append_handle _ _ _) rfl⟩
  refine Disk.readText_of_stands h.text fun place number content hl hn => ?_
  have happart : ∀ handle ∈ e.log.handle?, place ≠ handle.place := by
    rintro handle hmem rfl
    exact h.apart handle hmem p h.path disk (fun _ hq => hq) p (by simp) hl
  exact ⟨Disk.locate_of_keeps hkeeps hl,
    (e.log.append_elsewhere disk fault v.decision happart).trans hn⟩

theorem call (h : e.InStep disk p) (happart : (Snapshot.temporary p).plain ≠ p.plain) {c : Call}
    (htimely : c.Timely) : (e.call disk c).2.1.InStep (e.call disk c).2.2 p := by
  refine call_invariant (P := fun e disk => e.InStep disk p) ?_
    (fun fault v => (·.record fault v)) h
  rintro e e' disk disk' now interruption d result rfl hstep hdefine
  exact hstep.define happart htimely hdefine

/-- A whole run: registry and file stay in step, whatever succeeds and whatever fails. -/
theorem run (h : e.InStep disk p) (happart : (Snapshot.temporary p).plain ≠ p.plain)
    {calls : List Call} (htimely : ∀ c ∈ calls, c.Timely) :
    (e.run disk calls).2.1.InStep (e.run disk calls).2.2 p :=
  run_invariant (P := fun e disk => e.InStep disk p)
    (fun c hc hstep => hstep.call happart (htimely c hc)) h

end InStep

end Rulebook.Engine
