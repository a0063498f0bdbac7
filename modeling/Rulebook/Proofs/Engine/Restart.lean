import Rulebook.Proofs.Engine.Calls
import Rulebook.Proofs.Saving
/-!
Restarting. Every definition that an engine accepts is in its snapshot file, so another engine that
starts from this file has the same rule sets, unless a constant of theirs is not finite: then it does
not start.
-/

set_option autoImplicit false

namespace Rulebook.Engine

def defineAll (e : Engine) (disk : Disk) :
    List (Instant × Definition) → List (Except EngineError RuleSet) × Engine × Disk
  | [] => ([], e, disk)
  | (now, d) :: rest =>
    let (result, e, disk) := e.define disk now none d
    let (results, e, disk) := defineAll e disk rest
    (result :: results, e, disk)

/-- The snapshot file is that of the registry. As long as there are no rule sets there may be none. -/
structure Saved (e : Engine) (disk : Disk) (p : Path) : Prop where
  path : e.snapshot = some p
  sound : e.registry.Sound
  stored : e.registry = .empty ∧ disk.read p = .error .notFound ∨
    disk.readText p = .ok (Snapshot.text e.registry.list)

namespace Saved

variable {e e' : Engine} {disk disk' : Disk} {p : Path}

theorem define (h : e.Saved disk p) {now : Instant} {d : Definition}
    {result : Except EngineError RuleSet} (hnow : now.Valid) (hd : ∀ t ∈ d.definedAt, t.Valid)
    (hdefine : e.define disk now none d = (result, e', disk'))
    (hfiles : ∀ err, result ≠ .error (.snapshot err)) : e'.Saved disk' p := by
  rcases define_cases hdefine with
    ⟨_, -, -, rfl, rfl⟩ | ⟨_, reason, -, -, rfl, -⟩ | ⟨s, hprepare, hfree, hsave, -, rfl⟩
  · exact h
  · exact absurd rfl (hfiles reason)
  · simp only [Engine.save, h.path] at hsave
    have hcompiled := Registry.compiled_of_prepare hprepare hnow hd
    exact ⟨h.path, (h.sound.insert hfree hcompiled).1,
      .inr (Snapshot.readText_of_save_insert h.sound.keyed hfree hsave)⟩

theorem defineAll (h : e.Saved disk p) {calls : List (Instant × Definition)}
    {results : List (Except EngineError RuleSet)}
    (htimes : ∀ c ∈ calls, c.1.Valid ∧ ∀ t ∈ c.2.definedAt, t.Valid)
    (hrun : e.defineAll disk calls = (results, e', disk'))
    (hfiles : ∀ r ∈ results, ∀ err, r ≠ .error (.snapshot err)) : e'.Saved disk' p := by
  induction calls generalizing e disk results with
  | nil =>
    cases hrun
    exact h
  | cons c calls ih =>
    obtain ⟨now, d⟩ := c
    obtain ⟨⟨hnow, hd⟩, htimes⟩ := List.forall_mem_cons.1 htimes
    obtain ⟨result, e₁, disk₁, hdefine⟩ : ∃ result e₁ disk₁,
        e.define disk now none d = (result, e₁, disk₁) := ⟨_, _, _, rfl⟩
    obtain ⟨later, e₂, disk₂, hlater⟩ : ∃ later e₂ disk₂,
        e₁.defineAll disk₁ calls = (later, e₂, disk₂) := ⟨_, _, _, rfl⟩
    simp only [Engine.defineAll, hdefine, hlater, Prod.mk.injEq] at hrun
    obtain ⟨rfl, rfl, rfl⟩ := hrun
    obtain ⟨hfirst, hfiles⟩ := List.forall_mem_cons.1 hfiles
    exact ih (h.define hnow hd hdefine hfirst) htimes hlater hfiles

theorem load (h : e.Saved disk p) :
    Snapshot.load disk p = .ok (e.registry.list.map fun s => s.toDefinition.written) := by
  rcases h.stored with ⟨hempty, hnone⟩ | hstored
  · rw [Snapshot.load, Disk.readText, hnone, hempty, Registry.list_empty]
    rfl
  · exact Snapshot.load_of_readText h.sound hstored

end Saved

theorem register_written {g : Registry} (h : g.Sound) (clock : Nat → Instant) :
    register .empty clock (g.list.map fun s => s.toDefinition.written) =
      if g.list.all RuleSet.isFinite then .ok g
      else .error (.rejected ((g.list.filter fun s => !s.isFinite).map (·.id))) := by
  by_cases hfinite : g.list.all RuleSet.isFinite = true
  · have hload := h.loadBatch_written (List.all_eq_true.1 hfinite) clock
    simp [register, hload, hfinite]
  · have hload := Registry.loadFrom_written clock 0 .empty (fun s => h.mem_list (s := s))
      (fun s _ => rfl) h.list_nodup
    simp only [register, Registry.loadBatch, hload, List.length_map,
      List.length_filter_eq_length_iff, ← List.all_eq_true]
    rw [if_neg hfinite, if_neg hfinite, List.map_map, List.filter_map]
    congr 3
    exact List.filter_congr fun s hs => congrArg not (h.contains_filter RuleSet.isFinite hs)

theorem saved_of_restore {disk : Disk} {p : Path} {e : Engine} {clock : Nat → Instant}
    {traced : Bool} {log : DecisionLog} (hnone : disk.read p = .error .notFound)
    (hstart : restore ⟨.empty, traced, log, none⟩ clock disk p = .ok e) : e.Saved disk p := by
  have hload : Snapshot.load disk p = .ok [] := by
    rw [Snapshot.load, Disk.readText, hnone]
  rw [restore, hload] at hstart
  cases hstart
  exact ⟨rfl, Registry.sound_empty, .inl ⟨rfl, hnone⟩⟩

theorem restore_of_saved {e : Engine} {disk : Disk} {p : Path} (h : e.Saved disk p)
    {again : Engine} (hempty : again.registry = .empty) (clock : Nat → Instant) :
    again.restore clock disk p =
      if e.registry.list.all RuleSet.isFinite then
        .ok { again with registry := e.registry, snapshot := some p }
      else .error (.snapshot (.rejected
        ((e.registry.list.filter fun s => !s.isFinite).map (·.id)))) := by
  have hrestore : again.restore clock disk p =
      ((register .empty clock (e.registry.list.map fun s => s.toDefinition.written)).mapError
        .snapshot).bind fun g => .ok { again with registry := g, snapshot := some p } := by
    rw [restore, h.load, hempty]
    rfl
  rw [hrestore, register_written h.sound]
  split <;> rfl

/-- An engine starts where no snapshot file stands, and definitions are handed in, accepted or not.
Another engine that starts from the file has the same rule sets in the same order exactly if their
constants are finite; otherwise it does not start. -/
theorem restart_restores_iff {disk disk₁ : Disk} {p : Path} {e e₁ : Engine}
    {clock : Nat → Instant} {traced : Bool} {log : DecisionLog}
    {calls : List (Instant × Definition)} {results : List (Except EngineError RuleSet)}
    (hnone : disk.read p = .error .notFound)
    (hstart : restore ⟨.empty, traced, log, none⟩ clock disk p = .ok e)
    (hrun : e.defineAll disk calls = (results, e₁, disk₁))
    (hfiles : ∀ r ∈ results, ∀ err, r ≠ .error (.snapshot err))
    (htimes : ∀ c ∈ calls, c.1.Valid ∧ ∀ t ∈ c.2.definedAt, t.Valid)
    (clock' : Nat → Instant) (traced' : Bool) (log' : DecisionLog) :
    ((∃ e₂, restore ⟨.empty, traced', log', none⟩ clock' disk₁ p = .ok e₂ ∧
      e₂.registry.list = e₁.registry.list) ↔ ∀ s ∈ e₁.registry.list, s.isFinite = true) ∧
    ((∃ s ∈ e₁.registry.list, s.isFinite = false) →
      restore ⟨.empty, traced', log', none⟩ clock' disk₁ p = .error (.snapshot (.rejected
        ((e₁.registry.list.filter fun s => !s.isFinite).map (·.id))))) := by
  have hsaved := (saved_of_restore hnone hstart).defineAll htimes hrun hfiles
  have hagain : (Engine.mk .empty traced' log' none).registry = .empty := rfl
  rw [restore_of_saved hsaved hagain clock', ← List.all_eq_true]
  by_cases hfinite : e₁.registry.list.all RuleSet.isFinite = true
  · rw [if_pos hfinite]
    refine ⟨⟨fun _ => hfinite, fun _ => ⟨_, rfl, rfl⟩⟩, ?_⟩
    rintro ⟨s, hs, hlost⟩
    simp [List.all_eq_true.1 hfinite s hs] at hlost
  · rw [if_neg hfinite]
    refine ⟨⟨?_, fun h => absurd h hfinite⟩, fun _ => rfl⟩
    rintro ⟨e₂, hrefused, -⟩
    cases hrefused

def withConstant (id : String) (x : Float) : Definition where
  id := id
  name := id
  description := none
  rules := [⟨"any", "any", .list [.structured "amount" ">=" (.number (.integer 0))], .action "ok"⟩]
  mode := .firstMatch
  fallback := none
  derived := [.constant "limit" (.number x)]
  definedAt := none

def firstCalls : List (Instant × Definition) :=
  [(.epoch, withConstant "bounded" (Binary64.ofInt 1)),
    (.epoch, withConstant "boundless" (Binary64.ofMagnitude false Binary64.infinityBits))]

def fresh : Engine := ⟨.empty, false, .empty, some ["rulesets.json"]⟩

theorem restart_restores_iff_boundless :
    (fresh.defineAll .empty firstCalls).1.all (·.isOk) = true ∧
      restore .empty (fun _ => .epoch) (fresh.defineAll .empty firstCalls).2.2 ["rulesets.json"] =
        .error (.snapshot (.rejected ["boundless"])) := by
  have hall : (fresh.defineAll .empty firstCalls).1.all (·.isOk) = true := by decide +kernel
  have hnone : Disk.empty.read ["rulesets.json"] = .error .notFound := by decide +kernel
  have hstart : restore .empty (fun _ => .epoch) .empty ["rulesets.json"] = .ok fresh := rfl
  have hfiles : ∀ r ∈ (fresh.defineAll .empty firstCalls).1, ∀ err,
      r ≠ .error (.snapshot err) := by
    rintro _ hr err rfl
    exact absurd (List.all_eq_true.1 hall _ hr) Bool.false_ne_true
  have htimes : ∀ c ∈ firstCalls, c.1.Valid ∧ ∀ t ∈ c.2.definedAt, t.Valid := by
    have hepoch : Instant.epoch.Valid := ⟨by decide, by decide, by decide, by decide⟩
    simp [firstCalls, withConstant, hepoch]
  have hvalues : ((fresh.defineAll .empty firstCalls).2.1.registry.table.values.filter fun s =>
      !s.isFinite).map (·.id) = ["boundless"] := by decide +kernel
  have hlost : ((fresh.defineAll .empty firstCalls).2.1.registry.list.filter fun s =>
      !s.isFinite).map (·.id) = ["boundless"] := by
    rw [← List.perm_singleton, ← hvalues]
    exact ((Registry.list_perm _).filter _).map _
  obtain ⟨s, hs, -⟩ : ∃ s ∈ (fresh.defineAll .empty firstCalls).2.1.registry.list.filter fun s =>
      !s.isFinite, s.id = "boundless" := List.mem_map.1 (hlost ▸ List.mem_singleton_self _)
  obtain ⟨hs, hinfinite⟩ := List.mem_filter.1 hs
  have hrefused := (restart_restores_iff hnone hstart rfl hfiles htimes (fun _ => .epoch) false
    .empty).2 ⟨s, hs, by simpa using hinfinite⟩
  rw [hlost] at hrefused
  exact ⟨hall, hrefused⟩

end Rulebook.Engine
