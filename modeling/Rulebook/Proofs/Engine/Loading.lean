import Rulebook.Engine.Basic
import Rulebook.Proofs.Registry
/-!
Loading all of a snapshot or nothing. Definitions are registered one after the other, and only if
none of them was passed over does the engine start; so each compiles, under an identifier of its own.
-/

set_option autoImplicit false

namespace Rulebook

namespace Registry

theorem define_iff {g g' : Registry} {now : Instant} {d : Definition} {s : RuleSet} :
    g.define now d = .ok (s, g') ↔
      g.contains d.id = false ∧ d.compile now = .ok s ∧ g' = ⟨g.table.insert s.id s⟩ := by
  rw [define_eq_ok, prepare_eq_ok, insert_eq_ok]
  constructor
  · rintro ⟨⟨hfree, hcompile⟩, -, rfl⟩
    exact ⟨hfree, hcompile, rfl⟩
  · rintro ⟨hfree, hcompile, rfl⟩
    exact ⟨⟨hfree, hcompile⟩, by rwa [Definition.id_of_compile hcompile], rfl⟩

/-- Definitions are registered one after the other, and none of them is passed over. -/
inductive Registers (clock : Nat → Instant) : Nat → Registry → List Definition → Registry → Prop
  | nil {k : Nat} {g : Registry} : Registers clock k g [] g
  | cons {k : Nat} {g g₁ g' : Registry} {d : Definition} {ds : List Definition} {s : RuleSet}
      (define : g.define (clock k) d = .ok (s, g₁)) (rest : Registers clock (k + 1) g₁ ds g') :
      Registers clock k g (d :: ds) g'

variable {clock : Nat → Instant} {k : Nat} {g g' : Registry} {ds : List Definition}

theorem length_loadFrom_le (clock : Nat → Instant) (k : Nat) (g : Registry)
    (ds : List Definition) : (loadFrom clock k g ds).2.length ≤ ds.length := by
  induction ds generalizing k g with
  | nil => exact le_rfl
  | cons d ds ih =>
    unfold loadFrom
    split
    · exact Nat.succ_le_succ (ih _ _)
    · exact Nat.le_succ_of_le (ih _ _)

/-- As many identifiers as definitions: the comparison that guards a start. -/
theorem registers_iff :
    Registers clock k g ds g' ↔
      (loadFrom clock k g ds).1 = g' ∧ (loadFrom clock k g ds).2.length = ds.length := by
  induction ds generalizing k g with
  | nil =>
    constructor
    · rintro ⟨⟩
      exact ⟨rfl, rfl⟩
    · rintro ⟨rfl, -⟩
      exact .nil
  | cons d ds ih =>
    unfold loadFrom
    cases hdefine : g.define (clock k) d with
    | ok made =>
      obtain ⟨s, g₁⟩ := made
      simp only [List.length_cons, Nat.add_right_cancel_iff, ← ih]
      constructor
      · rintro (_ | ⟨hdefine', rest⟩)
        rw [hdefine] at hdefine'
        cases hdefine'
        exact rest
      · exact .cons hdefine
    | error reason =>
      refine iff_of_false ?_ fun h => ?_
      · rintro (_ | ⟨hdefine', -⟩)
        rw [hdefine] at hdefine'
        cases hdefine'
      · have hle := length_loadFrom_le clock (k + 1) g ds
        have hlength : (loadFrom clock (k + 1) g ds).2.length = ds.length + 1 := h.2
        omega

namespace Registers

theorem keeps (h : Registers clock k g ds g') {id : String} {s : RuleSet}
    (hs : g.get? id = some s) : g'.get? id = some s := by
  induction h with
  | nil => exact hs
  | cons hdefine _ ih =>
    obtain ⟨hfree, hcompile, rfl⟩ := define_iff.1 hdefine
    rw [← Definition.id_of_compile hcompile] at hfree
    exact ih (get?_insert_of_free hfree hs)

theorem found (h : Registers clock k g ds g') {d : Definition} (hd : d ∈ ds) :
    ∃ now s, d.compile now = .ok s ∧ g'.get? d.id = some s := by
  induction h with
  | nil => cases hd
  | cons hdefine hrest ih =>
    rcases List.mem_cons.1 hd with rfl | hd
    · obtain ⟨-, hcompile, rfl⟩ := define_iff.1 hdefine
      refine ⟨_, _, hcompile, hrest.keeps ?_⟩
      rw [get?, Table.get?_insert, if_pos (Definition.id_of_compile hcompile).symm]
    · exact ih hd

theorem keyed (h : Registers clock k g ds g') (hg : g.Keyed) : g'.Keyed := by
  induction h with
  | nil => exact hg
  | cons hdefine _ ih => exact ih (hg.of_insert (define_eq_ok.1 hdefine).2)

theorem sound (h : Registers clock k g ds g') (hg : g.Sound) (hclock : ∀ k, (clock k).Valid)
    (htimes : ∀ d ∈ ds, ∀ t ∈ d.definedAt, t.Valid) : g'.Sound := by
  induction h with
  | nil => exact hg
  | @cons k g g₁ g' d ds s hdefine _ ih =>
    obtain ⟨hfree, hcompile, rfl⟩ := define_iff.1 hdefine
    obtain ⟨htime, htimes⟩ := List.forall_mem_cons.1 htimes
    rw [← Definition.id_of_compile hcompile] at hfree
    exact ih (hg.insert hfree (RuleSet.compiled_of_compile hcompile (hclock k) htime)).1 htimes

end Registers

theorem contains_insert_eq_false {s : RuleSet} {id : String} :
    Registry.contains ⟨g.table.insert s.id s⟩ id = false ↔
      id ≠ s.id ∧ g.contains id = false := by
  rw [contains, contains, Table.contains, Table.contains, Table.get?_insert]
  by_cases hid : id = s.id <;> simp [hid]

/-- All definitions can be registered if each compiles, under a free identifier of its own. -/
theorem exists_registers_iff :
    (∃ g', Registers clock k g ds g') ↔
      (∀ d ∈ ds, ∃ now s, d.compile now = .ok s) ∧ (ds.map (·.id)).Nodup ∧
        ∀ d ∈ ds, g.contains d.id = false := by
  induction ds generalizing k g with
  | nil => exact iff_of_true ⟨g, .nil⟩ ⟨by simp, by simp, by simp⟩
  | cons d ds ih =>
    simp only [List.forall_mem_cons, List.map_cons, List.nodup_cons, List.mem_map, not_exists,
      not_and]
    constructor
    · rintro ⟨g', _ | ⟨hdefine, hrest⟩⟩
      obtain ⟨hfree, hcompile, rfl⟩ := define_iff.1 hdefine
      obtain ⟨hcompiles, hnodup, hlater⟩ := ih.1 ⟨g', hrest⟩
      have hlater' := fun d' hd' => contains_insert_eq_false.1 (hlater d' hd')
      refine ⟨⟨⟨_, _, hcompile⟩, hcompiles⟩, ⟨fun d' hd' => ?_, hnodup⟩, hfree,
        fun d' hd' => (hlater' d' hd').2⟩
      rw [← Definition.id_of_compile hcompile]
      exact (hlater' d' hd').1
    · rintro ⟨⟨⟨now, s, hcompile⟩, hcompiles⟩, ⟨hnew, hnodup⟩, hfree, hfrees⟩
      have hnow := Definition.compile_at hcompile (clock k)
      have hid := Definition.id_of_compile hnow
      obtain ⟨g', hrest⟩ := ih.2 ⟨hcompiles, hnodup, fun d' hd' =>
        contains_insert_eq_false.2 ⟨hid ▸ hnew d' hd', hfrees d' hd'⟩⟩
      exact ⟨g', .cons (define_iff.2 ⟨hfree, hnow, rfl⟩) hrest⟩

end Registry

namespace Engine

theorem register_eq_ok {g g' : Registry} {clock : Nat → Instant} {ds : List Definition} :
    register g clock ds = .ok g' ↔ Registry.Registers clock 0 g ds g' := by
  rw [Registry.registers_iff, register, Registry.loadBatch]
  generalize Registry.loadFrom clock 0 g ds = loaded
  obtain ⟨g₁, ids⟩ := loaded
  dsimp only
  split
  · rename_i hlength
    simp [hlength]
  · rename_i hlength
    refine iff_of_false (fun h => ?_) fun h => hlength h.2
    cases h

variable {e e' : Engine} {disk : Disk} {p : Path}

theorem restore_eq_ok {clock : Nat → Instant} :
    e.restore clock disk p = .ok e' ↔ ∃ ds g, Snapshot.load disk p = .ok ds ∧
      Registry.Registers clock 0 e.registry ds g ∧
        e' = { e with registry := g, snapshot := some p } := by
  constructor
  · intro h
    obtain ⟨ds, hload, h⟩ := bind_eq_ok.1 h
    obtain ⟨g, hregister, h⟩ := bind_eq_ok.1 h
    cases h
    exact ⟨ds, g, mapError_eq_ok.1 hload, register_eq_ok.1 (mapError_eq_ok.1 hregister), rfl⟩
  · rintro ⟨ds, g, hload, hregisters, rfl⟩
    refine bind_eq_ok.2 ⟨ds, mapError_eq_ok.2 hload, bind_eq_ok.2 ⟨g, ?_, rfl⟩⟩
    exact mapError_eq_ok.2 (register_eq_ok.2 hregisters)

/-- An engine starts if all definitions of the file compile, under identifiers that are free and
not given twice. -/
theorem exists_restore_iff (clock : Nat → Instant) :
    (∃ e', e.restore clock disk p = .ok e') ↔ ∃ ds, Snapshot.load disk p = .ok ds ∧
      (∀ d ∈ ds, ∃ now s, d.compile now = .ok s) ∧ (ds.map (·.id)).Nodup ∧
        ∀ d ∈ ds, e.registry.contains d.id = false := by
  simp only [restore_eq_ok, ← @Registry.exists_registers_iff clock 0 e.registry]
  constructor
  · rintro ⟨_, ds, g, hload, hregisters, -⟩
    exact ⟨ds, hload, g, hregisters⟩
  · rintro ⟨ds, hload, g, hregisters⟩
    exact ⟨_, ds, g, hload, hregisters, rfl⟩

end Engine

end Rulebook
