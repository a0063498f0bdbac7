import Rulebook.Registry
import Rulebook.Proofs.Definition
import Rulebook.Proofs.Table
/-!
Registries and what is loaded into them. A registry holds compiled rule sets, each under its own
identifier; of rule sets that were written, it takes those back whose constants are finite.
-/

set_option autoImplicit false

namespace Rulebook

namespace Registry

def Keyed (g : Registry) : Prop := ∀ e ∈ g.table.entries, e.1 = e.2.id

/-- Rule sets stand under their own identifiers, and each came out of the compiler. -/
structure Sound (g : Registry) : Prop where
  keyed : g.Keyed
  compiled : ∀ e ∈ g.table.entries, e.2.Compiled

theorem keyed_empty : Keyed empty := fun _ he => by cases he

theorem sound_empty : Sound empty := ⟨keyed_empty, fun _ he => by cases he⟩

theorem list_empty : empty.list = [] := by simp [list, empty, Table.values, Table.empty]

theorem list_perm (g : Registry) : g.list.Perm g.table.values := List.mergeSort_perm _ _

variable {g : Registry}

theorem insert_eq_ok {g' : Registry} {s : RuleSet} :
    g.insert s = .ok g' ↔ g.contains s.id = false ∧ g' = ⟨g.table.insert s.id s⟩ := by
  unfold insert
  cases g.contains s.id <;> simp [eq_comm]

theorem get?_insert_of_free {s t : RuleSet} {id : String} (hfree : g.contains s.id = false)
    (ht : g.get? id = some t) : get? ⟨g.table.insert s.id s⟩ id = some t := by
  rw [get?, Table.get?_insert, if_neg, ← get?, ht]
  rintro rfl
  rw [contains, Table.contains, ← get?, ht] at hfree
  cases hfree

theorem entries_insert_perm {s : RuleSet} (hfree : g.contains s.id = false) :
    (g.table.insert s.id s).entries.Perm ((s.id, s) :: g.table.entries) :=
  Entries.insert_perm s (Table.contains_eq_false.1 hfree)

namespace Keyed

theorem entries_eq {α : Type} (h : g.Keyed) (f : RuleSet → α) :
    (g.table.values.map fun s => (s.id, f s)) = g.table.entries.map fun e => (e.1, f e.2) := by
  rw [Table.values, List.map_map]
  refine List.map_congr_left fun e he => ?_
  simp [h e he]

theorem increasing {α : Type} (h : g.Keyed) (f : RuleSet → α) :
    Entries.Increasing (g.table.values.map fun s => (s.id, f s)) := by
  rw [h.entries_eq f, Entries.Increasing, List.map_map]
  exact g.table.increasing

theorem entries_ofList {α : Type} (h : g.Keyed) {sets : List RuleSet}
    (hp : sets.Perm g.table.values) (f : RuleSet → α) :
    (Table.ofList (sets.map fun s => (s.id, f s))).entries =
      g.table.values.map fun s => (s.id, f s) := by
  have hincreasing := h.increasing f
  rw [← Table.ofList_perm (hp.map _).symm hincreasing.nodup, Table.entries_ofList hincreasing]

theorem insert (h : g.Keyed) {s : RuleSet} (hfree : g.contains s.id = false) :
    Keyed ⟨g.table.insert s.id s⟩ ∧ (g.list ++ [s]).Perm (g.table.insert s.id s).values := by
  have hperm := entries_insert_perm hfree
  refine ⟨fun e he => ?_, ?_⟩
  · rcases List.mem_cons.1 (hperm.mem_iff.1 he) with rfl | he
    · rfl
    · exact h e he
  · calc
      (g.list ++ [s]).Perm (g.table.values ++ [s]) := g.list_perm.append_right [s]
      List.Perm _ (s :: g.table.values) := List.perm_append_singleton s _
      List.Perm _ (g.table.insert s.id s).values := (hperm.map Prod.snd).symm

end Keyed

namespace Sound

theorem mem_list (h : g.Sound) {s : RuleSet} (hs : s ∈ g.list) : s.Compiled := by
  obtain ⟨e, he, rfl⟩ := List.mem_map.1 (g.list_perm.mem_iff.1 hs)
  exact h.compiled e he

theorem list_nodup (h : g.Sound) : (g.list.map (·.id)).Nodup := by
  have hnodup := (h.keyed.increasing fun s => s).nodup
  rw [List.map_map] at hnodup
  exact ((g.list_perm.map _).nodup_iff).2 hnodup

theorem contains_filter (h : g.Sound) (q : RuleSet → Bool) {s : RuleSet} (hs : s ∈ g.list) :
    ((g.list.filter q).map (·.id)).contains s.id = q s := by
  rw [Bool.eq_iff_iff, List.contains_iff_mem, List.mem_map]
  constructor
  · rintro ⟨t, ht, hid⟩
    obtain ⟨ht, hq⟩ := List.mem_filter.1 ht
    rwa [← List.inj_on_of_nodup_map h.list_nodup ht hs hid]
  · exact fun hq => ⟨s, List.mem_filter.2 ⟨hs, hq⟩, rfl⟩

theorem ofList_list (h : g.Sound) : Table.ofList (g.list.map fun s => (s.id, s)) = g.table := by
  refine Table.ext ?_
  rw [h.keyed.entries_ofList g.list_perm fun s => s, h.keyed.entries_eq fun s => s, List.map_id']

theorem insert (h : g.Sound) {s : RuleSet} (hfree : g.contains s.id = false) (hs : s.Compiled) :
    Sound ⟨g.table.insert s.id s⟩ ∧
      (g.list ++ [s]).Perm (g.table.insert s.id s).values := by
  obtain ⟨hkeyed, hlist⟩ := h.keyed.insert hfree
  have hperm := entries_insert_perm hfree
  refine ⟨⟨hkeyed, fun e he => ?_⟩, hlist⟩
  rcases List.mem_cons.1 (hperm.mem_iff.1 he) with rfl | he
  · exact hs
  · exact h.compiled e he

end Sound

theorem prepare_eq_ok {g : Registry} {now : Instant} {d : Definition} {s : RuleSet} :
    g.prepare now d = .ok s ↔ g.contains d.id = false ∧ d.compile now = .ok s := by
  unfold prepare
  cases g.contains d.id <;> simp

theorem compiled_of_prepare {g : Registry} {now : Instant} {d : Definition} {s : RuleSet}
    (h : g.prepare now d = .ok s) (hnow : now.Valid) (hd : ∀ t ∈ d.definedAt, t.Valid) :
    s.Compiled :=
  RuleSet.compiled_of_compile (prepare_eq_ok.1 h).2 hnow hd

theorem define_eq_ok {g g' : Registry} {now : Instant} {d : Definition} {s : RuleSet} :
    g.define now d = .ok (s, g') ↔ g.prepare now d = .ok s ∧ g.insert s = .ok g' := by
  constructor
  · intro h
    obtain ⟨s', hprepare, h⟩ := bind_eq_ok.1 h
    obtain ⟨g'', hinsert, h⟩ := bind_eq_ok.1 h
    cases h
    exact ⟨hprepare, hinsert⟩
  · rintro ⟨hprepare, hinsert⟩
    exact bind_eq_ok.2 ⟨s, hprepare, bind_eq_ok.2 ⟨g', hinsert, rfl⟩⟩

theorem Keyed.of_insert {g g' : Registry} (h : g.Keyed) {s : RuleSet} (hs : g.insert s = .ok g') :
    g'.Keyed := by
  obtain ⟨hfree, rfl⟩ := insert_eq_ok.1 hs
  exact (h.insert hfree).1

/-- A definition that was written defines the rule set it was written for, or nothing. -/
theorem define_written {g : Registry} {s : RuleSet} (hs : s.Compiled)
    (hfree : g.contains s.id = false) (now : Instant) :
    (s.isFinite = true →
      g.define now s.toDefinition.written = .ok (s, ⟨g.table.insert s.id s⟩)) ∧
    (s.isFinite = false → ∃ reason, g.define now s.toDefinition.written = .error reason) := by
  have hprepare : g.prepare now s.toDefinition.written = s.toDefinition.written.compile now := by
    rw [prepare, RuleSet.written_id, hfree, if_neg Bool.false_ne_true]
  refine ⟨fun hfinite => bind_eq_ok.2 ⟨s, ?_, bind_eq_ok.2 ⟨_, ?_, rfl⟩⟩, fun hfinite => ?_⟩
  · rw [hprepare, hs.compile_written hfinite]
  · rw [insert, hfree, if_neg Bool.false_ne_true]
  · cases hw : s.toDefinition.written.compile now with
    | ok s' => simp [RuleSet.isFinite_of_compile_written hw] at hfinite
    | error reason => exact ⟨reason, by simp [define, hprepare, hw, bind, Except.bind]⟩

/-- Of written rule sets those are loaded whose constants are finite. -/
theorem loadFrom_written (clock : Nat → Instant) (k : Nat) (g : Registry) {sets : List RuleSet}
    (hs : ∀ s ∈ sets, s.Compiled) (hfree : ∀ s ∈ sets, g.contains s.id = false)
    (hd : (sets.map (·.id)).Nodup) :
    loadFrom clock k g (sets.map fun s => s.toDefinition.written) =
      (⟨g.table.insertAll ((sets.filter RuleSet.isFinite).map fun s => (s.id, s))⟩,
        (sets.filter RuleSet.isFinite).map (·.id)) := by
  induction sets generalizing k g with
  | nil => rfl
  | cons s sets ih =>
    obtain ⟨hs, hss⟩ := List.forall_mem_cons.1 hs
    obtain ⟨hsfree, hfree⟩ := List.forall_mem_cons.1 hfree
    obtain ⟨hnew, hd⟩ := List.nodup_cons.1 hd
    obtain ⟨hok, herror⟩ := define_written hs hsfree (clock k)
    -- Passed over or not, the identifiers that come later stay free.
    cases hfinite : s.isFinite with
    | true =>
      have hstill : ∀ t ∈ sets, Registry.contains ⟨g.table.insert s.id s⟩ t.id = false := by
        intro t ht
        have hne : t.id ≠ s.id := fun he => hnew (List.mem_map.2 ⟨t, ht, he⟩)
        rw [contains, Table.contains_insert_of_ne _ s hne]
        exact hfree t ht
      simp [loadFrom, hok hfinite, ih (k + 1) _ hss hstill hd, hfinite, Table.insertAll]
    | false =>
      obtain ⟨reason, hrefused⟩ := herror hfinite
      simp [loadFrom, hrefused, ih (k + 1) _ hss hfree hd, hfinite]

/-- All rule sets of a registry, written and loaded into an empty one. -/
theorem Sound.loadBatch_written (h : g.Sound) (hfinite : ∀ s ∈ g.list, s.isFinite = true)
    (clock : Nat → Instant) :
    empty.loadBatch clock (g.list.map fun s => s.toDefinition.written) =
      (g, g.list.map (·.id)) := by
  have hload := loadFrom_written clock 0 empty (fun s => h.mem_list (s := s)) (fun s _ => rfl)
    h.list_nodup
  have htable : empty.table.insertAll (g.list.map fun s => (s.id, s)) = g.table := h.ofList_list
  rw [loadBatch, hload, List.filter_eq_self.2 hfinite, htable]

end Registry

end Rulebook
