import Mathlib.Data.String.Basic
import Rulebook.Proofs.Engine.Restart
import Rulebook.Proofs.Order
import Rulebook.Proofs.Registrations
import Rulebook.Proofs.Saving
/-!
The order in which rule sets are listed. It depends on the rule sets alone: not on the order in
which they were defined, nor on that in which the table is gone through. Main statement: definitions
are listed once each, by time of definition and then by identifier, and a registry that is loaded
from a snapshot is listed the same way.
-/

set_option autoImplicit false

namespace Rulebook

namespace RuleSet

def order : RuleSet → RuleSet → Ordering := compareLex (compareOn (·.definedAt)) (compareOn (·.id))

instance : Std.TransCmp order :=
  inferInstanceAs (Std.TransCmp (compareLex (compareOn definedAt) (compareOn id)))

def Before (s t : RuleSet) : Prop :=
  compare s.definedAt t.definedAt = .lt ∨ s.definedAt = t.definedAt ∧ s.id < t.id

variable {s t : RuleSet}

theorem order_eq (s t : RuleSet) :
    s.order t = (compare s.definedAt t.definedAt).then (compare s.id t.id) := rfl

theorem order_swap (s t : RuleSet) : s.order t = (t.order s).swap := Std.OrientedCmp.eq_swap

theorem before_iff : s.Before t ↔ s.order t = .lt := by
  rw [order_eq, Ordering.then_eq_lt, Std.compare_eq_iff_eq, compare_lt_iff_lt]
  rfl

theorem id_eq_of_order (h : s.order t = .eq) : s.id = t.id := by
  rw [order_eq, Ordering.then_eq_eq] at h
  exact Std.compare_eq_iff_eq.1 h.2

theorem earlier_eq (s t : RuleSet) : Registry.earlier s t = (s.order t).isLE := by
  have hids : decide (s.id ≤ t.id) = (compare s.id t.id).isLE := by
    rw [Bool.eq_iff_iff, decide_eq_true_iff, ← compare_le_iff_le, Ordering.isLE_iff_ne_gt]
  rw [Registry.earlier, order_eq, hids]
  cases compare s.definedAt t.definedAt <;> rfl

theorem before_of_earlier (h : Registry.earlier s t = true) (hne : s.id ≠ t.id) : s.Before t := by
  rw [earlier_eq] at h
  rw [before_iff]
  cases ho : s.order t with
  | lt => rfl
  | eq => exact absurd (id_eq_of_order ho) hne
  | gt => simp [ho] at h

theorem id_eq_of_earlier (h : Registry.earlier s t = true) (h' : Registry.earlier t s = true) :
    s.id = t.id := by
  rw [earlier_eq] at h h'
  exact id_eq_of_order (Std.OrientedCmp.isLE_antisymm h h')

theorem sorted_mergeSort (sets : List RuleSet) :
    (sets.mergeSort Registry.earlier).Pairwise fun s t => Registry.earlier s t = true := by
  refine List.pairwise_mergeSort (fun s t u hst htu => ?_) (fun s t => ?_) sets
  · rw [earlier_eq] at hst htu ⊢
    exact Std.TransCmp.isLE_trans hst htu
  · rw [earlier_eq, earlier_eq, order_swap t]
    cases s.order t <;> rfl

theorem not_before (h : s.Before t) : ¬ t.Before s := by
  rw [before_iff] at h
  rw [before_iff, order_swap, h]
  decide

theorem ne_of_before (h : s.Before t) : s ≠ t := by
  rintro rfl
  exact not_before h h

end RuleSet

namespace Definition

/-- It compiles, and its time and its numbers come back when they are written. -/
structure Lasting (d : Definition) : Prop where
  compiles : d.compiles = true
  time : ∃ t, d.definedAt = some t ∧ t.Valid
  finite : d.derived.all Derivation.isFinite = true

variable {d : Definition} {now : Instant} {s : RuleSet}

theorem Lasting.compile_at (hd : d.Lasting) (h : d.compile now = .ok s) (later : Instant) :
    d.compile later = .ok s := by
  obtain ⟨t, ht, -⟩ := hd.time
  have htime : s.definedAt = t := by rw [definedAt_of_compile h, ht, Option.getD_some]
  rw [Definition.compile_at h later, ht, Option.getD_some, ← htime]

theorem Lasting.writable (hd : d.Lasting) (h : d.compile now = .ok s) :
    s.Compiled ∧ s.isFinite = true := by
  obtain ⟨t, ht, hvalid⟩ := hd.time
  have htime : s.definedAt = t := by rw [definedAt_of_compile h, ht, Option.getD_some]
  refine ⟨⟨compile_toDefinition h, htime ▸ hvalid⟩, ?_⟩
  rw [RuleSet.isFinite, derived_of_compile h]
  exact hd.finite

end Definition

namespace Registry

def definitions (calls : List (Instant × Definition)) : List Operation :=
  calls.map fun c => .define c.1 c.2

/-- In a registry of these definitions, this is the list, and a snapshot keeps it. -/
structure Lists (ds : List Definition) (g : Registry) : Prop where
  registered : ∀ s, s ∈ g.list ↔ g.get? s.id = some s
  compiled : ∀ s, s ∈ g.list ↔ ∃ d ∈ ds, ∀ now, d.compile now = .ok s
  once : (g.list.map (·.id)).Perm (ds.map (·.id))
  increasing : g.list.Pairwise RuleSet.Before
  sorted : ∀ sets, List.Perm sets g.table.values → sets.mergeSort earlier = g.list
  saved : ∀ {disk disk' p interruption},
    Snapshot.save disk p interruption g.list = (.ok (), disk') →
      Snapshot.load disk' p = .ok (g.list.map RuleSet.toDefinition)
  restored : ∀ clock, (empty.loadBatch clock (g.list.map RuleSet.toDefinition)).1.list = g.list ∧
    (empty.loadBatch clock (g.list.map RuleSet.toDefinition)).2 = g.list.map (·.id)

variable {g g' : Registry} {s : RuleSet} {sets : List RuleSet} {ds : List Definition}
  {calls calls' : List (Instant × Definition)}

/-! ## The order of the list -/

namespace Sound

theorem increasing_list (h : g.Sound) : g.list.Pairwise RuleSet.Before :=
  ((RuleSet.sorted_mergeSort _).and (List.pairwise_map.1 h.list_nodup)).imp
    fun hst => RuleSet.before_of_earlier hst.1 hst.2

theorem mergeSort_eq_list (h : g.Sound) (hsets : sets.Perm g.table.values) :
    sets.mergeSort earlier = g.list := by
  have hperm : (sets.mergeSort earlier).Perm g.list :=
    (List.mergeSort_perm _ _).trans (hsets.trans g.list_perm.symm)
  refine hperm.eq_of_pairwise (fun s t hs ht hst hts => ?_) (RuleSet.sorted_mergeSort _)
    (RuleSet.sorted_mergeSort _)
  exact List.inj_on_of_nodup_map h.list_nodup (hperm.mem_iff.1 hs) ht
    (RuleSet.id_eq_of_earlier hst hts)

theorem mem_list_iff (h : g.Sound) : s ∈ g.list ↔ g.get? s.id = some s := by
  rw [g.list_perm.mem_iff, Table.mem_values]
  refine ⟨fun ⟨id, hs⟩ => ?_, fun hs => ⟨_, hs⟩⟩
  have hid : id = s.id := h.keyed _ (Entries.mem_of_lookup hs)
  rw [get?, ← hid, hs]

theorem registerAll (h : g.Sound) (hfresh : g.Fresh sets) (hsets : ∀ s ∈ sets, s.Compiled) :
    (g.registerAll sets).Sound := by
  induction sets generalizing g with
  | nil => exact h
  | cons s sets ih =>
    obtain ⟨hfree, hfresh⟩ := fresh_cons.1 hfresh
    obtain ⟨hs, hsets⟩ := List.forall_mem_cons.1 hsets
    exact ih (h.insert hfree hs).1 hfresh hsets

end Sound

theorem Lists.list_eq (h : Lists ds g) (h' : Lists ds g') : g'.list = g.list := by
  have hnodup : ∀ {g : Registry}, Lists ds g → g.list.Nodup := fun h =>
    h.increasing.imp fun hst => RuleSet.ne_of_before hst
  have hperm : g'.list.Perm g.list := (List.perm_ext_iff_of_nodup (hnodup h') (hnodup h)).2
    fun s => (h'.compiled s).trans (h.compiled s).symm
  exact hperm.eq_of_pairwise (fun s t _ _ hst hts => absurd hts (RuleSet.not_before hst))
    h'.increasing h.increasing

/-! ## Runs of definitions -/

def made (calls : List (Instant × Definition)) : List RuleSet :=
  calls.filterMap fun c => (c.2.compile c.1).toOption

theorem made_cons {now : Instant} {d : Definition} (h : d.compile now = .ok s) :
    made ((now, d) :: calls) = s :: made calls :=
  List.filterMap_cons_some (congrArg Except.toOption h)

theorem mem_made_iff : s ∈ made calls ↔ ∃ c ∈ calls, c.2.compile c.1 = .ok s := by
  simp only [made, List.mem_filterMap, toOption_eq_some]

theorem made_ids (h : ∀ c ∈ calls, c.2.compiles = true) :
    (made calls).map (·.id) = (calls.map Prod.snd).map (·.id) := by
  rw [made, List.map_filterMap, List.map_map, ← List.filterMap_eq_map]
  refine List.filterMap_congr fun c hc => ?_
  obtain ⟨s, hs⟩ := (Definition.compiles_iff c.1).1 (h c hc)
  simp [hs, Except.toOption, Definition.id_of_compile hs]

theorem perform_define {now : Instant} {d : Definition} (hfree : g.contains d.id = false)
    (h : d.compile now = .ok s) :
    g.perform (.define now d) = (.defined (.ok s), g.register s) := by
  rw [perform, define_iff.2 ⟨hfree, h, rfl⟩]
  rfl

theorem run_definitions (h : ∀ c ∈ calls, c.2.compiles = true) (hfresh : g.Fresh (made calls)) :
    g.run (definitions calls) =
      (calls.map fun c => .defined (c.2.compile c.1), g.registerAll (made calls)) := by
  induction calls generalizing g with
  | nil => rfl
  | cons c calls ih =>
    obtain ⟨now, d⟩ := c
    obtain ⟨hd, hcalls⟩ := List.forall_mem_cons.1 h
    obtain ⟨s, hs⟩ := (Definition.compiles_iff now).1 hd
    rw [made_cons hs] at hfresh ⊢
    obtain ⟨hfree, hfresh⟩ := fresh_cons.1 hfresh
    rw [Definition.id_of_compile hs] at hfree
    have hrun : g.run (definitions ((now, d) :: calls)) =
        (.defined (.ok s) :: ((g.register s).run (definitions calls)).1,
          ((g.register s).run (definitions calls)).2) := by
      rw [definitions, List.map_cons, run, perform_define hfree hs]
      rfl
    rw [hrun, ih hcalls hfresh, List.map_cons, hs]
    rfl

theorem lasting_of_perm (hds : ∀ d ∈ ds, d.Lasting) (hcalls : (calls.map Prod.snd).Perm ds) :
    ∀ c ∈ calls, c.2.Lasting :=
  fun _ hc => hds _ (hcalls.mem_iff.1 (List.mem_map_of_mem hc))

theorem mem_made_of_lasting (hds : ∀ d ∈ ds, d.Lasting) (hcalls : (calls.map Prod.snd).Perm ds) :
    s ∈ made calls ↔ ∃ d ∈ ds, ∀ now, d.compile now = .ok s := by
  rw [mem_made_iff]
  constructor
  · rintro ⟨c, hc, hs⟩
    exact ⟨c.2, hcalls.mem_iff.1 (List.mem_map_of_mem hc),
      (lasting_of_perm hds hcalls c hc).compile_at hs⟩
  · rintro ⟨d, hd, hs⟩
    obtain ⟨c, hc, rfl⟩ := List.mem_map.1 (hcalls.mem_iff.2 hd)
    exact ⟨c, hc, hs c.1⟩

theorem fresh_made (hds : ∀ d ∈ ds, d.Lasting) (hcalls : (calls.map Prod.snd).Perm ds)
    (hdistinct : (ds.map (·.id)).Nodup) : empty.Fresh (made calls) := by
  refine ⟨?_, fun s _ => rfl⟩
  rw [made_ids fun c hc => (lasting_of_perm hds hcalls c hc).compiles]
  exact (hcalls.map _).nodup_iff.2 hdistinct

theorem lists_made (hds : ∀ d ∈ ds, d.Lasting) (hcalls : (calls.map Prod.snd).Perm ds)
    (hdistinct : (ds.map (·.id)).Nodup) : Lists ds (empty.registerAll (made calls)) := by
  have hlasting := lasting_of_perm hds hcalls
  have hfresh := fresh_made hds hcalls hdistinct
  have hperm : (empty.registerAll (made calls)).list.Perm (made calls) :=
    (list_perm _).trans (values_registerAll hfresh)
  have hwritable : ∀ s ∈ made calls, s.Compiled ∧ s.isFinite = true := fun s hs => by
    obtain ⟨c, hc, hs⟩ := mem_made_iff.1 hs
    exact (hlasting c hc).writable hs
  have hsound := sound_empty.registerAll hfresh fun s hs => (hwritable s hs).1
  have hfinite : ∀ s ∈ (empty.registerAll (made calls)).list, s.isFinite = true :=
    fun s hs => (hwritable s (hperm.mem_iff.1 hs)).2
  -- Nothing is lost in writing, so the file holds the definitions as they are.
  have hwritten : ((empty.registerAll (made calls)).list.map fun s => s.toDefinition.written) =
      (empty.registerAll (made calls)).list.map RuleSet.toDefinition :=
    List.map_congr_left fun s hs => RuleSet.written_of_isFinite (hfinite s hs)
  constructor
  case registered => exact fun s => hsound.mem_list_iff
  case compiled => exact fun s => hperm.mem_iff.trans (mem_made_of_lasting hds hcalls)
  case once =>
    have hids := made_ids fun c hc => (hlasting c hc).compiles
    exact (hperm.map _).trans (hids ▸ hcalls.map _)
  case increasing => exact hsound.increasing_list
  case sorted => exact fun sets => hsound.mergeSort_eq_list
  case saved =>
    intro disk disk' p interruption hsave
    rw [← hwritten]
    exact Snapshot.load_of_readText hsound
      (Snapshot.readText_of_save (Snapshot.save_of_ok hsave))
  case restored =>
    intro clock
    rw [← hwritten, hsound.loadBatch_written hfinite clock]
    exact ⟨rfl, rfl⟩

/-- In whatever order definitions are registered, and at whatever times, the list is the same: each
of them once, by time of definition and then by identifier. A snapshot keeps this order. -/
theorem list_canonical {replies replies' : List Reply} (hds : ∀ d ∈ ds, d.Lasting)
    (hdistinct : (ds.map (·.id)).Nodup) (hcalls : (calls.map Prod.snd).Perm ds)
    (hcalls' : (calls'.map Prod.snd).Perm ds)
    (hrun : empty.run (definitions calls) = (replies, g))
    (hrun' : empty.run (definitions calls') = (replies', g')) :
    replies = calls.map (fun c => .defined (c.2.compile c.1)) ∧ Lists ds g ∧ g'.list = g.list := by
  have hlists := lists_made hds hcalls hdistinct
  have hlists' := lists_made hds hcalls' hdistinct
  rw [run_definitions (fun c hc => (lasting_of_perm hds hcalls c hc).compiles)
    (fresh_made hds hcalls hdistinct)] at hrun
  rw [run_definitions (fun c hc => (lasting_of_perm hds hcalls' c hc).compiles)
    (fresh_made hds hcalls' hdistinct)] at hrun'
  cases hrun
  cases hrun'
  exact ⟨rfl, hlists, hlists.list_eq hlists'⟩

def dated (id : String) (second : Nat) : RuleSet where
  id := id
  name := id
  description := none
  rules := []
  mode := .firstMatch
  fallback := none
  derived := [.constant "limit" (.number (Binary64.ofInt 1))]
  definedAt := { Instant.epoch with second := second }

def shuffled : List (Instant × Definition) :=
  [dated "b" 2, dated "c" 0, dated "a" 2].map fun s => (.epoch, s.toDefinition)

def shuffledRun : List Reply × Registry := empty.run (definitions shuffled)

theorem list_canonical_shuffled :
    shuffledRun.2.list = [dated "c" 0, dated "a" 2, dated "b" 2] ∧
      (empty.run (definitions shuffled.reverse)).2.list = shuffledRun.2.list ∧
      ∃ disk, Snapshot.save .empty ["rulesets.json"] none shuffledRun.2.list = (.ok (), disk) ∧
        Snapshot.load disk ["rulesets.json"] =
          .ok (shuffledRun.2.list.map RuleSet.toDefinition) := by
  have hlasting : ∀ d ∈ shuffled.map Prod.snd, d.Lasting := by
    have hepoch : Instant.epoch.Valid := ⟨by decide, by decide, by decide, by decide⟩
    have hcompiles : ∀ d ∈ shuffled.map Prod.snd, d.compiles = true := by decide +kernel
    have hfinite : ∀ d ∈ shuffled.map Prod.snd, d.derived.all Derivation.isFinite = true := by
      decide +kernel
    have htime : ∀ second < 60, Instant.Valid { Instant.epoch with second := second } :=
      fun second hsecond => ⟨hepoch.date, hsecond.trans (by decide), hepoch.nanosecond,
        fun hleap => absurd hleap (by simp [Instant.epoch, Instant.nanosecondsPerSecond])⟩
    have htimes : ∀ d ∈ shuffled.map Prod.snd, ∃ t, d.definedAt = some t ∧ t.Valid := by
      simp [shuffled, dated, RuleSet.toDefinition, htime]
    exact fun d hd => ⟨hcompiles d hd, htimes d hd, hfinite d hd⟩
  have hrun : empty.run (definitions shuffled) = (shuffledRun.1, shuffledRun.2) := rfl
  obtain ⟨-, hlists, hsame⟩ := list_canonical hlasting (by decide) (.refl _)
    ((List.reverse_perm shuffled).map _) hrun rfl
  have hlist : shuffledRun.2.list = [dated "c" 0, dated "a" 2, dated "b" 2] := by
    have hvalues : shuffledRun.2.table.values = [dated "a" 2, dated "b" 2, dated "c" 0] := by rfl
    rw [← hlists.sorted [dated "c" 0, dated "a" 2, dated "b" 2]
      (hvalues ▸ (List.perm_append_singleton ..).symm)]
    exact List.mergeSort_of_pairwise (by decide +kernel)
  obtain ⟨disk, hsave⟩ : ∃ disk,
      Snapshot.save .empty ["rulesets.json"] none shuffledRun.2.list = (.ok (), disk) := by
    refine ⟨_, Prod.ext ?_ rfl⟩
    rw [hlist]
    decide +kernel
  exact ⟨hlist, hsame, disk, hsave, hlists.saved hsave⟩

end Registry

end Rulebook
