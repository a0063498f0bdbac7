import Rulebook.Proofs.Disk.Paths
import Rulebook.Proofs.RuleSetText
import Rulebook.Proofs.Snapshot
/-!
What is stored in a snapshot. A definition that is read from a text holds nothing that is lost when
it is written; so the rule set it compiles to is stored as a definition that stands for it.
-/

set_option autoImplicit false

namespace Rulebook

namespace Definition

/-- The later definition stands for the earlier one: it compiles to the same rule set at whatever
time, but for a time of definition that was missing. -/
structure KeptAs (d d' : Definition) : Prop where
  id : d'.id = d.id
  compiles : ∀ {now s}, d.compile now = .ok s → ∀ later,
    d'.compile later = .ok { s with definedAt := d'.definedAt.getD later }
  time : ∀ t ∈ d.definedAt, d'.definedAt = some t

namespace KeptAs

theorem refl (d : Definition) : d.KeptAs d := ⟨rfl, fun h => compile_at h, fun _ ht => ht⟩

theorem trans {d d' d'' : Definition} (h : d.KeptAs d') (h' : d'.KeptAs d'') : d.KeptAs d'' where
  id := h'.id.trans h.id
  compiles hcompile later := h'.compiles (h.compiles hcompile later) later
  time t ht := h'.time t (h.time t ht)

end KeptAs

/-- What is written of the rule set of a definition stands for the definition. -/
theorem keptAs_written {now : Instant} {d : Definition} {s : RuleSet}
    (hcompile : d.compile now = .ok s) (hs : s.Compiled)
    (hfinite : ∀ x ∈ d.derived, x.isFinite = true) : d.KeptAs s.toDefinition.written where
  id := id_of_compile hcompile
  compiles {time s'} hcompile' later := by
    obtain rfl := Except.ok.inj (hcompile'.symm.trans (compile_at hcompile time))
    rw [← derived_of_compile hcompile] at hfinite
    exact hs.compile_written (List.all_eq_true.2 hfinite) later
  time t ht := by
    have htime : s.definedAt = t := by
      rw [definedAt_of_compile hcompile, Option.mem_def.1 ht, Option.getD_some]
    exact congrArg some htime

end Definition

namespace Snapshot

variable {disk disk' : Disk} {p : Path} {ds : List Definition} {d : Definition} {key : String}

def Stores (disk : Disk) (p : Path) (d : Definition) : Prop :=
  ∃ ds, load disk p = .ok ds ∧ d ∈ ds

/-- The definition stands under the key in the file. -/
def StoresAs (disk : Disk) (p : Path) (key : String) (d : Definition) : Prop :=
  ∃ text t, disk.readText p = .ok text ∧ table? text = some t ∧ t.get? key = some d

theorem load_eq_ok :
    load disk p = .ok ds ↔
      disk.readText p = .error .notFound ∧ ds = [] ∨
        ∃ text, disk.readText p = .ok text ∧ read? text = some ds := by
  unfold load
  cases disk.readText p with
  | error e => cases e <;> simp [eq_comm]
  | ok text => cases hread : read? text <;> simp [hread]

theorem read?_eq_some {text : String} :
    read? text = some ds ↔ ∃ t, table? text = some t ∧ t.values.mergeSort earlier = ds := by
  rw [read?_eq, Option.map_eq_some_iff]

theorem stores_iff : Stores disk p d ↔ ∃ key, StoresAs disk p key d := by
  have hmem : ∀ t : Table Definition,
      d ∈ t.values.mergeSort earlier ↔ ∃ key, t.get? key = some d := fun t => by
    rw [List.mem_mergeSort, Table.mem_values]
  constructor
  · rintro ⟨ds, hload, hd⟩
    rcases load_eq_ok.1 hload with ⟨-, rfl⟩ | ⟨text, htext, hread⟩
    · cases hd
    · obtain ⟨t, ht, rfl⟩ := read?_eq_some.1 hread
      obtain ⟨key, hkey⟩ := (hmem t).1 hd
      exact ⟨key, text, t, htext, ht, hkey⟩
  · rintro ⟨key, text, t, htext, ht, hkey⟩
    exact ⟨_, load_eq_ok.2 (.inr ⟨text, htext, read?_eq_some.2 ⟨t, ht, rfl⟩⟩), (hmem t).2 ⟨key, hkey⟩⟩

theorem StoresAs.of_read (h : StoresAs disk p key d)
    (hread : ∀ content, disk.read p = .ok content → disk'.read p = .ok content) :
    StoresAs disk' p key d := by
  obtain ⟨text, t, htext, ht⟩ := h
  obtain ⟨content, hcontent, hdecode⟩ := Disk.readText_eq_ok.1 htext
  exact ⟨text, t, Disk.readText_eq_ok.2 ⟨content, hread content hcontent, hdecode⟩, ht⟩

theorem StoresAs.writable (h : StoresAs disk p key d) :
    (∀ x ∈ d.derived, x.isFinite = true) ∧ ∀ t ∈ d.definedAt, t.Valid := by
  obtain ⟨text, t, -, ht, hkey⟩ := h
  obtain ⟨j, hj, htable⟩ := Option.bind_eq_some_iff.1 ht
  obtain ⟨parts, hparts, htable⟩ := Option.bind_eq_some_iff.1 htable
  split at htable
  · rename_i part
    obtain ⟨es, hes, htable⟩ := Option.bind_eq_some_iff.1 htable
    cases htable
    have hentry := Table.mem_of_get?_ofList hkey
    cases part with
    | none =>
      cases hes
      cases hentry
    | some part =>
      have hpart : part.Finite := (Json.finite_of_read? hj).structure? hparts (by simp)
      cases hpart with
      | fields entries =>
        obtain ⟨⟨k, item⟩, hitem, hread⟩ := Json.exists_of_mem_mapM hes hentry
        obtain ⟨d', hd', heq⟩ := Option.bind_eq_some_iff.1 hread
        cases heq
        exact Definition.writable_of_ofJson? (entries _ hitem) hd'
      | _ => cases hes
  · cases htable

theorem storesAs_text {g : Registry} (h : g.Sound) (htext : disk.readText p = .ok (text g.list)) :
    StoresAs disk p key d ↔ ∃ s, g.get? key = some s ∧ s.toDefinition.written = d := by
  obtain ⟨t, ht, hget⟩ := table?_text h
  rw [← Option.map_eq_some_iff, ← hget]
  constructor
  · rintro ⟨text', t', htext', ht', hkey⟩
    rw [htext] at htext'
    cases htext'
    rw [ht] at ht'
    cases ht'
    exact hkey
  · exact fun hkey => ⟨_, t, htext, ht, hkey⟩

/-- The file has the rule sets of the registry and no others: their text, which is loaded as what is
written of them, in their order, and each stands under its identifier. -/
structure Holds (g : Registry) (disk : Disk) (p : Path) : Prop where
  stored : disk.readText p = .ok (Json.pretty (.fields [("rulesets", .fields
    (g.table.entries.map fun entry => (entry.1, entry.2.toDefinition.toJson)))]))
  loaded : load disk p = .ok (g.list.map fun s => s.toDefinition.written)
  keyed : ∀ key d, StoresAs disk p key d ↔ ∃ s, g.get? key = some s ∧ s.toDefinition.written = d

theorem holds_of_readText {g : Registry} (h : g.Sound)
    (htext : disk.readText p = .ok (text g.list)) : Holds g disk p := by
  refine ⟨?_, load_of_readText h htext, fun key d => storesAs_text h htext⟩
  rw [htext, text, toJson_of_perm h.keyed (Registry.list_perm _), h.keyed.entries_eq]

end Snapshot

end Rulebook
