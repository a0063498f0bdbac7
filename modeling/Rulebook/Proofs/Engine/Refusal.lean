import Rulebook.Proofs.Registrations
import Rulebook.Proofs.Stored
/-!
A start that is refused. Definitions are passed over one by one, but named by their identifiers.
Main statement: named are those of them whose identifier was not given to another one of the file,
in the order of the file. So all of them are named if no identifier stands in the file twice; else
there may be nothing that is named.
-/

set_option autoImplicit false

namespace Rulebook

namespace Registry

structure Admits (g : Registry) (ds : List Definition) : Prop where
  compiles : ∀ d ∈ ds, d.compiles = true
  distinct : (ds.map (·.id)).Nodup
  free : ∀ d ∈ ds, g.contains d.id = false

def passedOver (g : Registry) (ds : List Definition) : List (Definition × Nat) :=
  ds.zipIdx.filter fun x => !g.takes (ds.take x.2) x.1

/-- Whether a batch gives this identifier: it is free, and one of the definitions that have it
compiles. -/
def gives (g : Registry) (ds : List Definition) (id : String) : Bool :=
  !g.contains id && ds.any fun d => d.compiles && d.id == id

variable {g : Registry} {ds : List Definition} {d : Definition} {k : Nat} {id : String}

theorem mem_taken_iff :
    (d, k) ∈ g.taken ds ↔ ds[k]? = some d ∧ g.takes (ds.take k) d = true := by
  rw [taken, List.mem_filter, List.mem_zipIdx_iff_getElem?]

theorem mem_passedOver_iff :
    (d, k) ∈ g.passedOver ds ↔ ds[k]? = some d ∧ g.takes (ds.take k) d = false := by
  rw [passedOver, List.mem_filter, List.mem_zipIdx_iff_getElem?, Bool.not_eq_true']

/-- The first that compiles of those that have the identifier is the one that is taken. -/
theorem gives_iff : g.gives ds id = true ↔ ∃ d k, (d, k) ∈ g.taken ds ∧ d.id = id := by
  simp only [gives, Bool.and_eq_true, Bool.not_eq_true', mem_taken_iff]
  constructor
  · rintro ⟨hfree, hany⟩
    obtain ⟨d, hfind⟩ := Option.isSome_iff_exists.1 (List.find?_isSome.2 (List.any_eq_true.1 hany))
    obtain ⟨hd, before, after, rfl, hbefore⟩ := List.find?_eq_some_iff_append.1 hfind
    simp only [Bool.and_eq_true, beq_iff_eq] at hd
    obtain ⟨hcompiles, rfl⟩ := hd
    have hnone : (before.any fun d' => d'.compiles && d'.id == d.id) = false :=
      List.any_eq_false.2 fun d' hd' => Bool.not_iff_not.1 (hbefore d' hd')
    exact ⟨d, before.length, ⟨by simp, by simp [takes, hcompiles, hfree, hnone]⟩, rfl⟩
  · rintro ⟨d, k, ⟨hd, htakes⟩, rfl⟩
    simp only [takes, Bool.and_eq_true, Bool.not_eq_true'] at htakes
    exact ⟨htakes.1.2, List.any_eq_true.2 ⟨d, List.mem_of_getElem? hd, by simp [htakes.1.1]⟩⟩

theorem passedOver_eq_nil : g.passedOver ds = [] ↔ (g.taken ds).length = ds.length := by
  have hlength : ds.length = ds.zipIdx.length := List.length_zipIdx.symm
  rw [hlength, taken, List.length_filter_eq_length_iff, passedOver, List.filter_eq_nil_iff]
  simp only [Bool.not_eq_true', Bool.not_eq_false]

theorem admits_iff : g.Admits ds ↔ (∀ d ∈ ds, ∃ now s, d.compile now = .ok s) ∧
    (ds.map (·.id)).Nodup ∧ ∀ d ∈ ds, g.contains d.id = false := by
  constructor
  · rintro ⟨hcompiles, hdistinct, hfree⟩
    exact ⟨fun d hd => ⟨.epoch, (Definition.compiles_iff _).1 (hcompiles d hd)⟩, hdistinct, hfree⟩
  · rintro ⟨hcompiles, hdistinct, hfree⟩
    refine ⟨fun d hd => ?_, hdistinct, hfree⟩
    obtain ⟨now, hs⟩ := hcompiles d hd
    exact (Definition.compiles_iff now).2 hs

theorem loadBatch_ids (g : Registry) (clock : Nat → Instant) (ds : List Definition) :
    (g.loadBatch clock ds).2 = (g.taken ds).map (·.1.id) := by
  rw [loadBatch, (loadFrom_eq clock 0 g ds).2, loaded_ids]

theorem passedOver_eq_nil_iff : g.passedOver ds = [] ↔ g.Admits ds := by
  have hids := congrArg List.length (g.loadBatch_ids (fun _ => .epoch) ds)
  rw [List.length_map] at hids
  rw [passedOver_eq_nil, admits_iff, ← @exists_registers_iff (fun _ => .epoch) 0, ← hids]
  simp only [registers_iff, exists_eq_left', loadBatch]

def named (g : Registry) (ds : List Definition) : List String :=
  ((g.passedOver ds).filter fun x => !g.gives ds x.1.id).map (·.1.id)

theorem named_eq : g.named ds =
    (ds.map (·.id)).filter fun id => !((g.taken ds).map (·.1.id)).contains id := by
  have hgiven (id : String) : ((g.taken ds).map (·.1.id)).contains id = g.gives ds id := by
    rw [Bool.eq_iff_iff, gives_iff, List.contains_iff_mem, List.mem_map, Prod.exists]
  have hids : ds.map (·.id) = ds.zipIdx.map (·.1.id) := by
    calc ds.map (·.id) = (ds.zipIdx.map Prod.fst).map (·.id) := by rw [List.zipIdx_map_fst]
      _ = ds.zipIdx.map (·.1.id) := List.map_map
  rw [hids, List.filter_map, named, passedOver, List.filter_filter]
  congr 1
  refine List.filter_congr fun x hx => ?_
  rw [Function.comp_apply, hgiven]
  cases htakes : g.takes (ds.take x.2) x.1 with
  | false => simp
  | true =>
    have hgives : g.gives ds x.1.id = true :=
      gives_iff.2 ⟨x.1, x.2, mem_taken_iff.2 ⟨List.mem_zipIdx_iff_getElem?.1 hx, htakes⟩, rfl⟩
    simp [hgives]

theorem gives_eq_false_of_distinct (h : (ds.map (·.id)).Nodup) {x : Definition × Nat}
    (hx : x ∈ g.passedOver ds) : g.gives ds x.1.id = false := by
  obtain ⟨d, k⟩ := x
  obtain ⟨hd, hleft⟩ := mem_passedOver_iff.1 hx
  refine Bool.eq_false_iff.2 fun hgives => ?_
  obtain ⟨d', k', htaken, hid⟩ := gives_iff.1 hgives
  obtain ⟨hd', htakes⟩ := mem_taken_iff.1 htaken
  have hsame : k' = k := by
    have hids : (ds.map (·.id))[k']? = (ds.map (·.id))[k]? := by
      rw [List.getElem?_map, List.getElem?_map, hd, hd', Option.map_some, Option.map_some, hid]
    have hk' : k' < (ds.map (·.id)).length := by
      rw [List.length_map]
      exact (List.getElem?_eq_some_iff.1 hd').1
    exact (List.getElem?_inj hk' h).1 hids
  subst hsame
  cases hd.symm.trans hd'
  rw [hleft] at htakes
  cases htakes

end Registry

namespace Engine

open Registry

/-- An engine that took all definitions of a snapshot has what it had before, and each of them under
its identifier. -/
structure Took (e : Engine) (clock : Nat → Instant) (p : Path) (ds : List Definition)
    (e' : Engine) : Prop where
  others : e' = { e with registry := e'.registry, snapshot := some p }
  all : ∀ d ∈ ds, e'.registry.contains d.id = true
  found : ∀ id s, e'.registry.get? id = some s ↔ e.registry.get? id = some s ∨
    ∃ k, ∃ d : Definition, ds[k]? = some d ∧ d.id = id ∧ d.compile (clock k) = .ok s

structure Names (g : Registry) (ds : List Definition) (ids : List String) : Prop where
  refused : g.passedOver ds ≠ []
  /-- Of the definitions passed over, those whose identifier was given to none of the file. -/
  named : ids = ((g.passedOver ds).filter fun x => !g.gives ds x.1.id).map (·.1.id)
  all : ids = (g.passedOver ds).map (·.1.id) ↔ ∀ x ∈ g.passedOver ds, g.gives ds x.1.id = false
  distinct : (ds.map (·.id)).Nodup → ids = (g.passedOver ds).map (·.1.id)
  silent : ids = [] ↔ ∀ x ∈ g.passedOver ds, g.gives ds x.1.id = true

variable {e e' : Engine} {g : Registry} {disk : Disk} {p : Path} {ds : List Definition}
  {clock : Nat → Instant}

theorem register_eq (clock : Nat → Instant) : register g clock ds =
    if g.passedOver ds = [] then .ok (g.loadBatch clock ds).1
    else .error (.rejected (g.named ds)) := by
  simp only [register, loadBatch_ids, named_eq, List.length_map, passedOver_eq_nil]

theorem restore_eq (hload : Snapshot.load disk p = .ok ds) : e.restore clock disk p =
    if e.registry.passedOver ds = [] then
      .ok { e with registry := (e.registry.loadBatch clock ds).1, snapshot := some p }
    else .error (.snapshot (.rejected (e.registry.named ds))) := by
  rw [restore, hload]
  change ((register e.registry clock ds).mapError EngineError.snapshot).bind _ = _
  rw [register_eq]
  split <;> rfl

theorem took_of_admits (h : e.registry.Admits ds) : Took e clock p ds
    { e with registry := (e.registry.loadBatch clock ds).1, snapshot := some p } := by
  have htaken : ∀ d k, (d, k) ∈ e.registry.taken ds ↔ ds[k]? = some d := by
    intro d k
    rw [mem_taken_iff, and_iff_left_iff_imp]
    refine fun hk => (Bool.eq_false_or_eq_true _).resolve_right fun hleft => ?_
    have hpassed := mem_passedOver_iff.2 ⟨hk, hleft⟩
    rw [passedOver_eq_nil_iff.2 h] at hpassed
    cases hpassed
  have hfound : ∀ id s, (e.registry.loadBatch clock ds).1.get? id = some s ↔
      e.registry.get? id = some s ∨
        ∃ k, ∃ d : Definition, ds[k]? = some d ∧ d.id = id ∧ d.compile (clock k) = .ok s := by
    intro id s
    rw [get?_loadBatch_iff, exists_comm]
    simp only [htaken]
  refine ⟨rfl, fun d hd => ?_, hfound⟩
  obtain ⟨k, hk⟩ := List.mem_iff_getElem?.1 hd
  obtain ⟨s, hs⟩ := (Definition.compiles_iff (clock k)).1 (h.compiles d hd)
  exact contains_of_get? ((hfound d.id s).2 (.inr ⟨k, d, hk, rfl, hs⟩))

theorem names_named (h : ¬ g.Admits ds) : Names g ds (g.named ds) := by
  have hall : g.named ds = (g.passedOver ds).map (·.1.id) ↔
      ∀ x ∈ g.passedOver ds, g.gives ds x.1.id = false := by
    constructor
    · intro heq
      have hlength := congrArg List.length heq
      simpa [named] using hlength
    · intro hgives
      rw [named, List.filter_eq_self.2]
      simpa using hgives
  constructor
  case refused => exact fun hnil => h (passedOver_eq_nil_iff.1 hnil)
  case named => rfl
  case all => exact hall
  case distinct => exact fun hdistinct => hall.2 fun x => gives_eq_false_of_distinct hdistinct
  case silent => simp [named]

/-- An engine takes a file if all its definitions compile, under identifiers of their own that are
free. A refusal names the definitions that were passed over, but not those under whose identifier
another definition of the file was registered; there are none of these if no identifier stands in
the file twice. -/
theorem restore_takes_or_names (hload : Snapshot.load disk p = .ok ds) (clock : Nat → Instant) :
    ((∃ e', e.restore clock disk p = .ok e') ↔ e.registry.Admits ds) ∧
    (∀ e', e.restore clock disk p = .ok e' → Took e clock p ds e') ∧
    (¬ e.registry.Admits ds → ∃ ids,
      e.restore clock disk p = .error (.snapshot (.rejected ids)) ∧ Names e.registry ds ids) := by
  rw [restore_eq hload]
  by_cases h : e.registry.Admits ds
  · rw [if_pos (passedOver_eq_nil_iff.2 h)]
    refine ⟨iff_of_true ⟨_, rfl⟩ h, ?_, absurd h⟩
    rintro _ ⟨⟩
    exact took_of_admits h
  · rw [if_neg (mt passedOver_eq_nil_iff.1 h)]
    exact ⟨iff_of_false nofun h, nofun, fun _ => ⟨_, rfl, names_named h⟩⟩

def doubleText : String :=
  "[\x7b\"draft\":[\"tariff\",\"Draft\",null,[]],\"final\":[\"tariff\",\"Final\",null,[]]\x7d]"

def doubleTariff : Disk :=
  Disk.empty.put ["rulesets.json"] (some (.file 0 (Bytes.ofText doubleText)))

def holdsTwice (id : String) : Option (List Definition) → Bool
  | some [d, d'] =>
    d.compiles && d'.compiles && d.id == id && d'.id == id && Snapshot.earlier d d'
  | _ => false

theorem load_doubleTariff : ∃ d d', Snapshot.load doubleTariff ["rulesets.json"] = .ok [d, d'] ∧
    d.compiles = true ∧ d'.compiles = true ∧ d.id = "tariff" ∧ d'.id = "tariff" := by
  have hholds : holdsTwice "tariff" ((Snapshot.table? doubleText).map Table.values) = true := by
    decide +kernel
  unfold holdsTwice at hholds
  split at hholds
  · rename_i d d' hvalues
    simp only [Bool.and_eq_true, beq_iff_eq] at hholds
    obtain ⟨⟨⟨⟨hd, hd'⟩, hid⟩, hid'⟩, hearlier⟩ := hholds
    obtain ⟨t, ht, hvalues⟩ := Option.map_eq_some_iff.1 hvalues
    have hsorted : [d, d'].mergeSort Snapshot.earlier = [d, d'] :=
      List.mergeSort_of_pairwise (by simpa using hearlier)
    have hread : Snapshot.read? doubleText = some [d, d'] :=
      Snapshot.read?_eq_some.2 ⟨t, ht, hvalues ▸ hsorted⟩
    have hcontent : doubleTariff.read ["rulesets.json"] = .ok (Bytes.ofText doubleText) := rfl
    have htext : doubleTariff.readText ["rulesets.json"] = .ok doubleText :=
      Disk.readText_eq_ok.2 ⟨_, hcontent, Bytes.text?_ofText doubleText⟩
    exact ⟨d, d', Snapshot.load_eq_ok.2 (.inr ⟨_, htext, hread⟩), hd, hd', hid, hid'⟩
  · cases hholds

theorem restore_takes_or_names_double :
    ∃ ds, Snapshot.load doubleTariff ["rulesets.json"] = .ok ds ∧
      (empty.registry.passedOver ds).map (·.1.id) = ["tariff"] ∧
      empty.restore (fun _ => .epoch) doubleTariff ["rulesets.json"] =
        .error (.snapshot (.rejected [])) := by
  obtain ⟨d, d', hload, hd, hd', hid, hid'⟩ := load_doubleTariff
  have hfree : empty.registry.contains "tariff" = false := rfl
  have hpassed : empty.registry.passedOver [d, d'] = [(d', 1)] := by
    simp [passedOver, takes, hd, hd', hid, hid', hfree]
  have hgives : empty.registry.gives [d, d'] "tariff" = true := by simp [gives, hd, hid, hfree]
  have hrefused : ¬ empty.registry.Admits [d, d'] := fun h => by simpa [hid, hid'] using h.distinct
  obtain ⟨ids, herror, hnames⟩ := (restore_takes_or_names hload fun _ => .epoch).2.2 hrefused
  obtain rfl : ids = [] := hnames.silent.2 (by simp [hpassed, hid', hgives])
  exact ⟨[d, d'], hload, by rw [hpassed, List.map_singleton, hid'], herror⟩

end Engine

end Rulebook
