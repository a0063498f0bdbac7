import Rulebook.Proofs.Engine.Loading
/-!
Registrations. What a registry holds is what its operations have registered, each rule set under an
identifier that was free until then. Main statement: a rule set that is registered stays what it is,
and its identifier is never given again.
-/

set_option autoImplicit false

namespace Rulebook

def Definition.compiles (d : Definition) : Bool := (d.compile .epoch).isOk

theorem Definition.compiles_iff {d : Definition} (now : Instant) :
    d.compiles = true ↔ ∃ s, d.compile now = .ok s := by
  rw [compiles]
  constructor
  · intro h
    cases hs : d.compile .epoch with
    | error reason =>
      rw [hs] at h
      cases h
    | ok s => exact ⟨_, compile_at hs now⟩
  · rintro ⟨s, hs⟩
    rw [compile_at hs .epoch]
    rfl

namespace Registry

/-! ## Rule sets under free identifiers -/

def register (g : Registry) (s : RuleSet) : Registry := ⟨g.table.insert s.id s⟩

def registerAll (g : Registry) (sets : List RuleSet) : Registry := sets.foldl register g

def Fresh (g : Registry) (sets : List RuleSet) : Prop :=
  (sets.map (·.id)).Nodup ∧ ∀ s ∈ sets, g.contains s.id = false

variable {g g' : Registry} {s t : RuleSet} {sets : List RuleSet}

theorem fresh_cons : g.Fresh (s :: sets) ↔ g.contains s.id = false ∧ (g.register s).Fresh sets := by
  simp only [Fresh, register, List.map_cons, List.nodup_cons, List.forall_mem_cons,
    contains_insert_eq_false, List.mem_map, not_exists, not_and]
  constructor
  · rintro ⟨⟨hnew, hnodup⟩, hs, hsets⟩
    exact ⟨hs, hnodup, fun t ht => ⟨hnew t ht, hsets t ht⟩⟩
  · rintro ⟨hs, hnodup, hsets⟩
    exact ⟨⟨fun t ht => (hsets t ht).1, hnodup⟩, hs, fun t ht => (hsets t ht).2⟩

theorem fresh_nil (g : Registry) : g.Fresh [] := ⟨.nil, List.forall_mem_nil _⟩

theorem fresh_singleton (h : g.contains s.id = false) : g.Fresh [s] :=
  fresh_cons.2 ⟨h, fresh_nil _⟩

theorem fresh_append {later : List RuleSet} :
    g.Fresh (sets ++ later) ↔ g.Fresh sets ∧ (g.registerAll sets).Fresh later := by
  induction sets generalizing g with
  | nil => simp [fresh_nil, registerAll]
  | cons s sets ih => rw [List.cons_append, fresh_cons, fresh_cons, ih, and_assoc]; rfl

theorem contains_eq_false_iff {id : String} : g.contains id = false ↔ g.get? id = none := by
  rw [contains, Table.contains, get?, Option.isSome_eq_false_iff, Option.isNone_iff_eq_none]

theorem get?_register_iff {id : String} (hfree : g.contains s.id = false) :
    (g.register s).get? id = some t ↔ g.get? id = some t ∨ t = s ∧ s.id = id := by
  rw [register, get?, Table.get?_insert]
  by_cases hid : id = s.id
  · subst hid
    rw [if_pos rfl, contains_eq_false_iff.1 hfree]
    simp [eq_comm]
  · rw [if_neg hid]
    simp [get?, Ne.symm hid]

theorem get?_registerAll_iff {id : String} (h : g.Fresh sets) :
    (g.registerAll sets).get? id = some t ↔ g.get? id = some t ∨ t ∈ sets ∧ t.id = id := by
  induction sets generalizing g with
  | nil => simp [registerAll]
  | cons s sets ih =>
    obtain ⟨hs, hsets⟩ := fresh_cons.1 h
    rw [registerAll, List.foldl_cons, ← registerAll, ih hsets, get?_register_iff hs, or_assoc,
      List.mem_cons, or_and_right]
    refine or_congr_right (or_congr_left (and_congr_right ?_))
    rintro rfl
    rfl

theorem values_registerAll (h : g.Fresh sets) :
    (g.registerAll sets).table.values.Perm (g.table.values ++ sets) := by
  induction sets generalizing g with
  | nil => simp [registerAll]
  | cons s sets ih =>
    obtain ⟨hs, hsets⟩ := fresh_cons.1 h
    have hone : (g.register s).table.values.Perm (s :: g.table.values) :=
      (entries_insert_perm hs).map Prod.snd
    calc
      (g.registerAll (s :: sets)).table.values.Perm ((g.register s).table.values ++ sets) :=
        ih hsets
      List.Perm _ (s :: g.table.values ++ sets) := hone.append_right sets
      List.Perm _ (g.table.values ++ s :: sets) := List.perm_middle.symm

/-! ## Batches -/

/-- Whether a batch registers the definition that comes behind these: it compiles, and its
identifier was given neither before nor to one of these. -/
def takes (g : Registry) (before : List Definition) (d : Definition) : Bool :=
  d.compiles && !g.contains d.id && !before.any fun d' => d'.compiles && d'.id == d.id

def taken (g : Registry) (ds : List Definition) : List (Definition × Nat) :=
  ds.zipIdx.filter fun x => g.takes (ds.take x.2) x.1

/-- The rule sets that a batch registers. The definition at position `j` is compiled at
`clock (k + j)`. -/
def loaded (clock : Nat → Instant) (k : Nat) (g : Registry) (ds : List Definition) :
    List RuleSet :=
  (g.taken ds).filterMap fun x => (x.1.compile (clock (k + x.2))).toOption

theorem takes_nil_iff {d : Definition} :
    g.takes [] d = true ↔ d.compiles = true ∧ g.contains d.id = false := by
  simp [takes]

theorem takes_cons_of_not_taken {d : Definition} (h : g.takes [] d = false)
    (before : List Definition) (d' : Definition) :
    g.takes (d :: before) d' = g.takes before d' := by
  rw [takes, takes, List.any_cons]
  cases hcompiles : d.compiles with
  | false => rfl
  | true =>
    have hgiven : g.contains d.id = true := by simpa [takes, hcompiles] using h
    cases hid : d.id == d'.id with
    | false => rfl
    | true => simp [← beq_iff_eq.1 hid, hgiven]

theorem takes_cons_of_registered {d : Definition} (h : d.compiles = true) (hid : s.id = d.id)
    (before : List Definition) (d' : Definition) :
    g.takes (d :: before) d' = (g.register s).takes before d' := by
  have hcontains : (g.register s).contains d'.id = (d.id == d'.id || g.contains d'.id) := by
    rw [Bool.eq_iff_iff, ← not_iff_not, Bool.not_eq_true, Bool.not_eq_true, register,
      contains_insert_eq_false, hid, Bool.or_eq_false_iff, beq_eq_false_iff_ne, ne_comm]
  rw [takes, takes, hcontains, List.any_cons, h]
  cases d'.compiles <;> cases d.id == d'.id <;> cases g.contains d'.id <;> rfl

theorem taken_cons {d : Definition} {ds : List Definition}
    (h : ∀ before d', g.takes (d :: before) d' = g'.takes before d') :
    g.taken (d :: ds) =
      (if g.takes [] d then [(d, 0)] else []) ++ (g'.taken ds).map fun x => (x.1, x.2 + 1) := by
  have hrest : (ds.zipIdx 1).filter (fun x => g.takes ((d :: ds).take x.2) x.1) =
      (g'.taken ds).map fun x => (x.1, x.2 + 1) := by
    rw [List.zipIdx_succ, List.filter_map, taken]
    congr 2
    funext x
    exact h _ _
  rw [taken, List.zipIdx_cons, List.filter_cons, hrest, List.take_zero]
  cases g.takes [] d <;> rfl

theorem loaded_cons {d : Definition} {ds : List Definition} {clock : Nat → Instant} {k : Nat}
    (h : ∀ before d', g.takes (d :: before) d' = g'.takes before d') :
    loaded clock k g (d :: ds) =
      (if g.takes [] d then (d.compile (clock k)).toOption.toList else []) ++
        loaded clock (k + 1) g' ds := by
  rw [loaded, taken_cons h, List.filterMap_append, List.filterMap_map, loaded]
  congr 1
  · cases g.takes [] d with
    | false => rfl
    | true => cases hs : d.compile (clock k) <;> simp [hs, Except.toOption]
  · congr 1
    funext x
    rw [Function.comp_apply, show k + (x.2 + 1) = k + 1 + x.2 by omega]

theorem loadFrom_eq (clock : Nat → Instant) (k : Nat) (g : Registry) (ds : List Definition) :
    g.Fresh (loaded clock k g ds) ∧
      loadFrom clock k g ds =
        (g.registerAll (loaded clock k g ds), (loaded clock k g ds).map (·.id)) := by
  induction ds generalizing k g with
  | nil => exact ⟨⟨.nil, by simp [loaded, taken]⟩, rfl⟩
  | cons d ds ih =>
    unfold loadFrom
    cases hdefine : g.define (clock k) d with
    | ok made =>
      obtain ⟨s, g'⟩ := made
      obtain ⟨hfree, hcompile, rfl⟩ := define_iff.1 hdefine
      have hid := Definition.id_of_compile hcompile
      have hcompiles := (Definition.compiles_iff (clock k)).2 ⟨s, hcompile⟩
      have htakes : g.takes [] d = true := takes_nil_iff.2 ⟨hcompiles, hfree⟩
      have hloaded : loaded clock k g (d :: ds) = s :: loaded clock (k + 1) (g.register s) ds := by
        rw [loaded_cons (takes_cons_of_registered hcompiles hid), if_pos htakes, hcompile]
        rfl
      obtain ⟨hfresh, hload⟩ := ih (k + 1) (g.register s)
      rw [hloaded]
      refine ⟨fresh_cons.2 ⟨hid ▸ hfree, hfresh⟩, ?_⟩
      dsimp only
      rw [← register, hload, ← hid]
      rfl
    | error reason =>
      have htakes : g.takes [] d = false := by
        refine Bool.eq_false_iff.2 fun h => ?_
        obtain ⟨hcompiles, hfree⟩ := takes_nil_iff.1 h
        obtain ⟨s, hcompile⟩ := (Definition.compiles_iff (clock k)).1 hcompiles
        rw [define_iff.2 ⟨hfree, hcompile, rfl⟩] at hdefine
        cases hdefine
      rw [loaded_cons (takes_cons_of_not_taken htakes), htakes]
      exact ih (k + 1) g

theorem loaded_ids (clock : Nat → Instant) (k : Nat) (g : Registry) (ds : List Definition) :
    (loaded clock k g ds).map (·.id) = (g.taken ds).map (·.1.id) := by
  rw [loaded, List.map_filterMap, ← List.filterMap_eq_map]
  refine List.filterMap_congr fun x hx => ?_
  have htakes := (List.mem_filter.1 hx).2
  simp only [takes, Bool.and_eq_true] at htakes
  obtain ⟨s, hcompile⟩ := (Definition.compiles_iff (clock (k + x.2))).1 htakes.1.1
  simp [hcompile, Except.toOption, Definition.id_of_compile hcompile]

theorem mem_loaded_iff {clock : Nat → Instant} {k : Nat} {ds : List Definition} :
    s ∈ loaded clock k g ds ↔
      ∃ d j, (d, j) ∈ g.taken ds ∧ d.compile (clock (k + j)) = .ok s := by
  simp only [loaded, List.mem_filterMap, toOption_eq_some, Prod.exists]

/-! ## Runs -/

inductive Operation where
  | define (now : Instant) (d : Definition)
  | prepare (now : Instant) (d : Definition)
  | insert (s : RuleSet)
  | loadBatch (clock : Nat → Instant) (ds : List Definition)
  | get (id : String)
  | list
  | statistics

inductive Reply where
  | defined (result : Except DefinitionError RuleSet)
  | prepared (result : Except DefinitionError RuleSet)
  | inserted (result : Except DefinitionError RuleSet)
  | loaded (ids : List String)
  | found (s : Option RuleSet)
  | listed (sets : List RuleSet)
  | counted (statistics : Statistics)

namespace Reply

def count : Reply → Nat
  | .defined (.ok _) | .inserted (.ok _) => 1
  | .loaded ids => ids.length
  | _ => 0

def Tells : Reply → List RuleSet → Prop
  | .defined (.ok s), sets | .inserted (.ok s), sets => sets = [s]
  | .loaded ids, sets => sets.map (·.id) = ids
  | _, sets => sets = []

theorem count_of_tells {reply : Reply} (h : reply.Tells sets) : reply.count = sets.length := by
  unfold Tells at h
  split at h
  · rw [h]; rfl
  · rw [h]; rfl
  · rw [← h]; exact List.length_map ..
  · rw [h]
    unfold count
    split <;> simp_all

end Reply

def perform (g : Registry) : Operation → Reply × Registry
  | .define now d =>
    match g.define now d with
    | .ok (s, g) => (.defined (.ok s), g)
    | .error e => (.defined (.error e), g)
  | .prepare now d => (.prepared (g.prepare now d), g)
  | .insert s =>
    match g.insert s with
    | .ok g => (.inserted (.ok s), g)
    | .error e => (.inserted (.error e), g)
  | .loadBatch clock ds =>
    let (g, ids) := g.loadBatch clock ds
    (.loaded ids, g)
  | .get id => (.found (g.get? id), g)
  | .list => (.listed g.list, g)
  | .statistics => (.counted g.statistics, g)

def run (g : Registry) : List Operation → List Reply × Registry
  | [] => ([], g)
  | op :: ops =>
    let (reply, g) := g.perform op
    let (replies, g) := run g ops
    (reply :: replies, g)

def registered (g : Registry) : Operation → List RuleSet
  | .define now d => if g.contains d.id then [] else (d.compile now).toOption.toList
  | .insert s => if g.contains s.id then [] else [s]
  | .loadBatch clock ds => g.loaded clock 0 ds
  | _ => []

theorem registered_define_of_error {now : Instant} {d : Definition} {reason : DefinitionError}
    (h : g.define now d = .error reason) : g.registered (.define now d) = [] := by
  rw [registered]
  cases hfree : g.contains d.id with
  | true => rfl
  | false =>
    cases hcompile : d.compile now with
    | error reason => rfl
    | ok s =>
      rw [define_iff.2 ⟨hfree, hcompile, rfl⟩] at h
      cases h

/-- One operation adds the rule sets that it registers, under free identifiers, and says so. -/
theorem perform_registers (g : Registry) (op : Operation) :
    g.Fresh (g.registered op) ∧ (g.perform op).2 = g.registerAll (g.registered op) ∧
      (g.perform op).1.Tells (g.registered op) := by
  cases op with
  | define now d =>
    rw [perform]
    cases hdefine : g.define now d with
    | error reason =>
      rw [registered_define_of_error hdefine]
      exact ⟨fresh_nil g, rfl, rfl⟩
    | ok made =>
      obtain ⟨s, g'⟩ := made
      obtain ⟨hfree, hcompile, rfl⟩ := define_iff.1 hdefine
      have hregistered : g.registered (.define now d) = [s] := by
        rw [registered, hfree, hcompile]
        rfl
      rw [hregistered]
      exact ⟨fresh_singleton (Definition.id_of_compile hcompile ▸ hfree), rfl, rfl⟩
  | insert s =>
    cases hfree : g.contains s.id with
    | true =>
      rw [perform, insert, registered, hfree, if_pos rfl, if_pos rfl]
      exact ⟨fresh_nil g, rfl, rfl⟩
    | false =>
      rw [perform, insert, registered, hfree, if_neg Bool.false_ne_true, if_neg Bool.false_ne_true]
      exact ⟨fresh_singleton hfree, rfl, rfl⟩
  | loadBatch clock ds =>
    obtain ⟨hfresh, hload⟩ := loadFrom_eq clock 0 g ds
    rw [perform, loadBatch, hload]
    exact ⟨hfresh, rfl, rfl⟩
  | prepare | get | list | statistics => exact ⟨fresh_nil g, rfl, rfl⟩

def registrations (g : Registry) : List Operation → List RuleSet
  | [] => []
  | op :: ops => g.registered op ++ (g.perform op).2.registrations ops

/-- A whole run adds the rule sets that its operations register. -/
theorem run_registers (g : Registry) (ops : List Operation) :
    g.Fresh (g.registrations ops) ∧ (g.run ops).2 = g.registerAll (g.registrations ops) ∧
      ((g.run ops).1.map Reply.count).sum = (g.registrations ops).length := by
  induction ops generalizing g with
  | nil => exact ⟨fresh_nil g, rfl, rfl⟩
  | cons op ops ih =>
    obtain ⟨hfresh, hstep, htells⟩ := g.perform_registers op
    obtain ⟨hlater, hrun, hcounts⟩ := ih (g.perform op).2
    refine ⟨fresh_append.2 ⟨hfresh, hstep ▸ hlater⟩, ?_, ?_⟩
    · calc
        (g.run (op :: ops)).2 = ((g.perform op).2.run ops).2 := rfl
        _ = (g.registerAll (g.registered op)).registerAll ((g.perform op).2.registrations ops) := by
          rw [hrun, ← hstep]
        _ = g.registerAll (g.registrations (op :: ops)) := (List.foldl_append ..).symm
    · simp only [run, registrations, List.map_cons, List.sum_cons, List.length_append, hcounts,
        Reply.count_of_tells htells]

theorem registrations_append (g : Registry) (before after : List Operation) :
    g.registrations (before ++ after) =
      g.registrations before ++ (g.run before).2.registrations after := by
  induction before generalizing g with
  | nil => rfl
  | cons op ops ih =>
    rw [List.cons_append, registrations, ih, registrations, List.append_assoc]
    rfl

theorem mem_registrations_iff {ops : List Operation} :
    s ∈ g.registrations ops ↔
      ∃ before op after, ops = before ++ op :: after ∧ s ∈ (g.run before).2.registered op := by
  constructor
  · intro h
    induction ops generalizing g with
    | nil => cases h
    | cons op ops ih =>
      rcases List.mem_append.1 h with hnow | hlater
      · exact ⟨[], op, ops, rfl, hnow⟩
      · obtain ⟨before, op', after, rfl, hs⟩ := ih hlater
        exact ⟨op :: before, op', after, rfl, hs⟩
  · rintro ⟨before, op, after, rfl, hs⟩
    rw [registrations_append]
    exact List.mem_append_right _ (List.mem_append_left _ hs)

theorem contains_of_get? {id : String} (h : g.get? id = some s) : g.contains id = true := by
  rw [contains, Table.contains, ← get?, h]
  rfl

theorem define_of_given {id : String} (h : g.get? id = some s) {d : Definition} (hd : d.id = id)
    (now : Instant) :
    g.define now d = .error (.duplicateId id) ∧ g.prepare now d = .error (.duplicateId id) := by
  have hprepare : g.prepare now d = .error (.duplicateId id) := by
    rw [prepare, hd, if_pos (contains_of_get? h)]
  exact ⟨by rw [define, hprepare]; rfl, hprepare⟩

theorem insert_of_given {id : String} (h : g.get? id = some s) (ht : t.id = id) :
    g.insert t = .error (.duplicateId id) := by
  rw [insert, ht, if_pos (contains_of_get? h)]

/-- A registry after some operations, and what they were answered with. -/
structure Account (ops : List Operation) (replies : List Reply) (g : Registry) : Prop where
  told : ∀ op, (g.perform op).1.Tells (g.registered op)
  /-- What was registered at some point is there, and nothing else. -/
  found : ∀ id s, g.get? id = some s ↔ ∃ before op after, ops = before ++ op :: after ∧
    s ∈ (empty.run before).2.registered op ∧ s.id = id
  given : ∀ id s, g.get? id = some s →
    (∀ now d, d.id = id → g.define now d = .error (.duplicateId id) ∧
      g.prepare now d = .error (.duplicateId id)) ∧
    ∀ t, t.id = id → g.insert t = .error (.duplicateId id)
  size : g.size = (replies.map Reply.count).sum
  prepared : ∀ now d, (g.perform (.prepare now d)).2 = g
  batches : ∀ clock ds, (g.loadBatch clock ds).2 = (g.taken ds).map (·.1.id) ∧
    ∀ id s, (g.loadBatch clock ds).1.get? id = some s ↔ g.get? id = some s ∨
      ∃ d k, (d, k) ∈ g.taken ds ∧ d.id = id ∧ d.compile (clock k) = .ok s

theorem get?_loadBatch_iff {clock : Nat → Instant} {ds : List Definition} {id : String} :
    (g.loadBatch clock ds).1.get? id = some s ↔ g.get? id = some s ∨
      ∃ d k, (d, k) ∈ g.taken ds ∧ d.id = id ∧ d.compile (clock k) = .ok s := by
  obtain ⟨hfresh, hload⟩ := loadFrom_eq clock 0 g ds
  rw [loadBatch, hload, get?_registerAll_iff hfresh, mem_loaded_iff]
  refine or_congr_right ?_
  simp only [Nat.zero_add]
  constructor
  · rintro ⟨⟨d, k, htaken, hcompile⟩, rfl⟩
    exact ⟨d, k, htaken, (Definition.id_of_compile hcompile).symm, hcompile⟩
  · rintro ⟨d, k, htaken, rfl, hcompile⟩
    exact ⟨⟨d, k, htaken, hcompile⟩, Definition.id_of_compile hcompile⟩

/-- Whatever is done with a registry: a rule set that is registered stays what it is. -/
theorem registered_for_good {ops : List Operation} {replies : List Reply}
    (hrun : empty.run ops = (replies, g)) : Account ops replies g := by
  obtain ⟨hfresh, hg, hcount⟩ := run_registers empty ops
  rw [hrun] at hg hcount
  dsimp only at hg hcount
  constructor
  case told => exact fun op => (g.perform_registers op).2.2
  case found =>
    intro id s
    have hempty : empty.get? id = none := rfl
    rw [hg, get?_registerAll_iff hfresh, hempty, mem_registrations_iff]
    simp only [reduceCtorEq, false_or]
    constructor
    · rintro ⟨⟨before, op, after, hops, hs⟩, hid⟩
      exact ⟨before, op, after, hops, hs, hid⟩
    · rintro ⟨before, op, after, hops, hs, hid⟩
      exact ⟨⟨before, op, after, hops, hs⟩, hid⟩
  case given =>
    exact fun id s h => ⟨fun now d hd => define_of_given h hd now, fun t => insert_of_given h⟩
  case size =>
    have hvalues := (values_registerAll hfresh).length_eq
    rw [← hg] at hvalues
    rw [hcount, size, Table.size, ← List.length_map, ← Table.values, hvalues]
    rfl
  case prepared => exact fun now d => rfl
  case batches =>
    refine fun clock ds => ⟨?_, fun id s => get?_loadBatch_iff⟩
    rw [loadBatch, (loadFrom_eq clock 0 g ds).2, loaded_ids]

def bare (id name : String) : Definition := ⟨id, name, none, [], .firstMatch, none, [], none⟩

def contested : List Operation :=
  [.loadBatch (fun _ => .epoch)
      [bare "a" "", bare "a" "First", bare "b" "Other", bare "a" "Second"],
    .define .epoch (bare "a" "Third"), .prepare .epoch (bare "c" "Only prepared"),
    .insert ⟨"b", "Another", none, [], .firstMatch, none, [], .epoch⟩, .define .epoch (bare "a" "")]

def contestedRun : List Reply × Registry := empty.run contested

theorem registered_for_good_contested :
    contestedRun.2.size = 2 ∧ ∃ s, contestedRun.2.get? "a" = some s ∧ s.name = "First" ∧
      ∀ now d, d.id = "a" → contestedRun.2.define now d = .error (.duplicateId "a") := by
  have haccount := @registered_for_good _ contested contestedRun.1 rfl
  have hcount : (contestedRun.1.map Reply.count).sum = 2 := by decide +kernel
  have hname : (contestedRun.2.get? "a").map (·.name) = some "First" := by decide +kernel
  obtain ⟨s, hs, hname⟩ := Option.map_eq_some_iff.1 hname
  exact ⟨haccount.size.trans hcount, s, hs, hname, fun now d hd =>
    ((haccount.given "a" s hs).1 now d hd).1⟩

end Registry

end Rulebook
