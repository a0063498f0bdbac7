import Rulebook.Proofs.Engine.InStep
import Rulebook.Proofs.Engine.Loading
/-!
Definitions all or nothing. A definition that fails, at whatever step of saving, has changed nothing
that can be asked for; one that succeeds is in the snapshot file together with all others, and stays
there. Only the file of a log must not be where a snapshot is written first: a save empties it.
-/

set_option autoImplicit false

namespace Rulebook

namespace DecisionLog

variable {log : DecisionLog} {disk disk' : Disk} {p : Path}

def Found (log : DecisionLog) (disk : Disk) : Prop :=
  ∀ path ∈ log.path?, ∃ n, disk.find path = .ok n

/-- The file of a log is never where a snapshot of one of these paths is written first. -/
def ClearOf (log : DecisionLog) (ps : List Path) : Prop :=
  ∀ p ∈ ps, ∀ path ∈ log.path?, Disk.Apart path (Snapshot.temporary p)

theorem ClearOf.of_mem {ps : List Path} (h : log.ClearOf ps) (hp : p ∈ ps) : log.ClearOf [p] :=
  List.forall_mem_singleton.2 (h p hp)

theorem found_of_openFile (h : openFile disk p = (.ok log, disk')) : log.Found disk' := by
  unfold openFile at h
  split at h
  · cases h
  · split at h
    · cases h
    · rename_i place number content opened hopen
      obtain ⟨hl, hn⟩ := Disk.located_of_openFile hopen
      have hfree : opened.node place ≠ some .directory := by simp [hn]
      cases h
      rintro _ ⟨⟩
      exact ⟨_, Disk.find_eq_ok.2
        ⟨place, Disk.locate_of_keeps (Disk.keepsDirectories_put _ hfree) hl, if_pos rfl⟩⟩
    · rename_i handle opened _ hopen
      obtain ⟨hl, hn⟩ := Disk.located_of_openFile hopen
      cases h
      rintro _ ⟨⟩
      exact ⟨_, Disk.find_eq_ok.2 ⟨handle.place, hl, hn⟩⟩

theorem Found.append (h : log.Found disk) (fault : Option WriteFault) (d : Decision) :
    (log.append disk fault d).2.1.Found (log.append disk fault d).2.2 := by
  intro path hpath
  rw [append_path] at hpath
  obtain ⟨n, hfind⟩ := h path hpath
  obtain ⟨place, hl, hn⟩ := Disk.find_eq_ok.1 hfind
  have hlocate := Disk.locate_of_keeps (log.append_keepsDirectories disk fault d) hl
  obtain ⟨n', hn'⟩ := log.append_stands disk fault d hn
  exact ⟨n', Disk.find_eq_ok.2 ⟨place, hlocate, hn'⟩⟩

/-- A save that fails leaves the file of a log where it was, and with what it held. -/
theorem find_of_save_error {interruption : Option Disk.Interruption} {sets : List RuleSet}
    {reason : SnapshotError} (hclear : log.ClearOf [p]) (hfound : log.Found disk)
    (hsave : Snapshot.save disk p interruption sets = (.error reason, disk')) {path : Path}
    (hpath : path ∈ log.path?) : ∃ n, disk.find path = .ok n ∧ disk'.find path = .ok n := by
  obtain ⟨n, hfind⟩ := hfound path hpath
  refine ⟨n, hfind, (Snapshot.spares_of_save_error hsave).find (fun place hplace => ?_) hfind⟩
  exact List.forall_mem_singleton.2 (hclear p (List.mem_singleton_self p) path hpath disk' place
    hplace)

/-- A save leaves something where the file of a log is read, be it the snapshot itself. -/
theorem Found.save {interruption : Option Disk.Interruption} {sets : List RuleSet}
    {result : Except SnapshotError Unit} (hfound : log.Found disk) (hclear : log.ClearOf [p])
    (hsave : Snapshot.save disk p interruption sets = (result, disk')) : log.Found disk' := by
  intro path hpath
  cases result with
  | error reason =>
    obtain ⟨n, -, hafter⟩ := find_of_save_error hclear hfound hsave hpath
    exact ⟨n, hafter⟩
  | ok done =>
    obtain ⟨n, hfind⟩ := hfound path hpath
    obtain ⟨place, hl, hn⟩ := Disk.find_eq_ok.1 hfind
    have hspares := Snapshot.spares_of_save hsave
    have hlocate := Disk.locate_of_keeps hspares.keeps hl
    by_cases hsame : disk'.locate p = .ok place
    · obtain ⟨number, hsaved⟩ :=
        Disk.read_eq_ok.1 (Snapshot.read_of_save (Snapshot.save_of_ok hsave))
      obtain ⟨place', hl', hn'⟩ := Disk.find_eq_ok.1 hsaved
      rw [hsame] at hl'
      cases hl'
      exact ⟨_, Disk.find_eq_ok.2 ⟨place, hlocate, hn'⟩⟩
    · have hothers : ∀ q ∈ [Snapshot.temporary p, p], disk'.locate q ≠ .ok place := by
        simpa using ⟨hclear p (List.mem_singleton_self p) path hpath disk' place hlocate, hsame⟩
      exact ⟨n, Disk.find_eq_ok.2 ⟨place, hlocate, hspares.stands hothers hn⟩⟩

theorem query_of_save_error {interruption : Option Disk.Interruption} {sets : List RuleSet}
    {reason : SnapshotError} (hclear : log.ClearOf [p]) (hfound : log.Found disk)
    (hsave : Snapshot.save disk p interruption sets = (.error reason, disk'))
    (outage : Option LogError) (id : Option String) :
    log.query disk' outage id = log.query disk outage id := by
  cases log with
  | memory decisions => rfl
  | file path handle =>
    obtain ⟨n, hbefore, hafter⟩ := find_of_save_error hclear hfound hsave rfl
    have hread : disk'.read path = disk.read path := by rw [Disk.read, Disk.read, hbefore, hafter]
    simp only [query, hread]

end DecisionLog

namespace Engine

/-- What an engine and the disk can come to, if the engine takes up the snapshots of no other paths.
Its log is in memory or in a file, it takes the rule sets of snapshots, may be handed compiled ones,
and answers calls. Others may change the disk in between, but leave something where its log is. -/
inductive Reachable (ps : List Path) : Engine → Disk → Prop where
  | inMemory (traced : Bool) (ds : List Decision) (disk : Disk) :
    Reachable ps ⟨.empty, traced, .memory ds, none⟩ disk
  | inFile {disk disk' : Disk} {path : Path} {log : DecisionLog} (traced : Bool)
      (hopen : DecisionLog.openFile disk path = (.ok log, disk')) :
    Reachable ps ⟨.empty, traced, log, none⟩ disk'
  | restored {e e' : Engine} {clock : Nat → Instant} {disk : Disk} {p : Path}
      (h : Reachable ps e disk) (hp : p ∈ ps) (hclock : ∀ k, (clock k).Valid)
      (hrestore : e.restore clock disk p = .ok e') : Reachable ps e' disk
  | registered {e : Engine} {disk : Disk} {s : RuleSet} {g : Registry} (h : Reachable ps e disk)
      (hs : s.Compiled) (hinsert : e.registry.insert s = .ok g) :
    Reachable ps { e with registry := g } disk
  | called {e : Engine} {disk : Disk} (h : Reachable ps e disk) {c : Call} (hc : c.Timely) :
    Reachable ps (e.call disk c).2.1 (e.call disk c).2.2
  | changed {e : Engine} {disk disk' : Disk} (h : Reachable ps e disk)
      (hlog : e.log.Found disk') : Reachable ps e disk'

theorem sound_of_restore {e e' : Engine} {clock : Nat → Instant} {disk : Disk} {p : Path}
    (h : e.registry.Sound) (hclock : ∀ k, (clock k).Valid)
    (hrestore : e.restore clock disk p = .ok e') : e'.registry.Sound := by
  obtain ⟨ds, g, hload, hregisters, rfl⟩ := restore_eq_ok.1 hrestore
  refine hregisters.sound h hclock fun d hd => ?_
  obtain ⟨key, hstores⟩ := Snapshot.stores_iff.1 ⟨ds, hload, hd⟩
  exact hstores.writable.2

/-- What every reachable state has: the registry is sound, and the log is where it is read. -/
structure Orderly (ps : List Path) (e : Engine) (disk : Disk) : Prop where
  sound : e.registry.Sound
  snapshot : ∀ p ∈ e.snapshot, p ∈ ps
  found : e.log.ClearOf ps → e.log.Found disk

variable {ps : List Path} {e e' : Engine} {disk disk' : Disk} {p : Path} {now : Instant}
  {interruption : Option Disk.Interruption} {d : Definition} {s : RuleSet}

namespace Orderly

theorem define {result : Except EngineError RuleSet} (h : Orderly ps e disk)
    (htimely : (Call.define now interruption d).Timely)
    (hdefine : e.define disk now interruption d = (result, e', disk')) : Orderly ps e' disk' := by
  have hsound := sound_of_define h.sound htimely hdefine
  have hfound : ∀ {s result}, e.save disk interruption s = (result, disk') → e.log.ClearOf ps →
      e.log.Found disk' := by
    intro s result hsave hclear
    unfold save at hsave
    split at hsave
    · cases hsave
      exact h.found hclear
    · rename_i p hp
      exact (h.found hclear).save (hclear.of_mem (h.snapshot p hp)) hsave
  rcases define_cases hdefine with
    ⟨_, -, -, rfl, rfl⟩ | ⟨_, _, -, hsave, -, rfl⟩ | ⟨_, -, -, hsave, -, rfl⟩
  · exact h
  · exact ⟨hsound, h.snapshot, hfound hsave⟩
  · exact ⟨hsound, h.snapshot, hfound hsave⟩

theorem record (h : Orderly ps e disk) (fault : Option WriteFault) (v : Evaluation) :
    Orderly ps (e.record disk fault v).2.1 (e.record disk fault v).2.2 := by
  refine ⟨h.sound, h.snapshot, fun hclear => (h.found fun q hq path hpath => ?_).append fault _⟩
  exact hclear q hq path ((e.log.append_path disk fault v.decision).symm ▸ hpath)

theorem call (h : Orderly ps e disk) {c : Call} (htimely : c.Timely) :
    Orderly ps (e.call disk c).2.1 (e.call disk c).2.2 := by
  refine call_invariant (P := Orderly ps) ?_ (fun fault v => (·.record fault v)) h
  rintro e e' disk disk' now interruption d result rfl horderly hdefine
  exact horderly.define htimely hdefine

end Orderly

theorem Reachable.orderly (h : Reachable ps e disk) : Orderly ps e disk := by
  induction h with
  | inMemory traced ds disk => exact ⟨Registry.sound_empty, by simp, fun _ => by rintro _ ⟨⟩⟩
  | inFile traced hopen =>
    exact ⟨Registry.sound_empty, by simp, fun _ => DecisionLog.found_of_openFile hopen⟩
  | restored h hp hclock hrestore ih =>
    have hsound := sound_of_restore ih.sound hclock hrestore
    obtain ⟨ds, g, -, -, rfl⟩ := restore_eq_ok.1 hrestore
    refine ⟨hsound, ?_, ih.found⟩
    rintro _ ⟨⟩
    exact hp
  | registered h hs hinsert ih =>
    obtain ⟨hfree, rfl⟩ := Registry.insert_eq_ok.1 hinsert
    exact ⟨(ih.sound.insert hfree hs).1, ih.snapshot, ih.found⟩
  | called h hc ih => exact ih.call hc
  | changed h hlog ih => exact ⟨ih.sound, ih.snapshot, fun _ => hlog⟩

/-- Nothing that can be asked for has changed, and the snapshot file holds what it held. -/
structure Untouched (e : Engine) (disk : Disk) (p : Path) (e' : Engine) (disk' : Disk) : Prop where
  engine : e' = e
  file : Disk.SameFile p disk disk'
  bytes : ∀ place, disk.locate p = .ok place → disk'.file? p = disk.file? p
  decisions : ∀ outage id, e'.decisions disk' outage id = e.decisions disk outage id

theorem untouched_refl (e : Engine) (disk : Disk) (p : Path) : Untouched e disk p e disk :=
  ⟨rfl, .refl p disk, fun _ _ => rfl, fun _ _ => rfl⟩

/-- One rule set has been added, and the snapshot file holds all of them by their identifiers, from
now on: whatever is called later, and wherever a save breaks off, it holds those of the registry, if
no log is written into it. -/
structure Added (e : Engine) (disk : Disk) (p : Path) (s : RuleSet) (e' : Engine) (disk' : Disk) :
    Prop where
  free : e.registry.get? s.id = none
  engine : e' = { e with registry := ⟨e.registry.table.insert s.id s⟩ }
  found : ∀ id, e'.registry.get? id = if id = s.id then some s else e.registry.get? id
  listed : e'.registry.list.Perm (e.registry.list ++ [s])
  saved : Snapshot.Holds e'.registry disk' p
  lasting : e.Apart disk → ∀ calls : List Call, (∀ c ∈ calls, c.Timely) →
    Snapshot.Holds (e'.run disk' calls).2.1.registry (e'.run disk' calls).2.2 p

theorem untouched_of_save_error {reason : SnapshotError} (hp : e.snapshot = some p)
    (happart : (Snapshot.temporary p).plain ≠ p.plain) (hclear : e.log.ClearOf [p])
    (hfound : e.log.Found disk) (hsave : e.save disk interruption s = (.error reason, disk')) :
    Untouched e disk p e disk' := by
  simp only [save, hp] at hsave
  have hfile := Snapshot.sameFile_of_save_error happart hsave
  exact ⟨rfl, hfile, fun _ hplace => hfile.file? hplace, fun outage id =>
    congrArg (Except.mapError EngineError.log)
      (DecisionLog.query_of_save_error hclear hfound hsave outage id)⟩

theorem added_of_save (hsound : e.registry.Sound) (hp : e.snapshot = some p)
    (happart : (Snapshot.temporary p).plain ≠ p.plain) (hfree : e.registry.contains s.id = false)
    (hcompiled : s.Compiled) (hsave : e.save disk interruption s = (.ok (), disk')) :
    Added e disk p s { e with registry := ⟨e.registry.table.insert s.id s⟩ } disk' := by
  have hafter := (hsound.insert hfree hcompiled).1
  have htext := readText_of_save hsound.keyed hp hfree hsave
  constructor
  case free => simpa [Registry.contains, Table.contains, Registry.get?] using hfree
  case engine => rfl
  case found => exact fun id => Table.get?_insert _ _ _ _
  case listed => exact (Registry.list_perm _).trans (hsound.keyed.insert hfree).2.symm
  case saved => exact Snapshot.holds_of_readText hafter htext
  case lasting =>
    intro hlog calls htimely
    have hstep : InStep { e with registry := ⟨e.registry.table.insert s.id s⟩ } disk' p :=
      ⟨hp, hafter, htext, hlog.of_keeps (keepsDirectories_of_save hsave) rfl rfl⟩
    exact (hstep.run happart htimely).holds

/-- A definition fails and has changed nothing, or succeeds and has added its rule set, which was
saved before. No definition is refused once it is saved. -/
theorem define_all_or_nothing (hreach : Reachable ps e disk) (hp : e.snapshot = some p)
    (happart : (Snapshot.temporary p).plain ≠ p.plain) (hclear : e.log.ClearOf ps)
    (htimely : (Call.define now interruption d).Timely) {result : Except EngineError RuleSet}
    (hdefine : e.define disk now interruption d = (result, e', disk')) :
    (∃ err, result = .error err ∧ Untouched e disk p e' disk' ∧
      ∀ reason, err = .definition reason → e.registry.prepare now d = .error reason ∧
        disk' = disk) ∨
    ∃ s, result = .ok s ∧ e.registry.prepare now d = .ok s ∧ Added e disk p s e' disk' := by
  obtain ⟨hsound, hsnapshot, hfound⟩ := hreach.orderly
  rcases define_cases hdefine with ⟨reason, hprepare, rfl, rfl, rfl⟩ |
    ⟨s, reason, hprepare, hsave, rfl, rfl⟩ | ⟨s, hprepare, hfree, hsave, rfl, rfl⟩
  · refine .inl ⟨_, rfl, untouched_refl e' disk' p, fun reason' he => ?_⟩
    cases he
    exact ⟨hprepare, rfl⟩
  · have hclear' : e'.log.ClearOf [p] := hclear.of_mem (hsnapshot p hp)
    refine .inl ⟨_, rfl, untouched_of_save_error hp happart hclear' (hfound hclear) hsave,
      fun reason' he => ?_⟩
    cases he
  · have hcompiled := Registry.compiled_of_prepare hprepare htimely.1 htimely.2
    exact .inr ⟨s, rfl, hprepare, added_of_save hsound hp happart hfree hcompiled hsave⟩

def acceptAmount (id : String) : Definition where
  id := id
  name := id
  description := none
  rules := [⟨"any", "any", .list [.structured "amount" ">=" (.number (.integer 0))], .action "ok"⟩]
  mode := .firstMatch
  fallback := none
  derived := []
  definedAt := none

def unopened (path : Path) : Disk :=
  Disk.empty.put path (some (.file 0 (DecisionLog.line DecisionLog.nothingDecided)))

def opened (path : Path) : Disk := (DecisionLog.openFile (unopened path) path).2

def serving (path : Path) : Engine :=
  ⟨.empty, false, .file path ⟨path, .file 0 []⟩, some ["rulesets.json"]⟩

theorem reachable_serving {path : Path}
    (hopen : DecisionLog.openFile (unopened path) path =
      (.ok (.file path ⟨path, .file 0 []⟩), opened path))
    (hnone : (opened path).readText ["rulesets.json"] = .error .notFound) :
    Reachable [["rulesets.json"]] (serving path) (opened path) := by
  have hepoch : Instant.epoch.Valid := ⟨by decide, by decide, by decide, by decide⟩
  have hload : Snapshot.load (opened path) ["rulesets.json"] = .ok [] :=
    Snapshot.load_eq_ok.2 (.inl ⟨hnone, rfl⟩)
  exact .restored (.inFile false hopen) (List.mem_singleton_self _) (fun _ => hepoch)
    (restore_eq_ok.2 ⟨[], _, hload, .nil, rfl⟩)

def oneSaved : Reply × Engine × Disk :=
  (serving ["decisions.jsonl"]).call (opened ["decisions.jsonl"])
    (.define .epoch none (acceptAmount "first"))

def cutShort : Except EngineError RuleSet × Engine × Disk :=
  oneSaved.2.1.define oneSaved.2.2 .epoch (some ⟨2, 5⟩) (acceptAmount "second")

theorem define_all_or_nothing_cut_short :
    cutShort.1.isOk = false ∧ (cutShort.2.2.file? ["rulesets.tmp"]).map (·.length) = some 5 ∧
      cutShort.2.2.file? ["rulesets.json"] = oneSaved.2.2.file? ["rulesets.json"] ∧
      cutShort.2.1.decisions cutShort.2.2 none none =
        oneSaved.2.1.decisions oneSaved.2.2 none none := by
  have hepoch : Instant.epoch.Valid := ⟨by decide, by decide, by decide, by decide⟩
  have htimely : ∀ {interruption id},
      (Call.define .epoch interruption (acceptAmount id)).Timely := ⟨hepoch, by rintro _ ⟨⟩⟩
  have hreach : Reachable [["rulesets.json"]] oneSaved.2.1 oneSaved.2.2 :=
    .called (reachable_serving rfl rfl) htimely
  have happart : (Snapshot.temporary ["rulesets.json"]).plain ≠ Path.plain ["rulesets.json"] := by
    decide +kernel
  have hclear : oneSaved.2.1.log.ClearOf [["rulesets.json"]] := by
    have htemporary : (Snapshot.temporary ["rulesets.json"]).getLast? = some "rulesets.tmp" := by
      decide +kernel
    refine List.forall_mem_singleton.2 ?_
    rintro _ ⟨⟩
    exact Disk.apart_of_getLast? rfl htemporary (by decide) (by decide) (by decide)
  have hdefine : oneSaved.2.1.define oneSaved.2.2 .epoch (some ⟨2, 5⟩) (acceptAmount "second") =
      (cutShort.1, cutShort.2.1, cutShort.2.2) := rfl
  have hfails : cutShort.1.isOk = false := by decide +kernel
  have hlocate : oneSaved.2.2.locate ["rulesets.json"] = .ok ["rulesets.json"] := by decide +kernel
  rcases define_all_or_nothing hreach rfl happart hclear htimely hdefine with
    ⟨_, -, huntouched, -⟩ | ⟨s, hok, -, -⟩
  · exact ⟨hfails, by decide +kernel, huntouched.bytes _ hlocate, huntouched.decisions none none⟩
  · rw [hok] at hfails
    cases hfails

def cutLog : Except EngineError RuleSet × Engine × Disk :=
  (serving ["rulesets.tmp"]).define (opened ["rulesets.tmp"]) .epoch (some ⟨2, 5⟩)
    (acceptAmount "first")

/-- A definition that fails has taken the decision out of the log. -/
theorem define_empties_log :
    Reachable [["rulesets.json"]] (serving ["rulesets.tmp"]) (opened ["rulesets.tmp"]) ∧
      (serving ["rulesets.tmp"]).snapshot = some ["rulesets.json"] ∧
      (Snapshot.temporary ["rulesets.json"]).plain ≠ Path.plain ["rulesets.json"] ∧
      cutLog.1.isOk = false ∧
      ((serving ["rulesets.tmp"]).decisions (opened ["rulesets.tmp"]) none none).toOption.map
        (·.map (·.id)) = some [DecisionLog.nothingDecided.id] ∧
      (cutLog.2.1.decisions cutLog.2.2 none none).toOption.map (·.map (·.id)) = some [] := by
  refine ⟨reachable_serving rfl rfl, rfl, ?_, ?_, ?_, ?_⟩ <;> decide +kernel

end Engine

end Rulebook
