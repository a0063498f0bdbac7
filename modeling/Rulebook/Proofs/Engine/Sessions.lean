import Rulebook.Proofs.Engine.Define
import Rulebook.Proofs.Engine.Loading
import Rulebook.Proofs.Stored
/-!
Engines that take up a snapshot file one after the other. Each of them has all that the file stores,
or it does not start; so a rule set that is stored once is stored for good, whatever is defined
later and wherever a save fails.
-/

set_option autoImplicit false

namespace Rulebook.Engine

/-- What happens around a snapshot file: an engine takes it up, in place of the one before, or the
engine is handed a definition. -/
inductive Event where
  | start (e : Engine) (clock : Nat → Instant)
  | define (now : Instant) (interruption : Option Disk.Interruption) (d : Definition)

namespace Event

def Valid : Event → Prop
  | start e clock => e.registry.Sound ∧ ∀ k, (clock k).Valid
  | define now _ d => now.Valid ∧ ∀ t ∈ d.definedAt, t.Valid

def isStart : Event → Bool
  | start _ _ => true
  | define _ _ _ => false

end Event

structure Session where
  engine : Option Engine
  disk : Disk

namespace Session

def next (p : Path) (session : Session) : Event → Session
  | .start e clock =>
    match e.restore clock session.disk p with
    | .ok e => ⟨some e, session.disk⟩
    | .error _ => ⟨none, session.disk⟩
  | .define now interruption d =>
    match session.engine with
    | none => session
    | some e =>
      let (_, e, disk) := e.define session.disk now interruption d
      ⟨some e, disk⟩

def run (p : Path) (session : Session) (events : List Event) : Session :=
  events.foldl (next p) session

end Session

variable {e e' : Engine} {disk disk' disk'' : Disk} {p : Path} {d : Definition}

/-- The engine has every rule set that compiles of those in its snapshot file. -/
structure Covers (e : Engine) (disk : Disk) (p : Path) : Prop where
  path : e.snapshot = some p
  sound : e.registry.Sound
  found : ∀ key d now s, Snapshot.StoresAs disk p key d → d.compile now = .ok s →
    ∃ now s, d.compile now = .ok s ∧ e.registry.get? d.id = some s

/-- What the first file stores, and compiles, the second one stores as well: the file is as it was,
or a definition that stands for the one before is under its identifier. -/
def KeepsStored (p : Path) (disk disk' : Disk) : Prop :=
  ∀ ⦃key d now s⦄, Snapshot.StoresAs disk p key d → d.compile now = .ok s →
    disk'.read p = disk.read p ∨ ∃ d', d.KeptAs d' ∧ Snapshot.StoresAs disk' p d.id d'

namespace KeepsStored

theorem refl (p : Path) (disk : Disk) : KeepsStored p disk disk := fun _ _ _ _ _ _ => .inl rfl

theorem of_read (h : ∀ content, disk.read p = .ok content → disk'.read p = .ok content) :
    KeepsStored p disk disk' := by
  rintro key d now s ⟨text, t, htext, -⟩ -
  obtain ⟨content, hcontent, -⟩ := Disk.readText_eq_ok.1 htext
  exact .inl (by rw [h content hcontent, hcontent])

theorem trans (h : KeepsStored p disk disk') (h' : KeepsStored p disk' disk'') :
    KeepsStored p disk disk'' := by
  intro key d now s hstores hcompile
  rcases h hstores hcompile with hsame | ⟨d', hkept, hstores'⟩
  · rw [← hsame]
    exact h' (hstores.of_read fun _ => hsame.trans) hcompile
  · refine .inr ?_
    rcases h' hstores' (hkept.compiles hcompile now) with hsame | ⟨d'', hkept', hstores''⟩
    · exact ⟨d', hkept, hstores'.of_read fun _ => hsame.trans⟩
    · exact ⟨d'', hkept.trans hkept', hkept.id ▸ hstores''⟩

end KeepsStored

theorem covers_of_restore {clock : Nat → Instant} (hsound : e.registry.Sound)
    (hclock : ∀ k, (clock k).Valid) (h : e.restore clock disk p = .ok e') : e'.Covers disk p := by
  have hafter := sound_of_restore hsound hclock h
  obtain ⟨ds, g, hload, hregisters, rfl⟩ := restore_eq_ok.1 h
  refine ⟨rfl, hafter, fun key d now s hstores _ => ?_⟩
  obtain ⟨ds', hload', hd⟩ := Snapshot.stores_iff.2 ⟨key, hstores⟩
  rw [hload] at hload'
  cases hload'
  exact hregisters.found hd

theorem Covers.define_cases (h : e.Covers disk p)
    (happart : (Snapshot.temporary p).plain ≠ p.plain) (hsettled : Snapshot.Settled disk p)
    {now : Instant} {interruption : Option Disk.Interruption}
    {result : Except EngineError RuleSet} (hnow : now.Valid) (hd : ∀ t ∈ d.definedAt, t.Valid)
    (hdefine : e.define disk now interruption d = (result, e', disk')) :
    Snapshot.Settled disk' p ∧
      (e' = e ∧ (∀ content, disk'.read p = .ok content ↔ disk.read p = .ok content) ∨
        e'.snapshot = some p ∧ e'.registry.Sound ∧
          disk'.readText p = .ok (Snapshot.text e'.registry.list) ∧
            ∀ id s, e.registry.get? id = some s → e'.registry.get? id = some s) := by
  rcases Engine.define_cases hdefine with ⟨_, -, -, rfl, rfl⟩ |
    ⟨s, reason, -, hsave, -, rfl⟩ | ⟨s, hprepare, hfree, hsave, -, rfl⟩
  · exact ⟨hsettled, .inl ⟨rfl, fun _ => Iff.rfl⟩⟩
  · simp only [save, h.path] at hsave
    refine ⟨Snapshot.settled_of_save hsettled hsave, .inl ⟨rfl, fun content => ⟨?_, ?_⟩⟩⟩
    · exact Snapshot.read_before_of_save_error happart hsettled hsave
    · exact (Snapshot.sameFile_of_save_error happart hsave).read
  · simp only [save, h.path] at hsave
    have hcompiled := Registry.compiled_of_prepare hprepare hnow hd
    have hsound := (h.sound.insert hfree hcompiled).1
    exact ⟨Snapshot.settled_of_save hsettled hsave, .inr ⟨h.path, hsound,
      Snapshot.readText_of_save_insert h.sound.keyed hfree hsave,
      fun id t => Registry.get?_insert_of_free hfree⟩⟩

theorem covers_of_text (hpath : e.snapshot = some p) (hsound : e.registry.Sound)
    (htext : disk.readText p = .ok (Snapshot.text e.registry.list)) : e.Covers disk p := by
  refine ⟨hpath, hsound, fun key d now s hstores hcompile => ?_⟩
  obtain ⟨t, ht, rfl⟩ := (Snapshot.storesAs_text hsound htext).1 hstores
  have hmem := Entries.mem_of_lookup ht
  obtain rfl : key = t.id := hsound.keyed _ hmem
  have hfinite := RuleSet.isFinite_of_compile_written hcompile
  exact ⟨now, t, (hsound.compiled _ hmem).compile_written hfinite now, ht⟩

theorem Covers.keepsStored (h : e.Covers disk p) (hsound : e'.registry.Sound)
    (htext : disk'.readText p = .ok (Snapshot.text e'.registry.list))
    (hextends : ∀ id s, e.registry.get? id = some s → e'.registry.get? id = some s) :
    KeepsStored p disk disk' := by
  intro key d now s hstores hcompile
  obtain ⟨now, s, hcompile, hs⟩ := h.found key d now s hstores hcompile
  have hs := hextends _ _ hs
  have hcompiled := hsound.compiled _ (Entries.mem_of_lookup hs)
  exact .inr ⟨_, Definition.keptAs_written hcompile hcompiled hstores.writable.1,
    (Snapshot.storesAs_text hsound htext).2 ⟨s, hs, rfl⟩⟩

namespace Session

/-- A running engine has all that the file stores, and no file comes to light under the path. -/
structure Safe (p : Path) (session : Session) : Prop where
  settled : Snapshot.Settled session.disk p
  covers : ∀ e ∈ session.engine, e.Covers session.disk p

variable {session : Session} {event : Event} {events : List Event}

theorem Safe.next (h : Safe p session) (happart : (Snapshot.temporary p).plain ≠ p.plain)
    (hvalid : event.Valid) :
    Safe p (session.next p event) ∧ KeepsStored p session.disk (session.next p event).disk := by
  cases event with
  | start e clock =>
    simp only [Session.next]
    cases hrestore : e.restore clock session.disk p with
    | error reason => exact ⟨⟨h.settled, nofun⟩, .refl p _⟩
    | ok e' =>
      refine ⟨⟨h.settled, ?_⟩, .refl p _⟩
      rintro _ ⟨⟩
      exact covers_of_restore hvalid.1 hvalid.2 hrestore
  | define now interruption d =>
    obtain ⟨engine, disk⟩ := session
    cases engine with
    | none => exact ⟨h, .refl p _⟩
    | some e =>
      have hcovers := h.covers e rfl
      obtain ⟨result, e', disk', hdefine⟩ : ∃ result e' disk',
          e.define disk now interruption d = (result, e', disk') := ⟨_, _, _, rfl⟩
      simp only [Session.next, hdefine]
      obtain ⟨hsettled, ⟨rfl, hread⟩ | ⟨hpath, hsound, htext, hextends⟩⟩ :=
        hcovers.define_cases happart h.settled hvalid.1 hvalid.2 hdefine
      · refine ⟨⟨hsettled, ?_⟩, .of_read fun content => (hread content).2⟩
        rintro _ ⟨⟩
        exact ⟨hcovers.path, hcovers.sound, fun key d now s hstores =>
          hcovers.found key d now s (hstores.of_read fun content => (hread content).1)⟩
      · refine ⟨⟨hsettled, ?_⟩, hcovers.keepsStored hsound htext hextends⟩
        rintro _ ⟨⟩
        exact covers_of_text hpath hsound htext

theorem Safe.run (h : Safe p session) (happart : (Snapshot.temporary p).plain ≠ p.plain)
    (hvalid : ∀ event ∈ events, event.Valid) :
    Safe p (session.run p events) ∧ KeepsStored p session.disk (session.run p events).disk := by
  induction events generalizing session with
  | nil => exact ⟨h, .refl p _⟩
  | cons event events ih =>
    obtain ⟨hevent, hevents⟩ := List.forall_mem_cons.1 hvalid
    obtain ⟨hsafe, hnext⟩ := h.next happart hevent
    obtain ⟨hlater, hkeeps⟩ := ih hsafe hevents
    exact ⟨hlater, hnext.trans hkeeps⟩

theorem safe_of_settled (h : Snapshot.Settled disk p) : Safe p ⟨none, disk⟩ := ⟨h, nofun⟩

theorem run_none (hdefines : ∀ event ∈ events, event.isStart = false) :
    run p ⟨none, disk⟩ events = ⟨none, disk⟩ := by
  induction events with
  | nil => rfl
  | cons event events ih =>
    obtain ⟨hevent, hevents⟩ := List.forall_mem_cons.1 hdefines
    cases event with
    | start e clock => cases hevent
    | define now interruption d => exact ih hevents

/-- Whatever engines take up a snapshot file and are handed definitions, of which some are refused
and some cannot be saved: a definition that is loaded at some point, and compiles, is loaded at all
later points, or another one that stands for it. Once the file has changed it is under the
identifier. An engine starts if it takes all definitions of the file; else the file stays as it is,
until another engine starts.

That the path is settled is no more than that the file or its directory is there at first, but for
paths through a directory that is missing and back out of it. -/
theorem stored_for_good {disk : Disk} {p : Path} {before after : List Event}
    {session session' : Session} (happart : (Snapshot.temporary p).plain ≠ p.plain)
    (hsettled : Snapshot.Settled disk p) (hbefore : ∀ event ∈ before, event.Valid)
    (hafter : ∀ event ∈ after, event.Valid) (hrun : run p ⟨none, disk⟩ before = session)
    (hlater : run p session after = session') :
    (∀ d now s, Snapshot.Stores session.disk p d → d.compile now = .ok s →
      ∃ d', d.KeptAs d' ∧ Snapshot.Stores session'.disk p d' ∧
        (session'.disk.read p = session.disk.read p ∨ Snapshot.StoresAs session'.disk p d.id d')) ∧
    ∀ e clock,
      ((session.next p (.start e clock)).engine.isSome = true ↔
        ∃ ds, Snapshot.load session.disk p = .ok ds ∧ (∀ d ∈ ds, ∃ now s, d.compile now = .ok s) ∧
          (ds.map (·.id)).Nodup ∧ ∀ d ∈ ds, e.registry.contains d.id = false) ∧
      ((session.next p (.start e clock)).engine = none →
        ∀ defines : List Event, (∀ event ∈ defines, event.isStart = false) →
          (run p (session.next p (.start e clock)) defines).disk = session.disk) := by
  subst hrun hlater
  constructor
  · intro d now s hstores hcompile
    obtain ⟨key, hkey⟩ := Snapshot.stores_iff.1 hstores
    have hsafe := ((safe_of_settled hsettled).run happart hbefore).1
    rcases (hsafe.run happart hafter).2 hkey hcompile with hsame | ⟨d', hkept, hunder⟩
    · have hstill := hkey.of_read fun _ => hsame.trans
      exact ⟨d, .refl d, Snapshot.stores_iff.2 ⟨key, hstill⟩, .inl hsame⟩
    · exact ⟨d', hkept, Snapshot.stores_iff.2 ⟨_, hunder⟩, .inr hunder⟩
  · intro e clock
    rw [← exists_restore_iff clock]
    simp only [next]
    cases hrestore : e.restore clock (run p ⟨none, disk⟩ before).disk p with
    | ok e' => exact ⟨iff_of_true rfl ⟨e', rfl⟩, nofun⟩
    | error reason =>
      refine ⟨iff_of_false Bool.false_ne_true nofun, fun _ defines hdefines => ?_⟩
      simp only [run_none hdefines]

def storedTariff : Disk :=
  Disk.empty.put ["rulesets.json"] (some (.file 0 (Bytes.ofText
    ("[\x7b\"k\":[\"tariff\",\"T\",null,[[\"r\",\"\",[\"x > 0\"],[\"action\",\"y\"]]]," ++
      "\"first_match\"]\x7d]"))))

def holdsOnly (id : String) : Except SnapshotError (List Definition) → Bool
  | .ok [d] => d.id == id && (d.compile .epoch).isOk
  | _ => false

def twoEngines : List Event :=
  [.start .empty fun _ => .epoch, .define .epoch (some ⟨2, 5⟩) (acceptAmount "first"),
    .start .empty fun _ => .epoch, .define .epoch none (acceptAmount "second")]

theorem stored_for_good_tariff :
    ∃ d d', Snapshot.Stores storedTariff ["rulesets.json"] d ∧ d.id = "tariff" ∧ d.KeptAs d' ∧
      Snapshot.StoresAs (run ["rulesets.json"] ⟨none, storedTariff⟩ twoEngines).disk
        ["rulesets.json"] "tariff" d' := by
  have hepoch : Instant.epoch.Valid := ⟨by decide, by decide, by decide, by decide⟩
  have happart : (Snapshot.temporary ["rulesets.json"]).plain ≠ Path.plain ["rulesets.json"] := by
    decide +kernel
  have hread : storedTariff.read ["rulesets.json"] = .ok _ := rfl
  have hvalid : ∀ event ∈ twoEngines, event.Valid := by
    simp [twoEngines, Event.Valid, acceptAmount, Engine.empty, Registry.sound_empty, hepoch]
  have hload : holdsOnly "tariff" (Snapshot.load storedTariff ["rulesets.json"]) = true := by
    decide +kernel
  have hchanged : (run ["rulesets.json"] ⟨none, storedTariff⟩ twoEngines).disk.read
      ["rulesets.json"] ≠ storedTariff.read ["rulesets.json"] := by
    decide +kernel
  unfold holdsOnly at hload
  split at hload
  · rename_i d hd
    rw [Bool.and_eq_true, beq_iff_eq] at hload
    obtain ⟨hid, hcompile⟩ := hload
    cases hs : d.compile .epoch with
    | error reason =>
      rw [hs] at hcompile
      cases hcompile
    | ok s =>
      have hstores : Snapshot.Stores storedTariff ["rulesets.json"] d :=
        ⟨[d], hd, List.mem_singleton_self d⟩
      obtain ⟨d', hkept, -, hsame | hunder⟩ := (stored_for_good happart
        (Snapshot.settled_of_read hread) (List.forall_mem_nil _) hvalid rfl rfl).1 d _ s hstores hs
      · exact absurd hsame hchanged
      · exact ⟨d, d', hstores, hid, hkept, hid ▸ hunder⟩
  · cases hload

end Session

end Rulebook.Engine
