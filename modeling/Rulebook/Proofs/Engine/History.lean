import Rulebook.Proofs.Disk.Alike
import Rulebook.Proofs.Engine.Define
import Rulebook.Proofs.Engine.Recording
/-!
The log as history. What is decided depends on the rule sets, the records and the stamps alone, so
that a write that fails takes nothing from any later decision. Main statement: the log is what the
receipts of a run say that it is.
-/

set_option autoImplicit false

namespace Rulebook

namespace DecisionLog

/-- Appends to logs of one kind leave disks alike, whatever is appended and whatever fails. -/
theorem append_alike {log log' : DecisionLog} {disk disk' : Disk} (h : Disk.Alike disk disk')
    (hhandle : log.handle? = log'.handle?) (fault fault' : Option WriteFault) (d d' : Decision) :
    Disk.Alike (log.append disk fault d).2.2 (log'.append disk' fault' d').2.2 := by
  cases log with
  | memory ds =>
    cases log' with
    | memory ds' => exact h
    | file path handle => cases hhandle
  | file path handle =>
    cases log' with
    | memory ds' => cases hhandle
    | file path' handle' =>
      obtain rfl := Option.some.inj hhandle
      obtain ⟨place, node⟩ := handle
      cases node with
      | directory | full => exact h
      | file number content =>
        have hn := h.node place
        have hput := fun number held held' => h.put place (.file number held held')
        simp only [append]
        generalize disk.node place = n, disk'.node place = n' at hn
        cases hn with
        | none | directory | full => exact h
        | file k held held' =>
          dsimp only
          split
          · exact hput k _ _
          · exact h

theorem appendResult_isOk {log log' : DecisionLog} {fault fault' : Option WriteFault}
    (hhandle : log.handle? = log'.handle?) (hfault : fault.isNone = fault'.isNone) :
    (log.appendResult fault).isOk = (log'.appendResult fault').isOk := by
  unfold appendResult
  rw [hhandle]
  cases fault with
  | none =>
    obtain rfl : fault' = none := Option.isNone_iff_eq_none.1 hfault.symm
    rfl
  | some f =>
    cases fault' with
    | none => cases hfault
    | some f' =>
      cases log'.handle? with
      | none => rfl
      | some handle =>
        obtain ⟨place, node⟩ := handle
        cases node <;> rfl

end DecisionLog

namespace Engine

def Reply.made (reply : Reply) : List Decision := reply.issued.map (·.decision)

def Call.faultless : Call → Call
  | .evaluate stamp _ id r => .evaluate stamp none id r
  | .evaluateAll stamp _ id rs => .evaluateAll stamp (fun _ => none) id rs
  | c => c

/-- Engines that differ at most in what their logs and files hold. -/
structure Twin (e e' : Engine) (disk disk' : Disk) : Prop where
  registry : e.registry = e'.registry
  traced : e.traced = e'.traced
  snapshot : e.snapshot = e'.snapshot
  handle : e.log.handle? = e'.log.handle?
  disks : Disk.Alike disk disk'

theorem Twin.refl (e : Engine) (disk : Disk) : Twin e e disk disk :=
  ⟨rfl, rfl, rfl, rfl, .refl disk⟩

theorem made_recordFrom {e : Engine} {disk : Disk} (fault : Nat → Option WriteFault) (k : Nat)
    (vs : List Evaluation) :
    (recordFrom k e disk fault vs).1.map (·.decision) = vs.map (·.decision) := by
  induction vs generalizing e disk k with
  | nil => rfl
  | cons v vs ih => exact congrArg (v.decision :: ·) (ih (k + 1))

namespace Twin

variable {e e' : Engine} {disk disk' : Disk}

theorem record (h : Twin e e' disk disk') (fault fault' : Option WriteFault) (v v' : Evaluation) :
    Twin (e.record disk fault v).2.1 (e'.record disk' fault' v').2.1
      (e.record disk fault v).2.2 (e'.record disk' fault' v').2.2 :=
  ⟨h.registry, h.traced, h.snapshot,
    (e.log.append_handle _ _ _).trans (h.handle.trans (e'.log.append_handle _ _ _).symm),
    DecisionLog.append_alike h.disks h.handle fault fault' v.decision v'.decision⟩

theorem recordFrom (h : Twin e e' disk disk') (fault fault' : Nat → Option WriteFault) (k : Nat)
    (vs : List Evaluation) :
    Twin (Engine.recordFrom k e disk fault vs).2.1 (Engine.recordFrom k e' disk' fault' vs).2.1
      (Engine.recordFrom k e disk fault vs).2.2 (Engine.recordFrom k e' disk' fault' vs).2.2 := by
  induction vs generalizing e e' disk disk' k with
  | nil => exact h
  | cons v vs ih => exact ih (h.record (fault k) (fault' k) v v) (k + 1)

theorem save (h : Twin e e' disk disk') (interruption : Option Disk.Interruption) (s : RuleSet) :
    (e.save disk interruption s).1 = (e'.save disk' interruption s).1 ∧
      Disk.Alike (e.save disk interruption s).2 (e'.save disk' interruption s).2 := by
  unfold Engine.save
  rw [h.snapshot, h.registry]
  cases e'.snapshot with
  | none => exact ⟨rfl, h.disks⟩
  | some p =>
    obtain ⟨hresult, hdisks⟩ := h.disks.performAll interruption
      (Snapshot.saveSteps p (e'.registry.list ++ [s]))
    simp only [Snapshot.save]
    generalize disk.performAll interruption _ = x, disk'.performAll interruption _ = x'
      at hresult hdisks
    obtain ⟨result, after⟩ := x
    obtain ⟨result', after'⟩ := x'
    obtain rfl : result = result' := hresult
    cases result with
    | error e => exact ⟨rfl, hdisks⟩
    | ok done => exact ⟨rfl, hdisks⟩

theorem define (h : Twin e e' disk disk') (now : Instant)
    (interruption : Option Disk.Interruption) (d : Definition) :
    Twin (e.define disk now interruption d).2.1 (e'.define disk' now interruption d).2.1
      (e.define disk now interruption d).2.2 (e'.define disk' now interruption d).2.2 := by
  unfold Engine.define
  rw [h.registry]
  cases e'.registry.prepare now d with
  | error reason => exact h
  | ok s =>
    obtain ⟨hresult, hdisks⟩ := h.save interruption s
    dsimp only
    generalize e.save disk interruption s = x, e'.save disk' interruption s = x'
      at hresult hdisks
    obtain ⟨result, after⟩ := x
    obtain ⟨result', after'⟩ := x'
    obtain rfl : result = result' := hresult
    cases result with
    | error reason => exact ⟨h.registry, h.traced, h.snapshot, h.handle, hdisks⟩
    | ok done =>
      cases e'.registry.insert s with
      | error reason => exact ⟨h.registry, h.traced, h.snapshot, h.handle, hdisks⟩
      | ok g => exact ⟨rfl, h.traced, h.snapshot, h.handle, hdisks⟩

theorem ruleSet (h : Twin e e' disk disk') (id : String) : e.ruleSet id = e'.ruleSet id := by
  rw [Engine.ruleSet, Engine.ruleSet, h.registry]

theorem call (h : Twin e e' disk disk') (c : Call) :
    (e.call disk c).1.made = (e'.call disk' c.faultless).1.made ∧
      Twin (e.call disk c).2.1 (e'.call disk' c.faultless).2.1
        (e.call disk c).2.2 (e'.call disk' c.faultless).2.2 := by
  cases c with
  | define now interruption d => exact ⟨rfl, h.define now interruption d⟩
  | evaluate stamp fault id r =>
    simp only [Engine.call, Call.faultless, evaluate, decide, h.ruleSet id, h.traced]
    cases e'.ruleSet id with
    | error err => exact ⟨rfl, h⟩
    | ok s => exact ⟨rfl, h.record fault none _ _⟩
  | evaluateAll stamp fault id rs =>
    simp only [Engine.call, Call.faultless, evaluateAll, h.ruleSet id, h.traced]
    cases e'.ruleSet id with
    | error err => exact ⟨rfl, h⟩
    | ok s =>
      refine ⟨?_, h.recordFrom fault (fun _ => none) 0 _⟩
      exact (made_recordFrom fault 0 _).trans (made_recordFrom (fun _ => none) 0 _).symm
  | decisions outage id => exact ⟨rfl, h⟩
  | summarize outage id => exact ⟨rfl, h⟩

theorem run (h : Twin e e' disk disk') (calls : List Call) :
    (e.run disk calls).1.map Reply.made =
      (e'.run disk' (calls.map Call.faultless)).1.map Reply.made := by
  induction calls generalizing e e' disk disk' with
  | nil => rfl
  | cons c cs ih =>
    obtain ⟨hmade, hlater⟩ := h.call c
    simp only [Engine.run, List.map_cons, hmade, ih hlater]

end Twin

def verdict (d : Decision) : List String × DecisionOutcome := (d.matchedRuleIds, d.outcome)

def oneByOne (stamp : Nat → Stamp) (fault : Nat → Option WriteFault) (id : String)
    (rs : List Record) : List Call :=
  rs.mapIdx fun k r => .evaluate (stamp k) (fault k) id r

section Batches

variable {e e' : Engine} {disk disk' : Disk} {id : String} {stamp stamp' : Nat → Stamp}
  {fault fault' : Nat → Option WriteFault}

theorem record_traced (f : Option WriteFault) (v : Evaluation) :
    (e.record disk f v).2.1.traced = e.traced := rfl

/-- The same record meets faults of one kind: what is kept of it has the same verdict. -/
theorem verdict_record (h : Twin e e' disk disk') {f f' : Option WriteFault}
    (hfault : f.isNone = f'.isNone) (s : RuleSet) (st st' : Stamp) (r : Record) :
    (e.record disk f (s.evaluate e.traced st r)).1.kept.map verdict =
      (e'.record disk' f' (s.evaluate e'.traced st' r)).1.kept.map verdict := by
  have hresult := DecisionLog.appendResult_isOk h.handle hfault
  rw [kept_record, kept_record, hresult]
  split <;> rfl

/-- The induction is on the records; the engines differ more and more in what their logs hold. -/
theorem verdict_recordFrom (h : Twin e e' disk disk') {s : RuleSet} (hs : e.ruleSet id = .ok s)
    (stamp stamp' : Nat → Stamp) (hfault : ∀ k, (fault k).isNone = (fault' k).isNone)
    (rs : List Record) (k : Nat) :
    ((recordFrom k e disk fault
        ((rs.zipIdx k).map fun x => s.evaluate e.traced (stamp x.2) x.1)).1.flatMap
          Receipt.kept).map verdict =
      (recorded (e'.run disk' ((rs.zipIdx k).map fun x =>
        .evaluate (stamp' x.2) (fault' x.2) id x.1)).1).map verdict := by
  induction rs generalizing e e' disk disk' k with
  | nil => rfl
  | cons r rs ih =>
    have hs' : e'.ruleSet id = .ok s := (h.ruleSet id).symm.trans hs
    have hcall : e'.call disk' (.evaluate (stamp' k) (fault' k) id r) =
        (.receipt (.ok (e'.record disk' (fault' k) (s.evaluate e'.traced (stamp' k) r)).1),
          (e'.record disk' (fault' k) (s.evaluate e'.traced (stamp' k) r)).2) := by
      simp only [Engine.call, evaluate, decide, hs', Except.map]
    have hfirst := verdict_record h (hfault k) s (stamp k) (stamp' k) r
    have hlater := ih (h.record (fault k) (fault' k) (s.evaluate e.traced (stamp k) r)
      (s.evaluate e'.traced (stamp' k) r)) hs (k + 1)
    simp only [List.zipIdx_cons, List.map_cons, Engine.run, hcall]
    rw [recorded_cons, List.map_append, ← hlater]
    simpa [Engine.recordFrom, record_traced, recorded, Reply.issued] using hfirst

theorem zipIdx_evaluateAll (s : RuleSet) (traced : Bool) (stamp : Nat → Stamp) (rs : List Record) :
    s.evaluateAll traced stamp rs =
      (rs.zipIdx 0).map fun x => s.evaluate traced (stamp x.2) x.1 := by
  rw [RuleSet.evaluateAll, List.mapIdx_eq_zipIdx_map]

theorem zipIdx_oneByOne (stamp : Nat → Stamp) (fault : Nat → Option WriteFault) (id : String)
    (rs : List Record) :
    oneByOne stamp fault id rs =
      (rs.zipIdx 0).map fun x => .evaluate (stamp x.2) (fault x.2) id x.1 := by
  rw [oneByOne, List.mapIdx_eq_zipIdx_map]

theorem verdict_evaluateAll (e : Engine) (disk : Disk)
    (hfault : ∀ k, (fault k).isNone = (fault' k).isNone) (rs : List Record) :
    (recorded [(e.call disk (.evaluateAll stamp fault id rs)).1]).map verdict =
      (recorded (e.run disk (oneByOne stamp' fault' id rs)).1).map verdict := by
  cases hs : e.ruleSet id with
  | error err =>
    have hnothing : recorded (e.run disk (oneByOne stamp' fault' id rs)).1 = [] := by
      rw [zipIdx_oneByOne]
      induction rs.zipIdx 0 with
      | nil => rfl
      | cons x xs ih =>
        have hcall : e.call disk (.evaluate (stamp' x.2) (fault' x.2) id x.1) =
            (.receipt (.error err), e, disk) := by
          simp only [Engine.call, evaluate, decide, hs, Except.map]
        simp only [List.map_cons, Engine.run, hcall]
        exact ih
    rw [hnothing]
    simp [Engine.call, evaluateAll, hs, recorded, Reply.issued]
  | ok s =>
    have hbatch := verdict_recordFrom (.refl e disk) hs stamp stamp' hfault rs 0
    rw [zipIdx_oneByOne, ← hbatch, ← zipIdx_evaluateAll]
    simp [Engine.call, evaluateAll, hs, recorded, Reply.issued]

end Batches

/-- The log at the end of a run. It holds `ds` at the beginning; `e'` and `disk'` are the end, from
which further calls are looked at. -/
structure History (e : Engine) (disk : Disk) (ds : List Decision) (calls : List Call)
    (replies : List Reply) (e' : Engine) (disk' : Disk) : Prop where
  all : e'.decisions disk' none none = .ok (ds ++ recorded replies)
  ofOne : ∀ id, e'.decisions disk' none (some id) =
    .ok ((ds ++ recorded replies).filter fun d => d.ruleSetId == id)
  grows : ∀ before after, calls = before ++ after → ∃ earlier later,
    (e.run disk before).2.1.decisions (e.run disk before).2.2 none none = .ok earlier ∧
      e'.decisions disk' none none = .ok (earlier ++ later)
  unknown : ∀ id, e'.registry.get? id = none →
    (∀ stamp fault r, e'.evaluate disk' stamp fault id r = (.error (.notFound id), e', disk')) ∧
      ∀ stamp fault rs, e'.evaluateAll disk' stamp fault id rs = (.error (.notFound id), e', disk')
  rejected : ∀ now interruption d err e'' disk'',
    e'.define disk' now interruption d = (.error err, e'', disk'') →
      e'' = e' ∧ ∀ id, e''.decisions disk'' none id = e'.decisions disk' none id
  unmoved : ∀ others, others.map Call.faultless = calls.map Call.faultless →
    (e.run disk others).1.map Reply.made = replies.map Reply.made
  /-- A batch leaves what its records leave one by one, if the same of them meet a fault. -/
  batches : ∀ id rs stamp stamp' fault fault',
    (∀ k, (fault k).isNone = (fault' k).isNone) →
    (e'.log.handle? = none ∨ (Call.evaluateAll stamp fault id rs).Careful ∧
      ∀ c ∈ oneByOne stamp' fault' id rs, c.Careful) →
    ∃ together apart : List Decision,
      (e'.call disk' (.evaluateAll stamp fault id rs)).2.1.decisions
        (e'.call disk' (.evaluateAll stamp fault id rs)).2.2 none none = .ok together ∧
      (e'.run disk' (oneByOne stamp' fault' id rs)).2.1.decisions
        (e'.run disk' (oneByOne stamp' fault' id rs)).2.2 none none = .ok apart ∧
      together.map verdict = apart.map verdict

variable {e e' : Engine} {disk disk' : Disk} {ds : List Decision}

theorem Keeps.decisions (h : e.Keeps disk ds) (id : Option String) :
    e.decisions disk none id = .ok (ds.filter (DecisionLog.ofRuleSet id)) := by
  rw [Engine.decisions, h.holds.query id]
  rfl

theorem Keeps.all (h : e.Keeps disk ds) : e.decisions disk none none = .ok ds := by
  rw [h.decisions none]
  exact congrArg _ (List.filter_eq_self.2 fun _ _ => rfl)

theorem evaluate_unknown {id : String} (h : e.registry.get? id = none) (stamp : Stamp)
    (fault : Option WriteFault) (r : Record) :
    e.evaluate disk stamp fault id r = (.error (.notFound id), e, disk) := by
  simp [evaluate, decide, ruleSet, h, Except.map]

theorem evaluateAll_unknown {id : String} (h : e.registry.get? id = none) (stamp : Nat → Stamp)
    (fault : Nat → Option WriteFault) (rs : List Record) :
    e.evaluateAll disk stamp fault id rs = (.error (.notFound id), e, disk) := by
  simp [evaluateAll, ruleSet, h]

theorem define_rejected {now : Instant} {interruption : Option Disk.Interruption} {d : Definition}
    {err : EngineError} (hdefine : e.define disk now interruption d = (.error err, e', disk')) :
    e' = e := by
  rcases define_cases hdefine with ⟨_, -, -, he, -⟩ | ⟨_, _, -, -, -, he⟩ | ⟨_, -, -, -, hok, -⟩
  · exact he
  · exact he
  · cases hok

theorem Keeps.batches (h : e.Keeps disk ds) {id : String} {rs : List Record}
    {stamp stamp' : Nat → Stamp} {fault fault' : Nat → Option WriteFault}
    (hfault : ∀ k, (fault k).isNone = (fault' k).isNone)
    (hcare : e.log.handle? = none ∨ (Call.evaluateAll stamp fault id rs).Careful ∧
      ∀ c ∈ oneByOne stamp' fault' id rs, c.Careful) :
    ∃ together apart : List Decision,
      (e.call disk (.evaluateAll stamp fault id rs)).2.1.decisions
        (e.call disk (.evaluateAll stamp fault id rs)).2.2 none none = .ok together ∧
      (e.run disk (oneByOne stamp' fault' id rs)).2.1.decisions
        (e.run disk (oneByOne stamp' fault' id rs)).2.2 none none = .ok apart ∧
      together.map verdict = apart.map verdict := by
  have hbatch := h.call _ (hcare.imp_right And.left)
  have hrun := h.run (hcare.imp_right And.right)
  refine ⟨_, _, hbatch.all, hrun.all, ?_⟩
  rw [List.map_append, List.map_append, verdict_evaluateAll e disk hfault rs]

/-- The log is the history of what was recorded, whatever was called and whatever failed. -/
theorem log_is_history {calls : List Call} {replies : List Reply} (hkeeps : e.Keeps disk ds)
    (hcalls : e.log.handle? = none ∨ ∀ c ∈ calls, c.Careful)
    (hrun : e.run disk calls = (replies, e', disk')) :
    History e disk ds calls replies e' disk' := by
  have hend : e'.Keeps disk' (ds ++ recorded replies) := by
    have hend := hkeeps.run hcalls
    rwa [hrun] at hend
  constructor
  case all => exact hend.all
  case ofOne => exact fun id => hend.decisions (some id)
  case grows =>
    rintro before after rfl
    have hbefore := hkeeps.run (hcalls.imp_right fun hall c hc =>
      hall c (List.mem_append_left _ hc))
    have hreplies : (e.run disk before).1 ++ _ = replies :=
      congrArg Prod.fst ((run_append before after).symm.trans hrun)
    have hall := hend.all
    rw [← hreplies, recorded_append, ← List.append_assoc] at hall
    exact ⟨_, _, hbefore.all, hall⟩
  case unknown =>
    exact fun id hid => ⟨evaluate_unknown hid, evaluateAll_unknown hid⟩
  case rejected =>
    intro now interruption d err e'' disk'' hdefine
    have hsame := (hend.define hdefine).decisions
    exact ⟨define_rejected hdefine, fun id => (hsame id).trans (hend.decisions id).symm⟩
  case unmoved =>
    intro others hothers
    have hcalls := (Twin.refl e disk).run calls
    have hlike := (Twin.refl e disk).run others
    rw [hrun] at hcalls
    rw [hlike, hothers, ← hcalls]
  case batches => exact fun id rs stamp stamp' fault fault' => hend.batches

def withLogFile : Except LogError DecisionLog × Disk := DecisionLog.openFile .empty ["decisions"]

def fileEngine : Engine :=
  ⟨.empty, false, .file ["decisions"] ⟨["decisions"], .file 0 []⟩, some ["rulesets.json"]⟩

def amount (n : Int) : Record := .ofList [("amount", .number (Binary64.ofInt n))]

def noSpace : WriteFault := ⟨.ofDisk .noSpace, 3, true⟩

def eventful : List Call :=
  [.define .epoch none (acceptAmount "first"),
    .evaluate ⟨"d-1", .epoch⟩ none "first" (amount 5),
    .define .epoch (some ⟨2, 5⟩) (acceptAmount "second"),
    .evaluate ⟨"d-2", .epoch⟩ none "second" (amount 5),
    .evaluate ⟨"d-3", .epoch⟩ (some noSpace) "first" (amount 5),
    .evaluateAll (fun k => ⟨"e-" ++ toString k, .epoch⟩)
      (fun k => if k = 1 then some noSpace else none) "first" [amount 1, amount (-1), amount 2]]

def eventfulRun : List Reply × Engine × Disk := fileEngine.run withLogFile.2 eventful

theorem log_is_history_eventful :
    (∀ c ∈ eventful, c.Careful) ∧
      (eventfulRun.2.1.decisions eventfulRun.2.2 none none).map (·.map (·.id)) =
        .ok ["d-1", "e-0", "e-2"] := by
  have hempty : DecisionLog.decisionsOfText "" = [] := by decide +kernel
  have hkeeps : fileEngine.Keeps withLogFile.2 [] := by
    rw [← hempty]
    refine @keeps_opened fileEngine .empty _ ["decisions"] "decisions" "" _ rfl (by decide) ?_
      (.inr ⟨rfl, ?_⟩) rfl
    · intro p hp q hq
      obtain rfl := Option.some.inj hp
      rcases List.mem_pair.1 hq with rfl | rfl
      · exact ⟨"rulesets.tmp", by decide +kernel, by decide, by decide⟩
      · exact ⟨"rulesets.json", rfl, by decide, by decide⟩
    · intro made hmade
      cases hmade
      rfl
  have hepoch : Instant.epoch.Valid := ⟨rfl, by decide, by decide, by decide⟩
  have hcareful : ∀ c ∈ eventful, c.Careful := by
    have hfinite : ∀ n ∈ [5, 1, -1, 2], (amount n).isFinite = true := by decide +kernel
    simp only [List.forall_mem_cons] at hfinite
    have htaken : noSpace.takenBack = true := rfl
    simp [eventful, Call.Careful, hfinite, hepoch, htaken]
  have hrun : fileEngine.run withLogFile.2 eventful =
      (eventfulRun.1, eventfulRun.2.1, eventfulRun.2.2) := rfl
  have hhistory := log_is_history hkeeps (.inr hcareful) hrun
  have hrecorded : (recorded eventfulRun.1).map (·.id) = ["d-1", "e-0", "e-2"] := by decide +kernel
  rw [hhistory.all]
  exact ⟨hcareful, congrArg Except.ok hrecorded⟩

end Engine

end Rulebook
