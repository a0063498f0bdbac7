import Rulebook.Proofs.DecisionLog.Session
import Rulebook.Proofs.Engine.Calls
import Rulebook.Proofs.Saving
/-!
Recording. Whatever calls an engine answers, its log has at its end the decisions of the receipts
that say so, in the order of the calls, and no other.
-/

set_option autoImplicit false

namespace Rulebook

namespace DecisionLog

def appendResult (log : DecisionLog) (fault : Option WriteFault) : Except LogError Unit :=
  match log.handle?, fault with
  | some ⟨_, .directory⟩, _ | some ⟨_, .full⟩, _ => .error (.ofDisk .noSpace)
  | _, some fault => .error fault.error
  | _, none => .ok ()

theorem append_result (log : DecisionLog) (disk : Disk) (fault : Option WriteFault)
    (d : Decision) : (log.append disk fault d).1 = log.appendResult fault := by
  cases log with
  | memory ds => cases fault <;> rfl
  | file path handle =>
    obtain ⟨place, node⟩ := handle
    cases node with
    | directory | full => rfl
    | file number content =>
      cases fault with
      | none =>
        simp only [append]
        split
        · split <;> rfl
        · rfl
      | some fault =>
        simp only [append]
        split
        · split <;> rfl
        · rfl

theorem append_keepsDirectories (log : DecisionLog) (disk : Disk) (fault : Option WriteFault)
    (d : Decision) : Disk.KeepsDirectories disk (log.append disk fault d).2.2 := by
  have hsame : Disk.KeepsDirectories disk disk := fun _ h => h
  cases log with
  | memory ds => exact hsame
  | file path handle =>
    obtain ⟨place, node⟩ := handle
    cases node with
    | directory | full => exact hsame
    | file number content =>
      simp only [append]
      split
      · rename_i hn
        split
        · exact Disk.keepsDirectories_put _ (by simp [hn])
        · exact hsame
      · exact hsame

theorem append_elsewhere (log : DecisionLog) (disk : Disk) (fault : Option WriteFault)
    (d : Decision) {q : Path} (hq : ∀ handle ∈ log.handle?, q ≠ handle.place) :
    (log.append disk fault d).2.2.node q = disk.node q := by
  cases log with
  | memory ds => rfl
  | file path handle =>
    obtain ⟨place, node⟩ := handle
    have hne : q ≠ place := hq _ rfl
    cases node with
    | directory | full => rfl
    | file number content =>
      simp only [append]
      split
      · split
        · rw [Disk.node_put, if_neg hne]
        · rfl
      · rfl

theorem append_stands (log : DecisionLog) (disk : Disk) (fault : Option WriteFault) (d : Decision)
    {q : Path} {n : Node} (hn : disk.node q = some n) :
    ∃ n', (log.append disk fault d).2.2.node q = some n' := by
  by_cases hq : ∀ handle ∈ log.handle?, q ≠ handle.place
  · exact ⟨n, (log.append_elsewhere disk fault d hq).trans hn⟩
  · cases log with
    | memory ds => exact ⟨n, hn⟩
    | file path handle =>
      obtain ⟨place, node⟩ := handle
      obtain rfl : q = place := by simpa [handle?] using hq
      cases node with
      | directory | full => exact ⟨n, hn⟩
      | file number content =>
        simp only [append]
        split
        · split
          · exact ⟨_, by rw [Disk.node_put, if_pos rfl]⟩
          · exact ⟨n, hn⟩
        · exact ⟨n, hn⟩

/-- What a log has kept, in memory or in the lines of its file. -/
def Holds (log : DecisionLog) (disk : Disk) (ds : List Decision) : Prop :=
  log = .memory ds ∨ ∃ p, log.Records disk p ds

namespace Holds

variable {log : DecisionLog} {disk disk' : Disk} {ds : List Decision}

theorem query (h : log.Holds disk ds) (id : Option String) :
    log.query disk none id = .ok (ds.filter (ofRuleSet id)) := by
  rcases h with rfl | ⟨p, hrecords⟩
  · rfl
  · exact hrecords.query id

theorem append (h : log.Holds disk ds) {fault : Option WriteFault} {d : Decision}
    (hcare : log.handle? = none ∨ (∀ f ∈ fault, f.takenBack = true) ∧ d.Writable) :
    (log.append disk fault d).2.1.Holds (log.append disk fault d).2.2
      (ds ++ if (log.appendResult fault).isOk then [d] else []) := by
  rcases h with rfl | ⟨p, hrecords⟩
  · cases fault with
    | none => exact .inl rfl
    | some fault => exact .inl (congrArg memory (List.append_nil ds).symm)
  · obtain ⟨htaken, hwritable⟩ : (∀ f ∈ fault, f.takenBack = true) ∧ d.Writable := by
      refine hcare.resolve_left fun hnone => ?_
      obtain ⟨place, number, content, rfl, -⟩ := hrecords
      cases hnone
    cases fault with
    | none =>
      obtain ⟨disk', happend, hafter⟩ := hrecords.append hwritable
      obtain ⟨place, number, content, rfl, -⟩ := hrecords
      rw [happend]
      exact .inr ⟨p, hafter⟩
    | some fault =>
      rw [hrecords.append_failed (htaken fault rfl)]
      obtain ⟨place, number, content, rfl, hstands, htext, hds⟩ := hrecords
      refine .inr ⟨p, place, number, content, rfl, hstands, htext, ?_⟩
      rw [hds]
      exact (List.append_nil ds).symm

theorem of_spares (h : log.Holds disk ds) {ps : List Path} (hspares : Disk.Spares ps disk disk')
    (happart : ∀ handle ∈ log.handle?, ∀ p ∈ ps, disk'.locate p ≠ .ok handle.place) :
    log.Holds disk' ds := by
  rcases h with rfl | ⟨p, place, number, content, rfl, hstands, htext, hds⟩
  · exact .inl rfl
  · refine .inr ⟨p, place, number, content, rfl, ?_, htext, hds⟩
    exact stands_of_keeps hspares.keeps hstands.parents hstands.located
      (hspares.stands (happart _ rfl) hstands.stored) hstands.whole

end Holds

end DecisionLog

def Receipt.kept (r : Receipt) : List Decision := if r.status.isRecorded then [r.decision] else []

namespace Engine

def Reply.issued : Reply → List Receipt
  | .receipt (.ok r) => [r]
  | .receipts (.ok rs) => rs
  | _ => []

def recorded (replies : List Reply) : List Decision :=
  (replies.flatMap Reply.issued).flatMap Receipt.kept

theorem recorded_cons (reply : Reply) (replies : List Reply) :
    recorded (reply :: replies) = recorded [reply] ++ recorded replies := by
  simp [recorded]

theorem recorded_append (replies later : List Reply) :
    recorded (replies ++ later) = recorded replies ++ recorded later := by
  simp [recorded]

/-- What a log file needs: failed writes are taken back, and what is written can be read back. -/
def Call.Careful : Call → Prop
  | .evaluate stamp fault _ r =>
    (∀ f ∈ fault, f.takenBack = true) ∧ r.isFinite = true ∧ stamp.time.Valid
  | .evaluateAll stamp fault _ rs =>
    (∀ k, ∀ f ∈ fault k, f.takenBack = true) ∧ (∀ r ∈ rs, r.isFinite = true) ∧
      ∀ k, (stamp k).time.Valid
  | _ => True

/-- A log file never stands where a snapshot or its temporary file is put, whatever directories are
made. -/
def Apart (e : Engine) (disk : Disk) : Prop :=
  ∀ handle ∈ e.log.handle?, ∀ p ∈ e.snapshot, ∀ disk', Disk.KeepsDirectories disk disk' →
    ∀ q ∈ [Snapshot.temporary p, p], disk'.locate q ≠ .ok handle.place

theorem Apart.of_keeps {e e' : Engine} {disk disk' : Disk} (h : e.Apart disk)
    (hkeeps : Disk.KeepsDirectories disk disk') (hhandle : e'.log.handle? = e.log.handle?)
    (hsnapshot : e'.snapshot = e.snapshot) : e'.Apart disk' := by
  intro handle hmem p hp disk'' hlater
  rw [hhandle] at hmem
  rw [hsnapshot] at hp
  exact h handle hmem p hp disk'' (hkeeps.trans hlater)

theorem keepsDirectories_of_save {e : Engine} {disk disk' : Disk}
    {interruption : Option Disk.Interruption} {s : RuleSet}
    {result : Except SnapshotError Unit} (hsave : e.save disk interruption s = (result, disk')) :
    Disk.KeepsDirectories disk disk' := by
  unfold save at hsave
  split at hsave
  · cases hsave
    exact fun _ hq => hq
  · exact (Snapshot.spares_of_save hsave).keeps

/-- The log has kept these decisions, and nothing that is saved gets in its way. -/
structure Keeps (e : Engine) (disk : Disk) (ds : List Decision) : Prop where
  holds : e.log.Holds disk ds
  apart : e.Apart disk

/-- A log file that is opened keeps what its text holds, if it has another name than the snapshot
and its temporary file. -/
theorem keeps_opened {e : Engine} {disk disk₁ : Disk} {path : Path} {name text : String}
    {log : DecisionLog} (hlast : path.getLast? = some name)
    (hname : name ≠ "" ∧ name ≠ "." ∧ name ≠ "..")
    (hothers : ∀ p ∈ e.snapshot, ∀ q ∈ [Snapshot.temporary p, p], ∃ other,
      q.getLast? = some other ∧ (other ≠ "" ∧ other ≠ "." ∧ other ≠ "..") ∧ other ≠ name)
    (hstart : DecisionLog.Begins disk path (Bytes.ofText text))
    (hopen : DecisionLog.openFile disk path = (.ok log, disk₁)) :
    Keeps { e with log } disk₁ (DecisionLog.decisionsOfText text) := by
  obtain ⟨place, number, hlog, hstands⟩ := DecisionLog.stands_of_openFile hstart hopen
  obtain ⟨htext, hds⟩ := DecisionLog.decisions_of_repaired text
  refine ⟨.inr ⟨path, place, number, _, hlog, hstands, htext, hds⟩, ?_⟩
  intro handle hmem p hp disk' hlater q hq hlocate
  obtain ⟨other, hother, hordinary, hne⟩ := hothers p hp q hq
  have hplace : place.getLast? = some name := Disk.getLast?_of_locate hstands.located hlast hname
  have hthere := Disk.getLast?_of_locate hlocate hother hordinary
  obtain rfl : ⟨place, .file number []⟩ = handle := by simpa [hlog, DecisionLog.handle?] using hmem
  rw [hplace] at hthere
  exact hne (Option.some.inj hthere).symm

theorem kept_record (e : Engine) (disk : Disk) (fault : Option WriteFault) (v : Evaluation) :
    (e.record disk fault v).1.kept =
      if (e.log.appendResult fault).isOk then [v.decision] else [] := by
  have hresult := e.log.append_result disk fault v.decision
  simp only [Receipt.kept, record, hresult]
  cases e.log.appendResult fault <;> rfl

namespace Keeps

variable {e e' : Engine} {disk disk' : Disk} {ds : List Decision}

theorem record (h : e.Keeps disk ds) {fault : Option WriteFault} {v : Evaluation}
    (hcare : e.log.handle? = none ∨
      (∀ f ∈ fault, f.takenBack = true) ∧ v.decision.Writable) :
    (e.record disk fault v).2.1.Keeps (e.record disk fault v).2.2
      (ds ++ (e.record disk fault v).1.kept) := by
  rw [kept_record]
  exact ⟨h.holds.append hcare, h.apart.of_keeps
    (e.log.append_keepsDirectories disk fault v.decision) (e.log.append_handle _ _ _) rfl⟩

theorem recordFrom (h : e.Keeps disk ds) {fault : Nat → Option WriteFault} {vs : List Evaluation}
    (hcare : e.log.handle? = none ∨ (∀ k, ∀ f ∈ fault k, f.takenBack = true) ∧
      ∀ v ∈ vs, v.decision.Writable) (k : Nat) :
    (Engine.recordFrom k e disk fault vs).2.1.Keeps (Engine.recordFrom k e disk fault vs).2.2
      (ds ++ (Engine.recordFrom k e disk fault vs).1.flatMap Receipt.kept) := by
  induction vs generalizing e disk ds k with
  | nil => simpa [Engine.recordFrom] using h
  | cons v vs ih =>
    have hfirst := h.record (hcare.imp_right fun hc => ⟨hc.1 k, hc.2 v List.mem_cons_self⟩)
    have hhandle := e.log.append_handle disk (fault k) v.decision
    have hlater := ih hfirst (hcare.imp (hhandle.trans ·) fun hc =>
      ⟨hc.1, fun v' hv' => hc.2 v' (List.mem_cons_of_mem v hv')⟩) (k + 1)
    rwa [List.append_assoc, ← List.flatMap_cons] at hlater

theorem holds_of_save (h : e.Keeps disk ds) {interruption : Option Disk.Interruption} {s : RuleSet}
    {result : Except SnapshotError Unit} (hsave : e.save disk interruption s = (result, disk')) :
    e.log.Holds disk' ds := by
  unfold Engine.save at hsave
  split at hsave
  · cases hsave
    exact h.holds
  · rename_i p hp
    have hspares := Snapshot.spares_of_save hsave
    exact h.holds.of_spares hspares fun handle hmem q hq =>
      h.apart handle hmem p hp disk' hspares.keeps q hq

theorem define (h : e.Keeps disk ds) {now : Instant} {interruption : Option Disk.Interruption}
    {d : Definition} {result : Except EngineError RuleSet}
    (hdefine : e.define disk now interruption d = (result, e', disk')) : e'.Keeps disk' ds := by
  rcases define_cases hdefine with
    ⟨_, -, -, rfl, rfl⟩ | ⟨s, _, -, hs, -, rfl⟩ | ⟨s, -, -, hs, -, rfl⟩
  · exact h
  · exact ⟨h.holds_of_save hs, h.apart.of_keeps (keepsDirectories_of_save hs) rfl rfl⟩
  · exact ⟨h.holds_of_save hs, h.apart.of_keeps (keepsDirectories_of_save hs) rfl rfl⟩

/-- One call: the log has the decisions that are said to be recorded at its end. -/
theorem call (h : e.Keeps disk ds) (c : Call) (hc : e.log.handle? = none ∨ c.Careful) :
    (e.call disk c).2.1.Keeps (e.call disk c).2.2 (ds ++ recorded [(e.call disk c).1]) := by
  cases c with
  | define now interruption d =>
    obtain ⟨result, e', disk', hdefine⟩ : ∃ result e' disk',
        e.define disk now interruption d = (result, e', disk') := ⟨_, _, _, rfl⟩
    simpa [Engine.call, hdefine, recorded, Reply.issued] using h.define hdefine
  | evaluate stamp fault id r =>
    cases hs : e.ruleSet id with
    | error err =>
      simpa [Engine.call, evaluate, decide, hs, Except.map, recorded, Reply.issued] using h
    | ok s =>
      have hcare : e.log.handle? = none ∨ (∀ f ∈ fault, f.takenBack = true) ∧
          (s.evaluate e.traced stamp r).decision.Writable :=
        hc.imp_right fun hcare => ⟨hcare.1, hcare.2.1, hcare.2.2⟩
      have hrecord := h.record hcare
      simpa [Engine.call, evaluate, decide, hs, Except.map, recorded, Reply.issued] using hrecord
  | evaluateAll stamp fault id rs =>
    cases hs : e.ruleSet id with
    | error err =>
      simpa [Engine.call, evaluateAll, hs, recorded, Reply.issued] using h
    | ok s =>
      have hcare : e.log.handle? = none ∨ (∀ k, ∀ f ∈ fault k, f.takenBack = true) ∧
          ∀ v ∈ s.evaluateAll e.traced stamp rs, v.decision.Writable := by
        refine hc.imp_right fun hcare => ⟨hcare.1, fun v hv => ?_⟩
        obtain ⟨k, hk, rfl⟩ := List.mem_mapIdx.1 hv
        exact ⟨hcare.2.1 _ (List.getElem_mem hk), hcare.2.2 k⟩
      have hrecord := h.recordFrom hcare 0
      simpa [Engine.call, evaluateAll, hs, recorded, Reply.issued] using hrecord
  | decisions outage id => simpa [Engine.call, recorded, Reply.issued] using h
  | summarize outage id => simpa [Engine.call, recorded, Reply.issued] using h

end Keeps

theorem call_handle {e : Engine} {disk : Disk} (c : Call) :
    (e.call disk c).2.1.log.handle? = e.log.handle? := by
  refine call_invariant (P := fun e' _ => e'.log.handle? = e.log.handle?) ?_
    (fun fault v h => (DecisionLog.append_handle ..).trans h) rfl
  rintro e₁ e₂ disk₁ disk₂ now interruption d result - hsame hdefine
  rcases define_cases hdefine with
    ⟨_, -, -, rfl, -⟩ | ⟨_, _, -, -, -, rfl⟩ | ⟨_, -, -, -, -, rfl⟩ <;> exact hsame

/-- A whole run: the log has the decisions that are said to be recorded at its end. -/
theorem Keeps.run {e : Engine} {disk : Disk} {ds : List Decision} (h : e.Keeps disk ds)
    {calls : List Call} (hcalls : e.log.handle? = none ∨ ∀ c ∈ calls, c.Careful) :
    (e.run disk calls).2.1.Keeps (e.run disk calls).2.2 (ds ++ recorded (e.run disk calls).1) := by
  induction calls generalizing e disk ds with
  | nil => simpa [Engine.run, recorded] using h
  | cons c cs ih =>
    have hfirst := h.call c (hcalls.imp_right fun hall => hall c List.mem_cons_self)
    have hlater := ih hfirst (hcalls.imp ((call_handle c).trans ·) fun hall c' hc' =>
      hall c' (List.mem_cons_of_mem c hc'))
    rwa [List.append_assoc, ← recorded_cons] at hlater

theorem run_append {e : Engine} {disk : Disk} (before after : List Call) :
    e.run disk (before ++ after) =
      ((e.run disk before).1 ++
          ((e.run disk before).2.1.run (e.run disk before).2.2 after).1,
        ((e.run disk before).2.1.run (e.run disk before).2.2 after).2) := by
  induction before generalizing e disk with
  | nil => rfl
  | cons c cs ih =>
    simp only [List.cons_append, Engine.run, ih]

end Engine

end Rulebook
