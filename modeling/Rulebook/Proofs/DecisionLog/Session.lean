import Rulebook.Proofs.Disk
import Rulebook.Proofs.DecisionLog.Reading
/-!
Sessions of a log: decisions are appended and asked for, and the log is opened again at any time.
Main statement: a log in a file answers all calls as a log in memory does that starts from the
decisions in the lines of the file.
-/

set_option autoImplicit false

namespace Rulebook.DecisionLog

inductive Call where
  | append (d : Decision)
  | query (id : Option String)
  | reopen

inductive Reply where
  | done (result : Except LogError Unit)
  | found (result : Except LogError (List Decision))

def call (log : DecisionLog) (disk : Disk) : Call → Reply × DecisionLog × Disk
  | .append d =>
    let (result, log, disk) := log.append disk none d
    (.done result, log, disk)
  | .query id => (.found (log.query disk none id), log, disk)
  | .reopen =>
    match log with
    | .memory decisions => (.done (.ok ()), .memory decisions, disk)
    | .file p handle =>
      match openFile disk p with
      | (.ok log, disk) => (.done (.ok ()), log, disk)
      | (.error e, disk) => (.done (.error e), .file p handle, disk)

def run (log : DecisionLog) (disk : Disk) : List Call → List Reply × DecisionLog × Disk
  | [] => ([], log, disk)
  | c :: cs =>
    let (reply, log, disk) := log.call disk c
    let (replies, log, disk) := run log disk cs
    (reply :: replies, log, disk)

def appended (calls : List Call) : List Decision :=
  calls.filterMap fun
    | .append d => some d
    | _ => none

def decisionsOfText (s : String) : List Decision := (Bytes.textLines s).filterMap Decision.read?

/-- The log file stands at its place, with whole lines in it. -/
structure Stands (disk : Disk) (p place : Path) (number : Nat) (content : Bytes) : Prop where
  parents : disk.WithParents p.parent
  located : disk.locate p = .ok place
  stored : disk.node place = some (.file number content)
  whole : Bytes.endsMidLine content = false

theorem stands_of_keeps {disk disk' : Disk} {p place : Path} {number : Nat} {content : Bytes}
    (hkeeps : Disk.KeepsDirectories disk disk') (hparents : disk.WithParents p.parent)
    (hl : disk.locate p = .ok place) (hn : disk'.node place = some (.file number content))
    (hw : Bytes.endsMidLine content = false) : Stands disk' p place number content :=
  ⟨Disk.withParents_of_keeps hkeeps hparents, Disk.locate_of_keeps hkeeps hl, hn, hw⟩

namespace Stands

variable {disk : Disk} {p place : Path} {number : Nat} {content : Bytes}

theorem read (h : Stands disk p place number content) : disk.read p = .ok content :=
  Disk.read_eq_ok.2 ⟨number, Disk.find_eq_ok.2 ⟨place, h.located, h.stored⟩⟩

theorem put (h : Stands disk p place number content) {content' : Bytes}
    (hw : Bytes.endsMidLine content' = false) :
    Stands (disk.put place (some (.file number content'))) p place number content' :=
  stands_of_keeps (Disk.keepsDirectories_put _ (by simp [h.stored])) h.parents h.located
    (by rw [Disk.node_put, if_pos rfl]) hw

theorem openFile (h : Stands disk p place number content) :
    DecisionLog.openFile disk p = (.ok (.file p ⟨place, .file number []⟩), disk) := by
  have hdir := Disk.makeDirectory_again h.parents
  have hput := Disk.put_self h.stored
  simp [DecisionLog.openFile, hdir, Disk.openFile, h.located, h.stored, h.whole, hput]

theorem append (h : Stands disk p place number content) (d : Decision) :
    (DecisionLog.file p ⟨place, .file number []⟩).append disk none d =
      (.ok (), .file p ⟨place, .file number []⟩,
        disk.put place (some (.file number (content ++ line d)))) := by
  simp [DecisionLog.append, h.stored, appendLine]

end Stands

def repaired (content : Bytes) : Bytes :=
  if Bytes.endsMidLine content then content ++ [Bytes.lineEnd] else content

theorem repaired_whole (content : Bytes) : Bytes.endsMidLine (repaired content) = false := by
  unfold repaired
  split
  · simp [Bytes.endsMidLine]
  · simp_all

/-- What a log file holds before it is opened. Where no file stands, it is as if an empty one did. -/
def Begins (disk : Disk) (p : Path) (content : Bytes) : Prop :=
  disk.read p = .ok content ∨
    content = [] ∧ ∀ made, disk.makeDirectory p.parent = .ok made → made.read p = .error .notFound

theorem stands_of_openFile {disk disk₁ : Disk} {p : Path} {content : Bytes} {log : DecisionLog}
    (hstart : Begins disk p content) (hopen : openFile disk p = (.ok log, disk₁)) :
    ∃ place number, log = .file p ⟨place, .file number []⟩ ∧
      Stands disk₁ p place number (repaired content) := by
  unfold openFile at hopen
  cases hm : disk.makeDirectory p.parent with
  | error e => simp [hm] at hopen
  | ok made =>
    obtain ⟨hparents, hextends⟩ := Disk.makeDirectory_eq_ok hm
    simp only [hm] at hopen
    rcases hstart with hread | ⟨rfl, hnone⟩
    -- The file is there: its last line is ended if it breaks off.
    · obtain ⟨number, hfind⟩ := Disk.read_eq_ok.1 hread
      obtain ⟨place, hl, hn⟩ := Disk.find_eq_ok.1 hfind
      have hlocate := Disk.locate_of_keeps hextends.keeps hl
      have hnode := hextends _ _ hn
      have hmade : made.openFile p = .ok (⟨place, .file number content⟩, made) := by
        simp [Disk.openFile, hlocate, hnode]
      simp only [hmade, Prod.mk.injEq, Except.ok.injEq] at hopen
      obtain ⟨rfl, rfl⟩ := hopen
      refine ⟨place, number, rfl, stands_of_keeps (Disk.keepsDirectories_put _ ?_) hparents hlocate
        ?_ (repaired_whole content)⟩
      · simp [hnode]
      · rw [Disk.node_put, if_pos rfl, repaired]
    -- There is no file: opening makes one, and a fresh one has whole lines.
    · cases ho : made.openFile p with
      | error e => simp [ho] at hopen
      | ok opened =>
        obtain ⟨⟨place, n⟩, after⟩ := opened
        obtain ⟨hl, rfl, hafter, hn⟩ := Disk.openFile_of_notFound (hnone made hm) ho
        simp only [ho, Prod.mk.injEq, Except.ok.injEq] at hopen
        obtain ⟨rfl, rfl⟩ := hopen
        refine ⟨place, made.nextNumber, rfl, stands_of_keeps (fun q hq => ?_) hparents hl ?_
          (repaired_whole [])⟩
        · have hne : q ≠ place := fun he => by simp [← he, hq] at hn
          simp [hafter, hne, hq]
        · simp [hafter, repaired, Bytes.endsMidLine]

/-- What the lines of a file decode to, once the file is whole, is what the lines of its text do. -/
theorem decisions_of_repaired (s : String) :
    (Bytes.lines (repaired (Bytes.ofText s))).all Bytes.isText = true ∧
      (Bytes.lines (repaired (Bytes.ofText s))).filterMap decode? = decisionsOfText s := by
  have hlines := Bytes.lines_ofText s
  have hempty : decode? [] = none := by decide +kernel
  have hall : ((Bytes.textLines s).map Bytes.ofText).all Bytes.isText = true := by
    simp [Bytes.isText_ofText]
  have hds : ((Bytes.textLines s).map Bytes.ofText).filterMap decode? = decisionsOfText s := by
    rw [List.filterMap_map, decisionsOfText]
    congr 1
    funext l
    rw [Function.comp_apply, decode?, Bytes.text?_ofText, Option.bind_some]
  rw [Bytes.lines_append_lineEnd] at hlines
  unfold repaired
  by_cases h : Bytes.endsMidLine (Bytes.ofText s) = true
  · rw [if_pos h] at hlines ⊢
    rw [Bytes.lines_repaired h, hlines]
    exact ⟨hall, hds⟩
  · rw [if_neg h] at hlines ⊢
    rw [← hlines] at hall hds
    simp only [List.all_append, Bool.and_eq_true] at hall
    exact ⟨hall.1, by simpa [List.filterMap_append, hempty] using hds⟩

def Records (log : DecisionLog) (disk : Disk) (p : Path) (ds : List Decision) : Prop :=
  ∃ place number content, log = .file p ⟨place, .file number []⟩ ∧
    Stands disk p place number content ∧ (Bytes.lines content).all Bytes.isText = true ∧
    (Bytes.lines content).filterMap decode? = ds

theorem Records.query {log : DecisionLog} {disk : Disk} {p : Path} {ds : List Decision}
    (h : Records log disk p ds) (id : Option String) :
    log.query disk none id = .ok (ds.filter (ofRuleSet id)) := by
  obtain ⟨place, number, content, rfl, hstands, htext, hds⟩ := h
  rw [query_file hstands.read, if_pos htext, hds]

theorem Records.append_written {log : DecisionLog} {disk : Disk} {p : Path} {ds : List Decision}
    (h : Records log disk p ds) {d : Decision} (htime : d.evaluatedAt.Valid) :
    ∃ disk', log.append disk none d = (.ok (), log, disk') ∧
      Records log disk' p (ds ++ [d.written]) := by
  obtain ⟨place, number, content, rfl, hstands, htext, rfl⟩ := h
  refine ⟨_, hstands.append d, place, number, content ++ line d, rfl, hstands.put ?_, ?_, ?_⟩
  · rw [line_eq]
    simp [Bytes.endsMidLine]
  all_goals rw [line_eq, Bytes.lines_append_line hstands.whole (lineEnd_not_mem_text d)]
  · simpa [Bytes.isText_ofText] using htext
  · simp [List.filterMap_append, decode?_text_written htime]

theorem Records.append {log : DecisionLog} {disk : Disk} {p : Path} {ds : List Decision}
    (h : Records log disk p ds) {d : Decision} (hw : d.Writable) :
    ∃ disk', log.append disk none d = (.ok (), log, disk') ∧ Records log disk' p (ds ++ [d]) := by
  have happend := h.append_written hw.time
  rwa [hw.written_eq] at happend

/-- An append that fails leaves the file as it was, if what it wrote is taken back. -/
theorem Records.append_failed {log : DecisionLog} {disk : Disk} {p : Path} {ds : List Decision}
    (h : Records log disk p ds) {fault : WriteFault} (htaken : fault.takenBack = true)
    (d : Decision) : log.append disk (some fault) d = (.error fault.error, log, disk) := by
  obtain ⟨place, number, content, rfl, hstands, htext, hds⟩ := h
  have hput : disk.put place (some (.file number content)) = disk := Disk.put_self hstands.stored
  simp [DecisionLog.append, hstands.stored, appendLine, htaken, hput]

theorem Records.call {log : DecisionLog} {disk : Disk} {p : Path} {ds : List Decision}
    (h : Records log disk p ds) (c : Call) (hw : ∀ d ∈ appended [c], d.Writable) (other : Disk) :
    ∃ reply log' disk', log.call disk c = (reply, log', disk') ∧
      (memory ds).call other c = (reply, memory (ds ++ appended [c]), other) ∧
      Records log' disk' p (ds ++ appended [c]) := by
  cases c with
  | append d =>
    obtain ⟨disk', happend, hrecords⟩ := h.append (hw d (by simp [appended]))
    exact ⟨.done (.ok ()), log, disk', by simp [DecisionLog.call, happend], rfl, hrecords⟩
  | query id =>
    have hquery : log.query disk none id = (memory ds).query other none id := h.query id
    refine ⟨_, log, disk, rfl, ?_, by simpa [appended] using h⟩
    simp [DecisionLog.call, hquery, appended]
  | reopen =>
    obtain ⟨place, number, content, rfl, hstands, htext, rfl⟩ := h
    have hopen := hstands.openFile
    refine ⟨.done (.ok ()), .file p ⟨place, .file number []⟩, disk, ?_, ?_, ?_⟩
    · simp [DecisionLog.call, hopen]
    · simp [DecisionLog.call, appended]
    · exact ⟨place, number, content, rfl, hstands, htext, by simp [appended]⟩

theorem Records.run {log : DecisionLog} {disk : Disk} {p : Path} {ds : List Decision}
    (h : Records log disk p ds) (calls : List Call) (hw : ∀ d ∈ appended calls, d.Writable)
    (other : Disk) :
    (log.run disk calls).1 = ((memory ds).run other calls).1 ∧
      Records (log.run disk calls).2.1 (log.run disk calls).2.2 p (ds ++ appended calls) := by
  induction calls generalizing log disk ds with
  | nil =>
    refine ⟨rfl, ?_⟩
    have happended : ds ++ appended [] = ds := List.append_nil ds
    rwa [happended]
  | cons c cs ih =>
    have happended : appended (c :: cs) = appended [c] ++ appended cs := by
      simp only [appended, ← List.filterMap_append]
      rfl
    rw [happended] at hw ⊢
    obtain ⟨hc, hcs⟩ := List.forall_mem_append.1 hw
    obtain ⟨reply, log', disk', hcall, hmemory, hrecords⟩ := h.call c hc other
    obtain ⟨hreplies, hend⟩ := ih hrecords hcs
    simp only [DecisionLog.run, hcall, hmemory, hreplies, true_and]
    rwa [← List.append_assoc]

/-- From any text on, a log in a file answers appending, asking and opening again as a log in memory
does that starts from the decisions in the lines of the text; asked at the end it has these and then
all that were appended. -/
theorem run_file_eq_memory {disk disk₁ : Disk} {p : Path} {text : String} {log : DecisionLog}
    (hstart : Begins disk p (Bytes.ofText text)) (hopen : openFile disk p = (.ok log, disk₁))
    (calls : List Call) (hw : ∀ d ∈ appended calls, d.Writable) :
    (log.run disk₁ calls).1 = ((memory (decisionsOfText text)).run Disk.empty calls).1 ∧
      ∀ id, (log.run disk₁ calls).2.1.query (log.run disk₁ calls).2.2 none id =
        .ok ((decisionsOfText text ++ appended calls).filter (ofRuleSet id)) := by
  obtain ⟨place, number, hlog, hstands⟩ := stands_of_openFile hstart hopen
  obtain ⟨htext, hds⟩ := decisions_of_repaired text
  have hrecords : Records log disk₁ p (decisionsOfText text) :=
    ⟨place, number, _, hlog, hstands, htext, hds⟩
  obtain ⟨hreplies, hend⟩ := hrecords.run calls hw Disk.empty
  exact ⟨hreplies, fun id => hend.query id⟩

def tornText : String := nothingDecided.text ++ "\n" ++ "\x7b\"id\":\"d-2"

def tornDisk : Disk := Disk.empty.put ["log"] (some (.file 0 (Bytes.ofText tornText)))

def tornLog : DecisionLog := .file ["log"] ⟨["log"], .file 0 []⟩

theorem decisionsOfText_torn : decisionsOfText tornText = [nothingDecided] := by
  have hline : '\n' ∉ nothingDecided.text.toList := by
    rw [← Bytes.lineEnd_mem_ofText]
    exact lineEnd_not_mem_text nothingDecided
  have hlines : Bytes.textLines tornText = [nothingDecided.text, "\x7b\"id\":\"d-2"] := by
    rw [Bytes.textLines, tornText, String.toList_append, String.toList_append, List.append_assoc]
    rw [show "\n".toList = ['\n'] from rfl, List.singleton_append,
      List.splitOn_append_cons_self_of_not_mem hline, List.splitOn_eq_singleton (by decide)]
    simp
  have hread : Decision.read? nothingDecided.text = some nothingDecided :=
    Decision.read?_text nothingDecided_writable
  have hnone : Decision.read? "\x7b\"id\":\"d-2" = none := by decide +kernel
  simp [decisionsOfText, hlines, hread, hnone]

theorem run_file_eq_memory_torn :
    (openFile tornDisk ["log"]).1 = .ok tornLog ∧
      (tornLog.run (openFile tornDisk ["log"]).2
        [.append nothingDecided, .reopen, .query none]).1 =
        [.done (.ok ()), .done (.ok ()), .found (.ok [nothingDecided, nothingDecided])] := by
  have hopen : openFile tornDisk ["log"] = (.ok tornLog, (openFile tornDisk ["log"]).2) := rfl
  have hw : ∀ d ∈ appended [.append nothingDecided, .reopen, .query none], d.Writable := by
    intro d hd
    obtain rfl : d = nothingDecided := by simpa [appended] using hd
    exact nothingDecided_writable
  have hrun := run_file_eq_memory (.inl rfl) hopen _ hw
  rw [decisionsOfText_torn] at hrun
  exact ⟨rfl, hrun.1⟩

end Rulebook.DecisionLog
