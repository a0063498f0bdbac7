import Rulebook.Decision
import Rulebook.Disk
import Rulebook.Json.Printer
/-!
Decision logs: decisions are appended and read back, never changed. A log is kept in memory or in a
file with one decision a line.
-/

set_option autoImplicit false

namespace Rulebook

inductive LogError where
  | unavailable (reason : String)
  | serialization (reason : String)
  deriving DecidableEq, Repr

def LogError.message : LogError → String
  | .unavailable reason => "决策日志不可用: " ++ reason
  | .serialization reason => "决策序列化失败: " ++ reason

def LogError.ofDisk (e : DiskError) : LogError := .unavailable e.message

/-- A write that breaks off: how many bytes are written by then, and whether they can be taken
back. -/
structure WriteFault where
  error : LogError
  written : Nat
  takenBack : Bool

/-- What a file holds after a line was appended to it, with or without a fault. -/
def appendLine (content line : Bytes) : Option WriteFault → Bytes
  | none => content ++ line
  | some fault => if fault.takenBack then content else content ++ line.take fault.written

/-- A log file is read by its path and appended to as it was opened. -/
inductive DecisionLog where
  | memory (decisions : List Decision)
  | file (path : Path) (handle : OpenFile)

namespace DecisionLog

def empty : DecisionLog := .memory []

def line (d : Decision) : Bytes := Bytes.ofText (d.text ++ "\n")

/-- Opens a log file, a new one if there is none. A last line without a line end gets one, so that
no decision is ever added to it. -/
def openFile (d : Disk) (p : Path) : Except LogError DecisionLog × Disk :=
  match d.makeDirectory p.parent with
  | .error e => (.error (.ofDisk e), d)
  | .ok d =>
    match d.openFile p with
    | .error e => (.error (.ofDisk e), d)
    | .ok (⟨place, .file number content⟩, d) =>
      let content := if Bytes.endsMidLine content then content ++ [Bytes.lineEnd] else content
      (.ok (.file p ⟨place, .file number []⟩), d.put place (some (.file number content)))
    | .ok (handle, d) => (.ok (.file p handle), d)

def append (log : DecisionLog) (disk : Disk) (fault : Option WriteFault) (d : Decision) :
    Except LogError Unit × DecisionLog × Disk :=
  let result : Except LogError Unit := match fault with
    | some fault => .error fault.error
    | none => .ok ()
  match log with
  | .memory decisions =>
    (result, .memory (if fault.isNone then decisions ++ [d] else decisions), disk)
  | .file _ ⟨place, .file number _⟩ =>
    match disk.node place with
    | some (.file n content) =>
      if n = number then
        (result, log, disk.put place (some (.file n (appendLine content (line d) fault))))
      else (result, log, disk)
    | _ => (result, log, disk)
  | .file _ _ => (.error (.ofDisk .noSpace), log, disk)

def ofRuleSet (id : Option String) (d : Decision) : Bool :=
  match id with
  | some id => d.ruleSetId == id
  | none => true

/-- The decisions in the lines of a file. A line that is not text is an error; one that is no
decision is passed over. -/
def decisions? (lines : List Bytes) : Option (List Decision) := do
  let texts ← lines.mapM Bytes.text?
  pure (texts.filterMap Decision.read?)

def query (log : DecisionLog) (disk : Disk) (outage : Option LogError) (id : Option String) :
    Except LogError (List Decision) :=
  match outage with
  | some e => .error e
  | none =>
    match log with
    | .memory decisions => .ok (decisions.filter (ofRuleSet id))
    | .file p _ =>
      match disk.read p with
      | .error .notFound => .ok []
      | .error e => .error (.ofDisk e)
      | .ok content =>
        match decisions? (Bytes.lines content) with
        | some ds => .ok (ds.filter (ofRuleSet id))
        | none => .error (.ofDisk .notText)

end DecisionLog

end Rulebook
