import Rulebook.Engine.Receipt
import Rulebook.Snapshot
import Rulebook.Report
import Rulebook.RuleSet.Overview
/-!
The engine: defined rule sets, a log of decisions and perhaps a snapshot file. A definition is saved
before it can be used, and a decision is recorded before it is handed out. What works on files takes
the disk and returns it; the faults that files may show are arguments.
-/

set_option autoImplicit false

namespace Rulebook

inductive EngineError where
  | definition (e : DefinitionError)
  | notFound (id : String)
  | log (e : LogError)
  | snapshot (e : SnapshotError)
  deriving BEq

namespace EngineError

def message (e : EngineError) (reason : String := "") : String :=
  match e with
  | .definition e => e.message reason
  | .notFound id => "规则集未找到: " ++ id
  | .log e => e.message
  | .snapshot e => e.message reason

def code : EngineError → String
  | .definition e => e.code
  | .notFound _ => "RULESET_NOT_FOUND"
  | .log (.unavailable _) => "LOG_UNAVAILABLE"
  | .log (.serialization _) => "LOG_SERIALIZATION_ERROR"
  | .snapshot _ => "REPOSITORY_ERROR"

end EngineError

structure Engine where
  registry : Registry
  traced : Bool
  log : DecisionLog
  snapshot : Option Path

namespace Engine

def empty : Engine := ⟨.empty, false, .empty, none⟩

/-- Registers all definitions of a snapshot, or none: the next save would drop the others. -/
def register (g : Registry) (clock : Nat → Instant) (ds : List Definition) :
    Except SnapshotError Registry :=
  let (g, ids) := g.loadBatch clock ds
  if ids.length = ds.length then .ok g
  else .error (.rejected ((ds.map (·.id)).filter fun id => !ids.contains id))

/-- Takes the rule sets of a snapshot file, and saves to it from now on. -/
def restore (e : Engine) (clock : Nat → Instant) (disk : Disk) (p : Path) :
    Except EngineError Engine := do
  let ds ← (Snapshot.load disk p).mapError .snapshot
  let g ← (register e.registry clock ds).mapError .snapshot
  .ok { e with registry := g, snapshot := some p }

def openLog (disk : Disk) : Option Path → Except EngineError DecisionLog × Disk
  | none => (.ok .empty, disk)
  | some p =>
    let (log, disk) := DecisionLog.openFile disk p
    (log.mapError .log, disk)

def start (clock : Nat → Instant) (traced : Bool) (log snapshot : Option Path) (disk : Disk) :
    Except EngineError Engine × Disk :=
  match openLog disk log with
  | (.error e, disk) => (.error e, disk)
  | (.ok log, disk) =>
    let e : Engine := ⟨.empty, traced, log, none⟩
    match snapshot with
    | none => (.ok e, disk)
    | some p => (e.restore clock disk p, disk)

/-- Saves the rule sets that are defined and a new one, if there is a snapshot file. -/
def save (e : Engine) (disk : Disk) (interruption : Option Disk.Interruption) (s : RuleSet) :
    Except SnapshotError Unit × Disk :=
  match e.snapshot with
  | none => (.ok (), disk)
  | some p => Snapshot.save disk p interruption (e.registry.list ++ [s])

/-- A definition that cannot be saved is not registered. -/
def define (e : Engine) (disk : Disk) (now : Instant) (interruption : Option Disk.Interruption)
    (d : Definition) : Except EngineError RuleSet × Engine × Disk :=
  match e.registry.prepare now d with
  | .error err => (.error (.definition err), e, disk)
  | .ok s =>
    match e.save disk interruption s with
    | (.error err, disk) => (.error (.snapshot err), e, disk)
    | (.ok (), disk) =>
      match e.registry.insert s with
      | .error err => (.error (.definition err), e, disk)
      | .ok g => (.ok s, { e with registry := g }, disk)

def ruleSet (e : Engine) (id : String) : Except EngineError RuleSet :=
  match e.registry.get? id with
  | some s => .ok s
  | none => .error (.notFound id)

def overviews (e : Engine) : List Overview := e.registry.list.map RuleSet.overview

def decide (e : Engine) (stamp : Stamp) (id : String) (r : Record) :
    Except EngineError Evaluation :=
  (e.ruleSet id).map fun s => s.evaluate e.traced stamp r

def record (e : Engine) (disk : Disk) (fault : Option WriteFault) (v : Evaluation) :
    Receipt × Engine × Disk :=
  let (result, log, disk) := e.log.append disk fault v.decision
  (⟨v.decision, .ofResult result, v.trace⟩, { e with log }, disk)

def evaluate (e : Engine) (disk : Disk) (stamp : Stamp) (fault : Option WriteFault) (id : String)
    (r : Record) : Except EngineError Receipt × Engine × Disk :=
  match e.decide stamp id r with
  | .error err => (.error err, e, disk)
  | .ok v =>
    let (receipt, e, disk) := e.record disk fault v
    (.ok receipt, e, disk)

def recordFrom (k : Nat) (e : Engine) (disk : Disk) (fault : Nat → Option WriteFault) :
    List Evaluation → List Receipt × Engine × Disk
  | [] => ([], e, disk)
  | v :: vs =>
    let (receipt, e, disk) := e.record disk (fault k) v
    let (receipts, e, disk) := recordFrom (k + 1) e disk fault vs
    (receipt :: receipts, e, disk)

def evaluateAll (e : Engine) (disk : Disk) (stamp : Nat → Stamp)
    (fault : Nat → Option WriteFault) (id : String) (rs : List Record) :
    Except EngineError (List Receipt) × Engine × Disk :=
  match e.ruleSet id with
  | .error err => (.error err, e, disk)
  | .ok s =>
    let (receipts, e, disk) := recordFrom 0 e disk fault (s.evaluateAll e.traced stamp rs)
    (.ok receipts, e, disk)

def decisions (e : Engine) (disk : Disk) (outage : Option LogError) (id : Option String) :
    Except EngineError (List Decision) :=
  (e.log.query disk outage id).mapError .log

def summarize (e : Engine) (disk : Disk) (outage : Option LogError) (id : Option String) :
    Except EngineError Summary :=
  (e.decisions disk outage id).map Summary.ofDecisions

end Engine

end Rulebook
