import Rulebook.Disk
import Rulebook.Engine.Requests
import Rulebook.Settings.Basic
/-! The program: it starts an engine by its settings and answers the requests in its input. -/

set_option autoImplicit false

namespace Rulebook.Program

def serviceName : String := "unified-rule-engine"

/-- Settings that cannot be read are replaced by the defaults. -/
def settings (file? : String → Option Bytes) (vars : Variables) : Settings :=
  (Settings.load? file? (Settings.directory vars) vars serviceName).getD .default

def start (clock : Nat → Instant) (workingDirectory : Path) (s : EngineSettings) (disk : Disk) :
    Except EngineError Engine × Disk :=
  Engine.start clock s.traced (s.logPath.map (Path.resolve workingDirectory))
    (s.snapshotPath.map (Path.resolve workingDirectory)) disk

def texts : List Bytes → List String × Bool
  | [] => ([], true)
  | l :: ls =>
    match Bytes.text? l with
    | none => ([], false)
    | some s =>
      let (ss, complete) := texts ls
      (s :: ss, complete)

/-- What a run leaves: whether it went well, the lines it wrote and the files. -/
structure Run where
  succeeded : Bool
  output : List String
  disk : Disk

/-- A run answers all of its input, unless the engine does not start or a line is not text. -/
def run (clock : Nat → Instant) (stamp : Nat → Stamp) (workingDirectory : Path)
    (vars : Variables) (input : Bytes) (disk : Disk)
    (reason : String → String := fun _ => "") : Run :=
  let file? (name : String) : Option Bytes := disk.file? (Path.resolve workingDirectory name)
  match start clock workingDirectory (settings file? vars).engine disk with
  | (.error _, disk) => ⟨false, [], disk⟩
  | (.ok e, disk) =>
    let (lines, complete) := texts (Bytes.lines input)
    let (answers, _, disk) := e.answerAll disk reason stamp (fun _ => none) lines
    ⟨complete, answers.map Answer.text, disk⟩

end Rulebook.Program
