import Rulebook.Program
import Rulebook.Text.Uuid
import Std.Time.DateTime.Timestamp
/-!
The command: requests come in by standard input, one a line, and their answers go out by standard
output. What it decides it decides by `Program` and `Engine`; here are only the files, the clock and
the two streams.
-/

set_option autoImplicit false

namespace Rulebook.Command

def readVariables : IO Variables := do
  match ← (IO.FS.readBinFile "/proc/self/environ").toBaseIO with
  | .error _ => pure []
  | .ok bytes =>
    let entries := bytes.toList.splitOn 0
    pure (entries.filterMap fun bs => do
      let (name, rest) := (bs.takeWhile (· != 61), bs.dropWhile (· != 61))
      pure (← Bytes.text? name, ← Bytes.text? (rest.drop 1)))

def nanoseconds : IO Nat := do
  pure (← Std.Time.Timestamp.now).toNanosecondsSinceUnixEpoch.val.toNat

def newStamp : IO Stamp := do
  let n ← nanoseconds
  let bytes ← IO.getRandomBytes 10
  let random := bytes.toList.foldl (fun n b => 256 * n + b.toNat) 0
  pure ⟨Uuid.version7 (n / 1000000) random, Instant.sinceEpoch n⟩

/-- Why a file could not be worked on, in the words of `DiskError` where it has some. -/
def reason : IO.Error → String
  | .noFileOrDirectory .. => DiskError.notFound.message
  | .resourceExhausted _ 28 _ => DiskError.noSpace.message
  | .inappropriateType _ 20 _ => DiskError.notADirectory.message
  | .inappropriateType _ 21 _ => DiskError.isADirectory.message
  | err => toString err

def unread : String := "无法解析"

def fileContent (name : String) : IO (Option Bytes) := do
  let content : IO (Option Bytes) := do
    match (← (← IO.FS.realPath name).metadata).type with
    | .file => pure (some (← IO.FS.readBinFile name).toList)
    | _ => pure none
  pure (← content.toBaseIO).toOption.join

def snapshotName : String := "snapshot"

/-- A disk with the snapshot file of this name. One that is there and cannot be read is taken as
something that cannot be read. -/
def takeSnapshot (name : String) : IO Disk := do
  match ← (IO.FS.readBinFile name).toBaseIO with
  | .ok bytes => pure (Disk.empty.put [snapshotName] (some (.file 0 bytes.toList)))
  | .error (.noFileOrDirectory ..) => pure .empty
  | .error _ => pure (Disk.empty.put [snapshotName] (some .directory))

structure LogFile where
  name : String
  handle : IO.FS.Handle

def sizeOf (name : String) : IO Nat := do
  pure (← (← IO.FS.realPath name).metadata).byteSize.toNat

def openLog (name : String) : IO LogFile := do
  let root := if name.toList.head? = some '/' then "/" else ""
  let above := root ++ "/".intercalate (Path.resolve [] name).parent
  if !above.isEmpty then IO.FS.createDirAll above
  let handle ← IO.FS.Handle.mk name .append
  if 0 < (← sizeOf name) then
    if Bytes.endsMidLine (← IO.FS.readBinFile name).toList then
      handle.putStr "\n"
      handle.flush
  pure ⟨name, handle⟩

def cutOff (name : String) (size : Nat) : IO Unit := do
  let handle ← IO.FS.Handle.mk name .readWrite
  discard (handle.read size.toUSize)
  handle.truncate

/-- Appends a decision. What is written of a line that cannot be written whole is taken back. -/
def LogFile.append (log : LogFile) (d : Decision) : IO (Except LogError Unit) := do
  let size ← sizeOf log.name
  let write : IO Unit := do
    log.handle.write ⟨(DecisionLog.line d).toArray⟩
    log.handle.flush
  match ← write.toBaseIO with
  | .ok () => pure (.ok ())
  | .error e =>
    discard (cutOff log.name size).toBaseIO
    pure (.error (.unavailable (reason e)))

def answer (e : Engine) (log : Option LogFile) (line : String) : IO Answer := do
  match e.consider (fun _ => unread) (← newStamp) line with
  | .error a => pure a
  | .ok v =>
    let result ← match log with
      | some log => log.append v.decision
      | none => pure (.ok ())
    pure (.receipt ⟨v.decision, .ofResult result, v.trace⟩)

partial def answerAll (e : Engine) (log : Option LogFile) (input output : IO.FS.Stream) :
    IO Unit := do
  let line ← input.getLine
  if !line.isEmpty then
    if !Text.allBlank line then
      output.putStrLn (← answer e log line).text
      output.flush
    answerAll e log input output

def settings : IO Settings := do
  let vars ← readVariables
  let names := Settings.fileNames (Settings.directory vars) vars Program.serviceName
  let files ← (names.flatMap Settings.candidates).mapM fun (name, _) => do
    pure (name, ← fileContent name)
  pure (Program.settings (fun name => (files.lookup name).join) vars)

def run : IO UInt32 := do
  let s := (← settings).engine
  match ← (s.logPath.mapM openLog).toBaseIO with
  | .error err =>
    IO.eprintln (LogError.unavailable (reason err)).message
    pure 1
  | .ok log =>
    let disk ← match s.snapshotPath with
      | some name => takeSnapshot name
      | none => pure Disk.empty
    let now := Instant.sinceEpoch (← nanoseconds)
    let s := { s with logPath := none, snapshotPath := s.snapshotPath.map fun _ => snapshotName }
    match (Program.start (fun _ => now) [] s disk).1 with
    | .error err =>
      IO.eprintln (err.message unread)
      pure 1
    | .ok e =>
      answerAll e log (← IO.getStdin) (← IO.getStdout)
      pure 0

end Rulebook.Command

def main : IO UInt32 := Rulebook.Command.run
