import Rulebook.Text.Bytes
/-!
A directory tree as data: what stands at each place. A path is walked name by name to the place where
it leads. A file has a number by which an open file is known again; the number stays with the file
when its name is taken away. Work on several files is a list of steps, so that it can be stopped at
any of them.
-/

set_option autoImplicit false

namespace Rulebook

/-- Names from the root down, two points for the way back among them. -/
abbrev Path := List String

namespace Path

/-- Names between slashes, from the working directory on unless the text starts at the root. Empty
names and points say nothing, but a point at the end says that a directory is meant, and so does a
slash there. An empty text is an empty name, under which nothing stands. -/
def resolve (workingDirectory : Path) (text : String) : Path :=
  if text.isEmpty then workingDirectory ++ [""]
  else
    let start := if text.toList.head? = some '/' then [] else workingDirectory
    let names := text.splitOn "/"
    let last := names.getLast?.getD ""
    start ++ names.filter (fun name => name != "" && name != ".") ++
      (if last = "" ∨ last = "." then ["."] else [])

def plain (p : Path) : Path := if p.getLast? = some "." then p.dropLast else p

def parent (p : Path) : Path := (plain p).dropLast

def above : Path → List Path
  | [] => []
  | name :: names => [] :: (above names).map (name :: ·)

def stem (name : String) : String :=
  let cs := name.toList
  let last := (cs.reverse.takeWhile (· != '.')).length
  if last + 1 < cs.length then String.ofList (cs.take (cs.length - last - 1)) else name

/-- The last name gets another extension, if there is a last name. -/
def withExtension (extension : String) (p : Path) : Path :=
  match (plain p).getLast? with
  | none | some "" | some ".." => p
  | some name => (plain p).dropLast ++ [stem name ++ "." ++ extension]

def size (p : Path) : Nat := p.foldl (fun n name => n + name.utf8ByteSize + 1) 0

end Path

inductive DiskError where
  | notFound
  | notADirectory
  | isADirectory
  | exists
  | noSpace
  | nameTooLong
  | zeroInName
  | notText
  | interrupted
  deriving DecidableEq, Repr

def DiskError.message : DiskError → String
  | .notFound => "No such file or directory (os error 2)"
  | .notADirectory => "Not a directory (os error 20)"
  | .isADirectory => "Is a directory (os error 21)"
  | .exists => "File exists (os error 17)"
  | .noSpace => "No space left on device (os error 28)"
  | .nameTooLong => "File name too long (os error 36)"
  | .zeroInName => "file name contained an unexpected NUL byte"
  | .notText => "stream did not contain valid UTF-8"
  | .interrupted => "Interrupted system call (os error 4)"

/-- `full` is a device that can be opened and never written to. -/
inductive Node where
  | directory
  | file (number : Nat) (content : Bytes)
  | full
  deriving DecidableEq

/-- The places of a disk are paths from the root down that hold real names only. -/
structure Disk where
  node : Path → Option Node
  nextNumber : Nat

/-- An open file is known by the place where it stood and by what stood there when it was opened.
What it holds by now is not looked up here. -/
structure OpenFile where
  place : Path
  node : Node

namespace Disk

def empty : Disk := ⟨fun p => if p.isEmpty then some .directory else none, 0⟩

def put (d : Disk) (place : Path) (n : Option Node) : Disk :=
  { d with node := fun q => if q = place then n else d.node q }

def nameLimit : Nat := 255

def pathLimit : Nat := 4095

def enter (place : Path) (name : String) : Except DiskError Path :=
  if name = "" then .error .notFound
  else if name = "." then .ok place
  else if name = ".." then .ok place.dropLast
  else if nameLimit < name.utf8ByteSize then .error .nameTooLong
  else .ok (place ++ [name])

/-- Goes on from a place name by name; each step starts in a directory. -/
def locateFrom (d : Disk) (place : Path) : List String → Except DiskError Path
  | [] => .ok place
  | name :: names =>
    match d.node place with
    | some .directory =>
      match enter place name with
      | .ok place => locateFrom d place names
      | .error e => .error e
    | some _ => .error .notADirectory
    | none => .error .notFound

def locate (d : Disk) (p : Path) : Except DiskError Path :=
  if p.any fun name => name.toList.contains '\x00' then .error .zeroInName
  else if pathLimit < p.size then .error .nameTooLong
  else d.locateFrom [] p

def find (d : Disk) (p : Path) : Except DiskError Node :=
  match d.locate p with
  | .error e => .error e
  | .ok place =>
    match d.node place with
    | some n => .ok n
    | none => .error .notFound

def read (d : Disk) (p : Path) : Except DiskError Bytes :=
  match d.find p with
  | .ok (.file _ content) => .ok content
  | .ok _ => .error .isADirectory
  | .error e => .error e

def file? (d : Disk) (p : Path) : Option Bytes :=
  match d.find p with
  | .ok (.file _ content) => some content
  | _ => none

def readText (d : Disk) (p : Path) : Except DiskError String :=
  match d.read p with
  | .ok bs =>
    match Bytes.text? bs with
    | some s => .ok s
    | none => .error .notText
  | .error e => .error e

def makeOne (d : Disk) (p : Path) : Except DiskError Disk :=
  match d.locate p with
  | .error e => .error e
  | .ok place =>
    match d.node place with
    | some .directory => .ok d
    | some _ => .error .exists
    | none => .ok (d.put place (some .directory))

def makeDirectory (d : Disk) (p : Path) : Except DiskError Disk :=
  (Path.above p ++ [p]).foldlM makeOne d

def openFile (d : Disk) (p : Path) : Except DiskError (OpenFile × Disk) :=
  match d.locate p with
  | .error e => .error e
  | .ok place =>
    match d.node place with
    | some .directory => .error .isADirectory
    | some n => .ok (⟨place, n⟩, d)
    | none =>
      let n := Node.file d.nextNumber []
      .ok (⟨place, n⟩, { d.put place (some n) with nextNumber := d.nextNumber + 1 })

def setContent (d : Disk) (p : Path) (content : Bytes) : Except DiskError Disk :=
  match d.locate p with
  | .error e => .error e
  | .ok place =>
    match d.node place with
    | some (.file number _) => .ok (d.put place (some (.file number content)))
    | some .full => if content.isEmpty then .ok d else .error .noSpace
    | some .directory => .error .isADirectory
    | none => .error .notFound

def create (d : Disk) (p : Path) : Except DiskError Disk := do
  let (_, d) ← d.openFile p
  d.setContent p []

/-- The file under `source` stands under `target` from now on, in place of what stood there. -/
def rename (d : Disk) (source target : Path) : Except DiskError Disk :=
  match d.find source, d.locate source, d.locate target with
  | .error e, _, _ => .error e
  | _, .error e, _ => .error e
  | _, _, .error e => .error e
  | .ok n, .ok source, .ok target =>
    match d.node target with
    | some .directory => .error .isADirectory
    | _ => .ok ((d.put source none).put target (some n))

def remove (d : Disk) (p : Path) : Except DiskError Disk :=
  match d.find p, d.locate p with
  | .ok .directory, .ok place =>
    .ok { d with node := fun q => if place.isPrefixOf q then none else d.node q }
  | .ok _, .ok place => .ok (d.put place none)
  | .error e, _ => .error e
  | _, .error e => .error e

inductive Step where
  | makeDirectory (p : Path)
  | create (p : Path)
  | write (p : Path) (content : Bytes)
  | sync (p : Path)
  | rename (source target : Path)

def perform (d : Disk) : Step → Except DiskError Disk
  | .makeDirectory p => d.makeDirectory p
  | .create p => d.create p
  | .write p content => d.setContent p content
  | .sync _ => .ok d
  | .rename source target => d.rename source target

/-- Work breaks off at the step with this position; a write has got this far by then. -/
structure Interruption where
  step : Nat
  written : Nat

def breakOff (d : Disk) (written : Nat) : Step → Disk
  | .write p content => (d.setContent p (content.take written)).toOption.getD d
  | _ => d

/-- Performs steps up to the first that fails; what was done before stays done. -/
def performAll (d : Disk) (interruption : Option Interruption) :
    List Step → Except DiskError Unit × Disk
  | [] => (.ok (), d)
  | s :: ss =>
    match interruption with
    | some ⟨0, written⟩ => (.error .interrupted, d.breakOff written s)
    | some ⟨k + 1, written⟩ =>
      match d.perform s with
      | .ok d => performAll d (some ⟨k, written⟩) ss
      | .error e => (.error e, d)
    | none =>
      match d.perform s with
      | .ok d => performAll d none ss
      | .error e => (.error e, d)

end Disk

end Rulebook
