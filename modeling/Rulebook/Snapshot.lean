import Rulebook.Registry
import Rulebook.Disk
import Rulebook.Json.Printer
import Rulebook.Json.Reader
/-!
Snapshots: all rule sets in one file, as definitions under their identifiers. A snapshot is written
to another file first, which then takes the place of the one before.
-/

set_option autoImplicit false

namespace Rulebook

inductive SnapshotError where
  | disk (e : DiskError)
  | format
  | rejected (ids : List String)
  deriving DecidableEq, Repr

/-- `reason` is what the reader of JSON says of a file that holds no rule sets. -/
def SnapshotError.message (e : SnapshotError) (reason : String := "") : String :=
  match e with
  | .disk e => "规则集快照读写失败: " ++ e.message
  | .format => "规则集快照格式错误: " ++ reason
  | .rejected ids => "规则集快照中存在无法加载的规则集: " ++ ", ".intercalate ids

namespace Snapshot

def table (sets : List RuleSet) : Table Definition :=
  .ofList (sets.map fun s => (s.id, s.toDefinition))

def toJson (sets : List RuleSet) : Json :=
  .fields [("rulesets", .fields ((table sets).entries.map fun (id, d) => (id, d.toJson)))]

def text (sets : List RuleSet) : String := (toJson sets).pretty

def optionOrder (s t : Option Instant) : Ordering :=
  match s, t with
  | none, none => .eq
  | none, some _ => .lt
  | some _, none => .gt
  | some s, some t => compare s t

def earlier (a b : Definition) : Bool :=
  match optionOrder a.definedAt b.definedAt with
  | .lt => true
  | .gt => false
  | .eq => decide (a.id ≤ b.id)

def entriesOfJson? : Json → Option (List (String × Definition))
  | .fields es => es.mapM fun (key, j) => do pure (key, ← Definition.ofJson? j)
  | _ => none

/-- By time of definition, those without one first, then by identifier. Of equal keys the last
counts; the keys do not matter otherwise. -/
def ofJson? (j : Json) : Option (List Definition) := do
  match ← j.structure? ["rulesets"] with
  | [entries] =>
    let entries ← Json.withDefault? [] entriesOfJson? entries
    pure ((Table.ofList entries).values.mergeSort earlier)
  | _ => none

def read? (s : String) : Option (List Definition) := (Json.read? s).bind ofJson?

def load (d : Disk) (p : Path) : Except SnapshotError (List Definition) :=
  match d.readText p with
  | .error .notFound => .ok []
  | .error e => .error (.disk e)
  | .ok s =>
    match read? s with
    | some ds => .ok ds
    | none => .error .format

def temporary (p : Path) : Path := p.withExtension "tmp"

def saveSteps (p : Path) (sets : List RuleSet) : List Disk.Step :=
  let content := Bytes.ofText (text sets)
  [.makeDirectory p.parent, .create (temporary p), .write (temporary p) content,
    .sync (temporary p), .rename (temporary p) p]

def save (d : Disk) (p : Path) (interruption : Option Disk.Interruption) (sets : List RuleSet) :
    Except SnapshotError Unit × Disk :=
  match d.performAll interruption (saveSteps p sets) with
  | (.ok (), d) => (.ok (), d)
  | (.error e, d) => (.error (.disk e), d)

end Snapshot

end Rulebook
