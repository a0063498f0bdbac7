import Rulebook.Settings.Format
import Rulebook.Settings.Key
import Rulebook.Settings.Observability
import Rulebook.Text.Bytes
/-!
The settings of the program. They come in layers, each laid over the one before: defaults, three
files (for all services, for the environment, for the service) and variables. Files are known by
their names alone: what is under a name is asked of a function.
-/

set_option autoImplicit false

namespace Rulebook

structure EngineSettings where
  snapshotPath : Option String
  logPath : Option String
  traced : Bool
  deriving DecidableEq, Repr

structure Settings where
  serviceName : String
  environment : String
  engine : EngineSettings
  observability : Observability
  deriving DecidableEq, Repr

namespace Settings

def default : Settings := ⟨"", "", ⟨none, none, false⟩, .default⟩

instance : Inhabited Settings := ⟨default⟩

def isProduction (s : Settings) : Bool := s.environment == "production"

abbrev Entries := List (String × Setting)

def get? {α : Type} (es : Entries) (name : String) (decode : Setting → Option α) :
    Option (Option α) :=
  match es.lookup name with
  | none => some none
  | some s => (decode s).map some

def fields? (names : List String) : Setting → Option Entries
  | .table es => some es
  | .list items => some (names.zip items)
  | _ => none

def path? : Setting → Option (Option String)
  | .null => some none
  | s => s.text?.map some

def engineOf? (s : Setting) : Option EngineSettings := do
  let es ← fields? ["rulesets_path", "decision_log_path", "trace_enabled"] s
  pure {
    snapshotPath := (← get? es "rulesets_path" path?).join
    logPath := (← get? es "decision_log_path" path?).join
    traced := (← get? es "trace_enabled" Setting.bool?).getD false }

def observabilityOf? (s : Setting) : Option Observability := do
  let names := ["service_name", "log_level", "json_logs", "metrics_enabled", "metrics_port"]
  let es ← fields? names s
  let d := Observability.default
  pure {
    serviceName := (← get? es "service_name" Setting.text?).getD d.serviceName
    logLevel := (← get? es "log_level" Setting.text?).getD d.logLevel
    jsonLogs := (← get? es "json_logs" Setting.bool?).getD d.jsonLogs
    metricsEnabled := (← get? es "metrics_enabled" Setting.bool?).getD d.metricsEnabled
    metricsPort := (← get? es "metrics_port" Setting.portNumber?).getD d.metricsPort }

/-- A service that is not named in `observability` is named there as it is elsewhere. -/
def ofEntries? (es : Entries) : Option Settings := do
  let serviceName := (← get? es "service_name" Setting.text?).getD ""
  let observability ← get? es "observability" observabilityOf?
  let observability := observability.getD .default
  pure {
    serviceName
    environment := (← get? es "environment" Setting.text?).getD ""
    engine := (← get? es "engine" engineOf?).getD ⟨none, none, false⟩
    observability :=
      if observability.serviceName.isEmpty then observability.withServiceName serviceName
      else observability }

def dropMarker (marker : List Char) (cs : List Char) : Option (List Char) :=
  if marker.isPrefixOf cs then some (cs.drop marker.length) else none

def separateLevels : List Char → List Char
  | '_' :: '_' :: cs => '.' :: separateLevels cs
  | c :: cs => c :: separateLevels cs
  | [] => []

def variableLayer (vars : Variables) : Entries :=
  vars.filterMap fun (name, s) =>
    (dropMarker "rules_".toList (Setting.lower name).toList).map fun cs =>
      (String.ofList (separateLevels cs), Setting.ofText s)

/-- A file without an extension has no format. Its name may be one extension and nothing else. -/
def hasFormat (name : String) : Bool := (name.splitOn "/").getLast? != some ".toml"

def candidates (name : String) : List (String × SettingsFormat) :=
  (name, .toml) :: SettingsFormat.extensions.map fun (extension, format) =>
    (name ++ "." ++ extension, format)

def find? (file? : String → Option Bytes) (name : String) : Option (SettingsFormat × Bytes) :=
  if (file? name).isSome && !hasFormat name then none
  else (candidates name).findSome? fun (name, format) => (file? name).map (format, ·)

/-- A settings file may be missing; one that is there must be readable. -/
def fileLayer? (file? : String → Option Bytes) (name : String) : Option Entries :=
  match find? file? name with
  | some (format, content) => format.read? (Bytes.lossyText (Bytes.dropOrderMark content))
  | none => some []

def environmentOf (vars : Variables) : String :=
  (vars.lookup "RULES_ENV").getD "development"

def nameIn (directory name : String) : String :=
  if directory.isEmpty || name.toList.head? = some '/' then name
  else if directory.toList.getLast? = some '/' then directory ++ name
  else directory ++ "/" ++ name

def fileNames (directory : String) (vars : Variables) (serviceName : String) : List String :=
  ["default", environmentOf vars, serviceName].map fun name => nameIn directory (name ++ ".toml")

def load? (file? : String → Option Bytes) (directory : String) (vars : Variables)
    (serviceName : String) : Option Settings := do
  let defaults := [("service_name", Setting.text serviceName),
    ("environment", Setting.text (environmentOf vars))]
  let files ← (fileNames directory vars serviceName).mapM (fileLayer? file?)
  ofEntries? ((defaults :: files ++ [variableLayer vars]).foldl Setting.addLayer [])

def directory (vars : Variables) : String := (vars.lookup "CONFIG_DIR").getD "config"

end Settings

end Rulebook
