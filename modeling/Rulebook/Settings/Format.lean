import Rulebook.Settings.Ini
import Rulebook.Settings.Json5
import Rulebook.Settings.Ron
import Rulebook.Settings.Toml.Reader
import Rulebook.Settings.Yaml.Reader
/-!
Formats of settings files. Whatever the format, the settings of a file are a table.
-/

set_option autoImplicit false

namespace Rulebook

namespace Setting

mutual

/-- An integer beyond 64 bits with a sign is a real. -/
def ofJson : Json → Setting
  | .null | .unusable => .null
  | .bool b => .bool b
  | .number (.integer n) => if isWord n then .integer n else .real (Binary64.ofInt n)
  | .number (.real x) => .real x
  | .text s => .text s
  | .list js => .list (ofItems js)
  | .fields es => .table (ofFields es)

def ofItems : List Json → List Setting
  | [] => []
  | j :: js => ofJson j :: ofItems js

def ofFields : List (String × Json) → List (String × Setting)
  | [] => []
  | (name, j) :: es => (name, ofJson j) :: ofFields es

end

def table? : Setting → Option (List (String × Setting))
  | .table es => some es
  | _ => none

end Setting

inductive SettingsFormat where
  | toml
  | json
  | yaml
  | ini
  | ron
  | json5
  deriving DecidableEq, Repr

namespace SettingsFormat

def read? (text : String) : SettingsFormat → Option (List (String × Setting))
  | .toml => Toml.read? text
  | .json => ((Json.readValue? text).map Setting.ofJson).bind Setting.table?
  | .yaml => (Yaml.read? text).bind Setting.table?
  | .ini => Ini.read? text
  | .ron => (Ron.read? text).bind Setting.table?
  | .json5 => (Json5.read? text).bind Setting.table?

def extensions : List (String × SettingsFormat) :=
  [("toml", .toml), ("json", .json), ("yaml", .yaml), ("yml", .yaml), ("ini", .ini), ("ron", .ron),
    ("json5", .json5)]

end SettingsFormat

end Rulebook
