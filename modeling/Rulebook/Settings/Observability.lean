import Rulebook.Settings.LogFilter
/-! What is shown of a running engine: log lines and metrics. -/

set_option autoImplicit false

namespace Rulebook

structure Observability where
  serviceName : String
  logLevel : String
  jsonLogs : Bool
  metricsEnabled : Bool
  metricsPort : UInt16
  deriving DecidableEq, Repr

namespace Observability

def default : Observability := ⟨"", "info", false, true, 9090⟩

instance : Inhabited Observability := ⟨default⟩

def portNumber? (s : String) : Option UInt16 :=
  (Setting.natural? s).bind fun n => if n < 0x10000 then some (UInt16.ofNat n) else none

def ofVariables (serviceName : String) (vars : Variables) : Observability where
  serviceName
  logLevel := (vars.lookup "RUST_LOG").getD default.logLevel
  jsonLogs := (vars.lookup "JSON_LOGS").any fun s => s = "true" || s = "1"
  metricsEnabled := (vars.lookup "METRICS_ENABLED").all fun s => s != "false" && s != "0"
  metricsPort := ((vars.lookup "METRICS_PORT").bind portNumber?).getD default.metricsPort

def withServiceName (o : Observability) (name : String) : Observability :=
  { o with serviceName := name }

/-- The variable for filters goes before the level in the settings. -/
def filter (o : Observability) (vars : Variables) : LogFilter :=
  LogFilter.firstOf ((vars.lookup "RUST_LOG").toList ++ [o.logLevel])

end Observability

end Rulebook
