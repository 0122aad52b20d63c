import Cellstore.Log
import Cellstore.Number.Binary64
import Cellstore.Workspace

/-! Settings of the program. -/
namespace Cellstore

structure StorageSettings where
  dataDirectory : Path
  suffix : String
  backend : Backend
  /-- How long to wait for the lock of a file. -/
  lockTimeout : Binary64

structure ShellSettings where
  prompt : String

inductive LogFormat where
  | json
  | console
  deriving DecidableEq, Repr

def LogFormat.label : LogFormat → String
  | .json => "json"
  | .console => "console"

structure ObservabilitySettings where
  logLevel : Log.Level
  logFormat : LogFormat
  /-- Where spans are sent, if anywhere. -/
  endpoint : Option String
  serviceName : String
  /-- Where counters are served, if anywhere. -/
  metricsPort : Option Nat

structure Settings where
  storage : StorageSettings
  shell : ShellSettings
  observability : ObservabilitySettings

namespace Settings

def default : Settings where
  storage := ⟨Path.ofText "Dbs", ".db", .file, Binary64.ofInt 1⟩
  shell := ⟨"> "⟩
  observability := ⟨.warning, .console, none, "kvsql", none⟩

def location (s : Settings) : Location := ⟨s.storage.dataDirectory, s.storage.suffix⟩

end Settings
end Cellstore
