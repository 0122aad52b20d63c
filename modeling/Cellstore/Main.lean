import Cellstore.Program
import Cellstore.Storage.Image

/-! The program at the command line.
All files of the storage are kept in one image in the working directory. -/
namespace Cellstore.Main

def imageFile : String := "kvsql.image"

def variableNames : List String := [
  "KVSQL_STORAGE", "KVSQL_STORAGE__DATA_DIR", "KVSQL_STORAGE__FILE_SUFFIX",
  "KVSQL_STORAGE__BACKEND", "KVSQL_STORAGE__LOCK_TIMEOUT_SECONDS", "KVSQL_SHELL",
  "KVSQL_SHELL__PROMPT", "KVSQL_OBSERVABILITY", "KVSQL_OBSERVABILITY__LOG_LEVEL",
  "KVSQL_OBSERVABILITY__LOG_FORMAT", "KVSQL_OBSERVABILITY__OTEL_ENDPOINT",
  "KVSQL_OBSERVABILITY__OTEL_SERVICE_NAME", "KVSQL_OBSERVABILITY__METRICS_PORT"]

def environment : IO (List (String × String)) := do
  let found ← variableNames.mapM fun name => do return (← IO.getEnv name).map (name, ·)
  return found.filterMap id

/-- The stored files; there are none before the first run. -/
def load : IO Storage := do
  try
    match Storage.Image.read (← IO.FS.readFile imageFile) with
    | some s => return s
    | none => throw (IO.userError s!"{imageFile} is no image")
  catch
    | .noFileOrDirectory .. => return .empty .file
    | e => throw e

def show_ (text : String) : IO Unit := do
  let out ← IO.getStdout
  out.putStr text
  out.flush

partial def converse (s : Settings) (v : Service Engine) (e : Engine) : IO (Shell.Ending × Engine) := do
  show_ s.shell.prompt
  let line ← (← IO.getStdin).getLine
  if line.isEmpty then
    show_ "\n"
    return (.normal, e)
  match Shell.step v Grid.defaultWidth e line with
  | .stop ending e => return (ending, e)
  | .next text e =>
    show_ text
    converse s v e

def conclude (report : Program.Report) : IO UInt32 := do
  show_ report.output
  if let some error := report.error then IO.eprintln error
  let image := Storage.Image.write report.storage
  unless image.isEmpty do IO.FS.writeFile imageFile image
  return UInt32.ofNat report.code

def run (s : Settings) (arguments : List String) : IO UInt32 := do
  let files ← load
  match Program.start s files arguments with
  | .ended report => conclude report
  | .ready s v shown statements e =>
    show_ shown
    if statements.isEmpty then
      let (ending, e) ← converse s v e
      conclude (Program.finish s files "" (Program.interruptionOf ending) (v.close e))
    else
      let (output, interruption, e) := Program.runAll v e statements
      conclude (Program.finish s files output interruption e)

end Cellstore.Main

open Cellstore in
def main (arguments : List String) : IO UInt32 := do
  match Settings.ofEnvironment (← Main.environment) with
  | .ok s => Main.run s arguments
  | .error (.unstorable fault) =>
    IO.eprintln s!"Error: {fault.message}"
    return 1
  | .error (.unreadable name) =>
    IO.eprintln s!"Error: the settings of {name} are no JSON"
    return 1
  | .error (.tooDeep name) =>
    IO.eprintln s!"Error: the settings of {name} are nested too deeply"
    return 1
  | .error (.invalid misfits) =>
    for m in misfits do IO.eprintln s!"Error: {m.1} ({m.2.label})"
    return 1
