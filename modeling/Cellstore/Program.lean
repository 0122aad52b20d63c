import Cellstore.CommandLine
import Cellstore.Settings.Environment
import Cellstore.Shell

/-! The program: settings, arguments, and then statements or the shell. -/
namespace Cellstore.Program

def name : String := "kvsql"

def version : String := "0.1.0"

def helpText : String :=
  "usage: kvsql [-h] [--data-dir DIR] [--database NAME] [-e SQL] [--log-level LEVEL] [--version]\n"

inductive Interruption where
  | failure (f : Failure)
  /-- An option was left without the value that is needed now. -/
  | noValue (f : CommandLine.Flag)
  deriving DecidableEq, Repr

def Interruption.message : Interruption → String
  | .failure f => f.message
  | .noValue f => s!"{f.title} has no value"

/-- A database that cannot be opened is an end that the program knows. All else breaks it. -/
def Interruption.breaks : Interruption → Bool
  | .failure f => f.severity == .escaping
  | .noValue _ => true

structure Report where
  code : Nat
  output : String
  error : Option String
  breakdown : Option Interruption
  storage : Storage

/-- Arguments go before the settings of the environment. -/
def configure (s : Settings) (a : CommandLine.Arguments) : Settings :=
  let directory := a.dataDirectory.bind (·.value?)
  let level := a.logLevel.bind (·.value?)
  { s with
    storage := { s.storage with dataDirectory := directory.getD s.storage.dataDirectory }
    observability := { s.observability with logLevel := level.getD s.observability.logLevel } }

def refusal (stop : CommandLine.Stop) (storage : Storage) : Report :=
  match stop with
  | .help => ⟨0, helpText, none, none, storage⟩
  | .version => ⟨0, s!"{name} {version}\n", none, none, storage⟩
  | .fault f => ⟨2, "", some s!"{name}: error: {f.message}", none, storage⟩

def interrupted (output : String) (i : Interruption) (storage : Storage) : Report :=
  ⟨1, output, some s!"Error: {i.message}", if i.breaks then some i else none, storage⟩

def opensDatabase (statement : String) : Bool :=
  match Statement.parse statement with
  | .ok (.createDatabase name) => decide (Session.IsDatabaseName name)
  | .ok (.useDatabase name) => decide (Session.IsDatabaseName name)
  | _ => false

/-- The engine as it runs in the program: without a data directory no database opens. -/
def service [Json.Room] (hasDirectory : Bool) : Service Engine :=
  { Engine.service with
    execute := fun statement e =>
      if !hasDirectory && opensDatabase statement then (.error .noDataDirectory, e)
      else Engine.service.execute statement e }

def rendered (r : Result) : String := (Grid.render Grid.defaultWidth r).getD ""

def runAll (v : Service Engine) (e : Engine) :
    List (CommandLine.Given String) → String × Option Interruption × Engine
  | [] => ("", none, e)
  | .nothing :: _ => ("", some (.noValue .execute), e)
  | .value statement :: rest => match v.execute statement e with
    | (.error failure, e) => ("", some (.failure failure), e)
    | (.ok result, e) =>
      let (output, interruption, e) := runAll v e rest
      (rendered result ++ output, interruption, e)

/-- Opens the database that an argument names. Only its failure shows. -/
def select (v : Service Engine) (e : Engine) : Option String → Except Failure String × Engine
  | none => (.ok "", e)
  | some name =>
    if name = "" then (.ok "", e)
    else match v.execute (Engine.useStatement name) e with
      | (.error failure, e) => (.error failure, e)
      | (.ok (.ok _), e) => (.ok "", e)
      | (.ok (.error failure), e) => (.ok (rendered (.error failure)), e)

def interruptionOf : Shell.Ending → Option Interruption
  | .failed failure => some (.failure failure)
  | _ => none

def runShell (v : Service Engine) (s : Settings) (e : Engine) (input : String) :
    String × Option Interruption × Engine :=
  let last := Shell.runText v ⟨s.shell.prompt, Grid.defaultWidth⟩ e input
  (last.output, interruptionOf last.ending, last.service)

/-- Databases in memory are new for every run. -/
def storageFor (s : Settings) (files : Storage) : Storage :=
  match s.storage.backend with
  | .file => files
  | .memory => .empty .memory

/-- The files after a run: what databases in memory held is gone. -/
def filesAfter (s : Settings) (files : Storage) (e : Engine) : Storage :=
  match s.storage.backend with
  | .file => e.close.2.workspace.storage
  | .memory => files

inductive Start where
  | ended (report : Report)
  | ready (s : Settings) (v : Service Engine) (shown : String)
    (statements : List (CommandLine.Given String)) (e : Engine)

def start [Json.Room] (s : Settings) (files : Storage) (arguments : List String) : Start :=
  match CommandLine.read arguments with
  | .error stop => .ended (refusal stop files)
  | .ok a =>
    let s := configure s a
    let v := service (a.dataDirectory != some .nothing)
    if a.logLevel = some .nothing then .ended (interrupted "" (.noValue .logLevel) files)
    else match select v (.new s.location (storageFor s files)) a.database with
      | (.error failure, e) => .ended (interrupted "" (.failure failure) (filesAfter s files e))
      | (.ok shown, e) => .ready s v shown a.statements e

def finish (s : Settings) (files : Storage) (output : String)
    (interruption : Option Interruption) (e : Engine) : Report :=
  match interruption with
  | none => ⟨0, output, none, none, filesAfter s files e⟩
  | some i => interrupted output i (filesAfter s files e)

def run [Json.Room] (s : Settings) (files : Storage) (arguments : List String) (input : String) :
    Report :=
  match start s files arguments with
  | .ended report => report
  | .ready s v shown statements e =>
    let (output, interruption, e) :=
      if statements.isEmpty then runShell v s e input else runAll v e statements
    finish s files (shown ++ output) interruption e

end Cellstore.Program
