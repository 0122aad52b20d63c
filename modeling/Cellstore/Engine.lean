import Cellstore.Engine.Metrics
import Cellstore.Engine.Span
import Cellstore.Execution
import Cellstore.Statement

/-! The engine: one statement text in, one result out.
Failures of a statement are results too. Only a database that cannot be opened, and tables
whose contents do not fit their layout, let a failure leave the engine. -/
namespace Cellstore

/-- The outcome of a statement, or the failure that is reported in its place. -/
abbrev Result := Except Failure Outcome

structure Engine where
  workspace : Workspace
  metrics : Metrics
  spans : List Span

namespace Engine
variable [Json.Room]

def new (location : Location) (storage : Storage) : Engine :=
  ⟨.new location storage, .empty, []⟩

def databaseName (e : Engine) : Option String := e.workspace.databaseName

def addSpan (e : Engine) (s : Span) : Engine := { e with spans := e.spans ++ [s] }

def record (e : Engine) (label : Label) (status : Status) : Engine :=
  { e with metrics := e.metrics.record label status }

/-- Ends a statement: counts it, and ends its span. A failure that leaves the engine is the
error of this function. -/
def conclude (e : Engine) (label : Label) (span : Span) :
    Except Failure Outcome → Except Failure Result × Engine
  | .ok outcome =>
    let e := (e.addSpan span).record label .success
    (.ok (.ok outcome), { e with metrics := e.metrics.recordRows label outcome.affectedRows })
  | .error failure => match failure.severity with
    | .reported => (.ok (.error failure), (e.addSpan (span.fail failure)).record label .error)
    | .fatal => (.error failure, (e.addSpan (span.escape failure)).record label .error)
    | .escaping => (.error failure, e.addSpan (span.escape failure))

def execute (e : Engine) (text : String) : Except Failure Result × Engine :=
  let span := Span.start text
  match Statement.parse text with
  | .error fault => e.conclude none span (.error (.statement fault))
  | .ok command =>
    let span := span.tag command.kind e.databaseName
    let (outcome, workspace) := Execution.execute e.workspace (.command command)
    { e with workspace := workspace }.conclude (some command.kind) span outcome

def useStatement (name : String) : String := "USE " ++ name

def use (e : Engine) (name : String) : Except Failure Result × Engine := e.execute (useStatement name)

def close (e : Engine) : Except Failure Unit × Engine :=
  let (outcome, workspace) := e.workspace.close
  (outcome, { e with workspace := workspace })

def samples (e : Engine) : List Sample := e.metrics.samples e.workspace.session.switches

end Engine
end Cellstore
