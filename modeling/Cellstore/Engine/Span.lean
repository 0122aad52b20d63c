import Cellstore.Command
import Cellstore.Failure
import Cellstore.Text.Blank

/-! Spans: what a trace says about one statement. -/
namespace Cellstore

/-- A span has an error status exactly if it has a description. -/
structure Span where
  attributes : List (String × String)
  description : Option String
  events : List String
  deriving DecidableEq, Repr

namespace Span

def name : String := "kvsql.statement"

def statementLimit : Nat := 256

def start (statement : String) : Span :=
  ⟨[("db.system", "kvsql"),
    ("db.statement", String.ofList ((Text.trim statement.toList).take statementLimit))], none, []⟩

def setAttribute (s : Span) (key value : String) : Span :=
  { s with attributes := s.attributes ++ [(key, value)] }

def tag (s : Span) (kind : CommandKind) (database : Option String) : Span :=
  let s := s.setAttribute "kvsql.command" kind.label
  match database with
  | some name => s.setAttribute "kvsql.database" name
  | none => s

def fail (s : Span) (f : Failure) : Span :=
  { s.setAttribute "kvsql.error_type" f.kind.label with description := some f.message }

def escape (s : Span) (f : Failure) : Span :=
  { s with
    description := some (f.kind.label ++ ": " ++ f.message)
    events := s.events ++ ["exception"] }

def isError (s : Span) : Bool := s.description.isSome

def status (s : Span) : String := if s.isError then "ERROR" else "UNSET"

end Span
end Cellstore
