import Cellstore.Column
import Cellstore.Filter

/-! The eight kinds of commands that statements express. -/
namespace Cellstore

inductive CommandKind where
  | createDatabase
  | useDatabase
  | createTable
  | insert
  | select
  | update
  | delete
  | dropTable
  deriving DecidableEq, Repr

def CommandKind.label : CommandKind → String
  | .createDatabase => "create_database"
  | .useDatabase => "use_database"
  | .createTable => "create_table"
  | .insert => "insert"
  | .select => "select"
  | .update => "update"
  | .delete => "delete"
  | .dropTable => "drop_table"

inductive Command where
  /-- Creates a database, or opens it if it exists, and makes it active. -/
  | createDatabase (name : String)
  | useDatabase (name : String)
  | createTable (table : String) (columns : List ColumnDefinition)
  /-- Adds one row: each value belongs to the column at its place. -/
  | insert (table : String) (columns values : List String)
      (sameLength : columns.length = values.length)
  /-- Selects rows; no columns means all declared ones. -/
  | select (table : String) (columns : List String) (filter : Filter)
  | update (table column value : String) (filter : Filter)
  | delete (table : String) (filter : Filter)
  | dropTable (table : String)
  deriving DecidableEq

structure LengthMismatch where
  columns : Nat
  values : Nat
  deriving DecidableEq, Repr

def LengthMismatch.message (m : LengthMismatch) : String :=
  s!"{m.columns} columns but {m.values} values"

namespace Command

def insertion (table : String) (columns values : List String) : Except LengthMismatch Command :=
  if h : columns.length = values.length then .ok (.insert table columns values h)
  else .error ⟨columns.length, values.length⟩

def kind : Command → CommandKind
  | .createDatabase .. => .createDatabase
  | .useDatabase .. => .useDatabase
  | .createTable .. => .createTable
  | .insert .. => .insert
  | .select .. => .select
  | .update .. => .update
  | .delete .. => .delete
  | .dropTable .. => .dropTable

/-- All commands but those that choose a database work on the active one. -/
def requiresDatabase : Command → Bool
  | .createDatabase .. => false
  | .useDatabase .. => false
  | _ => true

def describe : Command → String
  | .createDatabase name => s!"CreateDatabase({name})"
  | .useDatabase name => s!"UseDatabase({name})"
  | .createTable table columns =>
    s!"CreateTable({table}, [" ++ ", ".intercalate (columns.map (·.definition)) ++ "])"
  | .insert table columns _ _ => s!"Insert({table}, cols={Text.Quoted.texts columns})"
  | .select table columns filter =>
    let names := ", ".intercalate columns
    let names := if names = "" then "*" else names
    let condition := if filter.isEmpty then "" else " WHERE " ++ filter.describe
    s!"Select({names} FROM {table}{condition})"
  | .update table column value filter =>
    s!"Update({table}, SET {column}={value} WHERE {filter.describe})"
  | .delete table filter => s!"Delete({table} WHERE {filter.describe})"
  | .dropTable table => s!"DropTable({table})"

end Command
end Cellstore
