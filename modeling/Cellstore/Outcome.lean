import Cellstore.ResultRow

/-! Outcomes of commands that succeed. -/
namespace Cellstore

inductive Outcome where
  | databaseCreated (name : String)
  | databaseSelected (name : String)
  | tableCreated (table : String)
  | inserted (table : String)
  | updated (table : String) (rows : Nat)
  | deleted (table : String) (rows : Nat)
  | tableDropped (table : String)
  | selected (columns : List String) (rows : List ResultRow)
  deriving DecidableEq, Repr

namespace Outcome

/-- The status message; a query has none. -/
def message : Outcome → String
  | .databaseCreated name => s!"Database {name} created and selected"
  | .databaseSelected name => s!"Using database {name}"
  | .tableCreated table => s!"Table {table} created"
  | .inserted table => s!"Record inserted into table {table}"
  | .updated table rows => s!"Table {table} updated ({rows} row(s))"
  | .deleted table rows => s!"Records deleted from table {table} ({rows} row(s))"
  | .tableDropped table => s!"Table {table} dropped"
  | .selected _ _ => ""

def affectedRows : Outcome → Nat
  | .inserted _ => 1
  | .updated _ rows => rows
  | .deleted _ rows => rows
  | _ => 0

end Outcome
end Cellstore
