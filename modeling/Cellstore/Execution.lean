import Cellstore.Command
import Cellstore.Outcome
import Cellstore.Table.Rows
import Cellstore.Table.Schema
import Cellstore.Workspace

/-! Running commands on the active database.
A table is one bucket with its columns and cells. Each command reads and writes only the
bucket of its own table. -/
namespace Cellstore.Execution

def schemaFailure : Schema.Fault → Failure
  | .undecodable failure => .undecodable failure
  | .column fault => .column fault
  | .nesting bracket => .nesting bracket

def tableOf (c : Contents) (table : String) : Except Failure Bucket :=
  match c.get? table with
  | some b => .ok b
  | none => .error (.noTable table)

variable [Json.Room]

def declare (b : Bucket) : List ColumnDefinition → Except Failure Bucket
  | [] => .ok b
  | column :: rest => match Schema.define b [column] with
    | .ok b => declare b rest
    | .error fault => .error (schemaFailure fault)

def createTable (table : String) (columns : List ColumnDefinition) (c : Contents) :
    Except Failure (Outcome × Contents) :=
  if table = "" then .error (.storage .unnamedBucket)
  else match declare ((c.get? table).getD Bucket.empty) columns with
    | .ok b => .ok (.tableCreated table, c.insert table b)
    | .error failure => .error failure

/-- The new row gets the next id of the table. -/
def insert (counting : Counting) (table : String) (cells : Cells) (c : Contents) :
    Except Failure (Outcome × Contents) :=
  match tableOf c table with
  | .error failure => .error failure
  | .ok b =>
    let (row, b) := b.nextSequence counting
    match Rows.putCells row b cells with
    | .ok b => .ok (.inserted table, c.insert table b)
    | .error fault => .error (.key fault)

/-- No columns stand for all declared ones. -/
def select (table : String) (columns : List String) (filter : Filter) (c : Contents) :
    Except Failure Outcome :=
  match tableOf c table with
  | .error failure => .error failure
  | .ok b =>
    let headers := if columns.isEmpty then Schema.columnNames b else .ok columns
    match headers with
    | .error fault => .error (schemaFailure fault)
    | .ok headers => .ok (.selected headers ((Rows.matching b filter).map fun r =>
        ⟨headers, Row.project headers r.cells⟩))

def assign (column value : String) (b : Bucket) : List Row → Except Failure Bucket
  | [] => .ok b
  | r :: rest => match Rows.putCell b r.id column value with
    | .ok b => assign column value b rest
    | .error fault => .error (.key fault)

/-- The rows are determined before the first one changes. -/
def update (table column value : String) (filter : Filter) (c : Contents) :
    Except Failure (Outcome × Contents) :=
  match tableOf c table with
  | .error failure => .error failure
  | .ok b =>
    let rows := Rows.matching b filter
    match assign column value b rows with
    | .ok b => .ok (.updated table rows.length, c.insert table b)
    | .error failure => .error failure

def delete (table : String) (filter : Filter) (c : Contents) :
    Except Failure (Outcome × Contents) :=
  match tableOf c table with
  | .error failure => .error failure
  | .ok b =>
    let rows := Rows.matching b filter
    .ok (.deleted table rows.length, c.insert table (rows.foldl Rows.deleteRow b))

def dropTable (table : String) (c : Contents) : Except Failure (Outcome × Contents) :=
  if c.contains table then .ok (.tableDropped table, c.erase table) else .error (.noTable table)

def open_ (w : Workspace) (name : String) (outcome : Outcome) : Except Failure Outcome × Workspace :=
  let (opened, w) := w.use name
  (opened.map fun _ => outcome, w)

inductive Request where
  | command (c : Command)
  | other (type : String)

def Request.requiresDatabase : Request → Bool
  | .command c => c.requiresDatabase
  | .other _ => true

def run (w : Workspace) : Request → Except Failure Outcome × Workspace
  | .command (.createDatabase name) => open_ w name (.databaseCreated name)
  | .command (.useDatabase name) => open_ w name (.databaseSelected name)
  | .command (.createTable table columns) => w.update (createTable table columns)
  | .command (.insert table columns values _) =>
    w.update (insert w.storage.backend.counting table (columns.zip values))
  | .command (.select table columns filter) => w.view (select table columns filter)
  | .command (.update table column value filter) => w.update (update table column value filter)
  | .command (.delete table filter) => w.update (delete table filter)
  | .command (.dropTable table) => w.update (dropTable table)
  | .other type => (.error (.unsupported type), w)

def execute (w : Workspace) (r : Request) : Except Failure Outcome × Workspace :=
  if r.requiresDatabase ∧ w.session.active.isNone then (.error .noDatabase, w) else run w r

end Cellstore.Execution
