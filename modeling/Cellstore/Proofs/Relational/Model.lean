import Cellstore.Command
import Cellstore.Failure
import Cellstore.Outcome
import Cellstore.Proofs.SortedMap
import Cellstore.Session
import Cellstore.Table.Rows

/-! Databases as plain relations.
A table has its declared columns, a counter, and its rows by id; a row maps columns to
texts. There are no keys, no bytes and no transactions here, and nothing is encoded. -/
namespace Cellstore.Relational

abbrev Record := SortedMap String String

structure Table where
  /-- The declared columns in the order of their first declaration. -/
  columns : List String
  distinct : columns.Nodup
  counter : Nat
  rows : SortedMap Nat Record

abbrev Database := SortedMap String Table

/-- All databases, and the name of the active one. -/
structure Model where
  databases : SortedMap String Database
  active : Option String

def passes (filter : Filter) (row : Record) : Bool :=
  filter.all fun p => row.get? p.column == some p.value

namespace Table

def empty : Table := ⟨[], .nil, 0, .empty⟩

/-- A column that is declared again keeps its place. -/
def declare (t : Table) (column : String) : Table :=
  if known : column ∈ t.columns then t
  else { t with
    columns := t.columns ++ [column]
    distinct := List.nodup_append.mpr ⟨t.distinct, by simp, by
      rintro a inside b single rfl
      exact known (List.mem_singleton.mp single ▸ inside)⟩ }

def matching (t : Table) (filter : Filter) : List (Nat × Record) :=
  t.rows.entries.filter fun e => passes filter e.2

def insert (t : Table) (cells : Cells) : Table :=
  { t with counter := t.counter + 1, rows := t.rows.insert (t.counter + 1) (.ofList cells) }

/-- Without columns all declared ones are selected. A missing value reads as the empty text. -/
def select (t : Table) (columns : List String) (filter : Filter) : Outcome :=
  let headers := if columns.isEmpty then t.columns else columns
  .selected headers ((t.matching filter).map fun e =>
    ⟨headers, headers.map fun c => (e.2.get? c).getD ""⟩)

def update (t : Table) (column value : String) (filter : Filter) : Table :=
  { t with rows := t.rows.mapValues fun row =>
    if passes filter row then row.insert column value else row }

def delete (t : Table) (filter : Filter) : Table :=
  { t with rows := t.rows.filter fun e => !passes filter e.2 }

end Table

namespace Database

/-- Adds the columns that are not declared yet, to a new table if there is none. -/
def createTable (d : Database) (table : String) (columns : List String) : Outcome × Database :=
  (.tableCreated table, d.insert table (columns.foldl Table.declare ((d.get? table).getD .empty)))

def change (d : Database) (table : String) (f : Table → Outcome × Table) :
    Except Failure (Outcome × Database) :=
  match d.get? table with
  | none => .error (.noTable table)
  | some t => .ok ((f t).1, d.insert table (f t).2)

def dropTable (d : Database) (table : String) : Except Failure (Outcome × Database) :=
  if d.contains table then .ok (.tableDropped table, d.erase table) else .error (.noTable table)

/-- A command on one database: its outcome, and the database after it. Commands that choose a
database are not for one database to run. -/
def run (d : Database) : Command → Except Failure (Outcome × Database)
  | .createDatabase _ | .useDatabase _ => .error .noDatabase
  | .createTable table columns => .ok (d.createTable table (columns.map (·.name)))
  | .insert table columns values _ =>
    d.change table fun t => (.inserted table, t.insert (columns.zip values))
  | .select table columns filter => d.change table fun t => (t.select columns filter, t)
  | .update table column value filter =>
    d.change table fun t =>
      (.updated table (t.matching filter).length, t.update column value filter)
  | .delete table filter =>
    d.change table fun t => (.deleted table (t.matching filter).length, t.delete filter)
  | .dropTable table => d.dropTable table

end Database

namespace Model

def empty : Model := ⟨.empty, none⟩

/-- A database that was never chosen has no tables. -/
def database (m : Model) (name : String) : Database := (m.databases.get? name).getD .empty

/-- Makes a database active, and creates it if it is missing. The world may refuse to open
it: then no database is active. A name that cannot be one changes nothing. -/
def choose (m : Model) (refusal : Option OpenFault) (name : String) (outcome : Outcome) :
    Except Failure Outcome × Model :=
  if ¬ Session.IsDatabaseName name then (.error (.invalidDatabaseName name), m)
  else match refusal with
    | some fault => (.error (.opening name fault), { m with active := none })
    | none => (.ok outcome, ⟨m.databases.insert name (m.database name), some name⟩)

/-- A command on the active database. One that fails changes nothing. -/
def onActive (m : Model) (c : Command) : Except Failure Outcome × Model :=
  match m.active with
  | none => (.error .noDatabase, m)
  | some name => match (m.database name).run c with
    | .ok (outcome, d) => (.ok outcome, { m with databases := m.databases.insert name d })
    | .error failure => (.error failure, m)

def step (m : Model) (refusal : Option OpenFault) : Command → Except Failure Outcome × Model
  | .createDatabase name => m.choose refusal name (.databaseCreated name)
  | .useDatabase name => m.choose refusal name (.databaseSelected name)
  | c => m.onActive c

/-- The outcomes of a run. Each command comes with the world's answer to its opening. -/
def outcomes (m : Model) : List (Option OpenFault × Command) → List (Except Failure Outcome)
  | [] => []
  | (refusal, c) :: rest => (m.step refusal c).1 :: outcomes (m.step refusal c).2 rest

end Model
end Cellstore.Relational
