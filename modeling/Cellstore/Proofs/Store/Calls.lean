import Cellstore.Execution
import Cellstore.Proofs.Store.Contract

/-! Commands as calls on a store.
A block makes one call after another. The writes that were made before a failing call stay in
the block, and only its end takes them back. -/
namespace Cellstore.Store
open Text.Utf8 (encode decode)

/-- Calls give a result or a failure, and in either case a store. -/
abbrev Calls (σ : Type) := ExceptT Failure (StateM σ)

namespace Calls

variable {σ η α : Type}

/-- One call. It leaves the store alone if it is refused. -/
def call (f : σ → Except StoreFault (α × σ)) : Calls σ α := ExceptT.mk fun s =>
  match f s with
  | .ok (x, s') => (.ok x, s')
  | .error fault => (.error (.ofStore fault), s)

def read (f : σ → Except StoreFault α) : Calls σ α := call fun s => (f s).map fun x => (x, s)

def write (f : σ → Except StoreFault σ) : Calls σ Unit := call fun s => (f s).map fun s' => ((), s')

/-- What was read may turn out to be a failure. -/
def ofExcept : Except Failure α → Calls σ α
  | .ok x => pure x
  | .error failure => throw failure

variable (a : Adapter σ η) (g : η)

def recordOf [Json.Room] (entry : Option Bytes) : Schema.OrderRecord :=
  entry.elim .absent Schema.orderOf

def currentOrder [Json.Room] : Calls σ (List Json.Units) := do
  let entry ← read (a.get g SchemaKey.order)
  match recordOf entry with
  | .names order => pure order
  | .tooDeep bracket => throw (.nesting bracket)
  | _ =>
    let entries ← read (a.items g SchemaKey.columnMark)
    ofExcept (((entries.mapM fun e => Schema.nameOf e.1).map (·.map Json.units)).mapError
      .undecodable)

def defineColumn [Json.Room] (c : ColumnDefinition) : Calls σ Unit := do
  let order ← currentOrder a g
  write (a.put g (SchemaKey.ofColumn c.name) (encode c.definition))
  write (a.put g SchemaKey.order
    (encode (Json.writeStrings (Schema.defineNext (.empty, order) c).2)))

def arrange (stored : List (String × String)) :
    Schema.OrderRecord → Except Schema.Fault (List ColumnDefinition)
  | .tooDeep bracket => .error (.nesting bracket)
  | .names order => (Schema.arranged stored order).mapM Schema.makeColumn
  | _ => stored.mapM Schema.makeColumn

def columns [Json.Room] : Calls σ (List ColumnDefinition) := do
  let entries ← read (a.items g SchemaKey.columnMark)
  let stored ← ofExcept ((entries.mapM fun (e : Bytes × Bytes) => do
    let name ← Schema.nameOf e.1
    let definition ← decode e.2
    return (name, definition)).mapError .undecodable)
  let entry ← read (a.get g SchemaKey.order)
  ofExcept ((arrange stored (recordOf entry)).mapError Execution.schemaFailure)

/-- No columns stand for all declared ones. -/
def headers [Json.Room] (names : List String) : Calls σ (List String) :=
  if names.isEmpty then do
    let columns ← columns a g
    return columns.map (·.name)
  else pure names

def putCell (row : Int) (column value : String) : Calls σ Unit :=
  match CellKey.make row column with
  | .ok key => write (a.put g key.toBytes (encode value))
  | .error fault => throw (.key fault)

def matching (filter : Filter) : Calls σ (List Row) := do
  let entries ← read (a.items g [])
  let rows := ((entries.filterMap Rows.cellOf?).foldl Rows.collect .empty).entries
  return (rows.map fun e => (⟨e.1, e.2⟩ : Row)).filter fun r => filter.holds r.cells

def deleteRow (r : Row) : Calls σ Unit := r.keys.forM fun key => write (a.delete g key)

def tableOf (id : Nat) (table : String) : Calls σ η := do
  match ← read (a.bucket id table) with
  | some g => pure g
  | none => throw (.noTable table)

/-- What a command does in the block of its transaction. Commands that choose a database have
no block. -/
def block [Json.Room] (id : Nat) : Command → Calls σ Outcome
  | .createTable table columns => do
    let g ← call (a.create id table)
    columns.forM (defineColumn a g)
    return .tableCreated table
  | .insert table columns values _ => do
    let g ← tableOf a id table
    let row ← call (a.nextSequence g)
    (columns.zip values).forM fun c => putCell a g row c.1 c.2
    return .inserted table
  | .select table names filter => do
    let g ← tableOf a id table
    let headers ← headers a g names
    let rows ← matching a g filter
    return .selected headers (rows.map fun r => ⟨headers, Row.project headers r.cells⟩)
  | .update table column value filter => do
    let g ← tableOf a id table
    let rows ← matching a g filter
    rows.forM fun r => putCell a g r.id column value
    return .updated table rows.length
  | .delete table filter => do
    let g ← tableOf a id table
    let rows ← matching a g filter
    rows.forM (deleteRow a g)
    return .deleted table rows.length
  | .dropTable table => do
    write (a.deleteBucket id table)
    return .tableDropped table
  | .createDatabase _ | .useDatabase _ => throw .noDatabase

/-- A block in its transaction: a failure ends it without keeping anything. -/
def transaction (writable : Bool) (body : Nat → Calls σ α) : Calls σ α := ExceptT.mk fun s =>
  match a.begin writable s with
  | .error fault => (.error (.ofStore fault), s)
  | .ok (id, s) => match body id s with
    | (.ok x, s) => ((a.finish id true s).1.mapError Failure.ofStore |>.map fun _ => x,
        (a.finish id true s).2)
    | (.error failure, s) => (.error failure, (a.finish id false s).2)

/-- Only a selection reads in a view. -/
def writes : Command → Bool
  | .select .. => false
  | _ => true

def execute [Json.Room] (c : Command) : Calls σ Outcome :=
  transaction a (writes c) fun id => block a id c

end Calls
end Cellstore.Store
