import Cellstore.Log
import Cellstore.Table.Rows
import Cellstore.Table.Schema

/-! Sequences of operations on one table, and the replies.
An operation may also leave notices for the log: unreadable order records and malformed keys
are passed over, but not silently. -/
namespace Cellstore.Table

inductive Operation where
  | defineColumn (name definition : String)
  | defineColumns (columns : List (String × String))
  | listColumns
  | columnNames
  | nextRowId
  | putCell (row : Int) (column value : String)
  | scanRows
  | project (columns : List String)
  | cellKeys
  | deleteRow (row : Int)
  /-- Writes any key, whether it fits the layout of a table or not. -/
  | put (key value : Bytes)
  | delete (key : Bytes)
  | items

inductive Reply where
  | done
  | columns (columns : List ColumnDefinition)
  | names (names : List String)
  | rowId (n : Int)
  | rows (rows : List Row)
  | values (rows : List (List String))
  | keys (rows : List (List Bytes))
  /-- How many cells were deleted, none if there is no such row. -/
  | deleted (cells : Option Nat)
  | entries (entries : List (Bytes × Bytes))

inductive Fault where
  | schema (fault : Schema.Fault)
  | key (fault : KeyFault)
  deriving DecidableEq, Repr

inductive Notice where
  | malformedKey
  | unreadableOrder
  deriving DecidableEq, Repr

def Notice.level : Notice → Log.Level
  | .malformedKey => .debug
  | .unreadableOrder => .warning

def Notice.event : Notice → String
  | .malformedKey => "skipping_malformed_key"
  | .unreadableOrder => "column_order_unreadable"

variable [Json.Room]

def orderNotices (b : Bucket) : List Notice :=
  match Schema.orderRecord b with
  | .unreadable => [.unreadableOrder]
  | _ => []

def rowNotices (b : Bucket) : List Notice := (Rows.malformedKeys b).map fun _ => .malformedKey

def makeColumns (columns : List (String × String)) : Except Fault (List ColumnDefinition) :=
  columns.mapM fun c => (ColumnDefinition.make c.1 c.2).mapError (.schema ∘ .column)

def defineAll (b : Bucket) (columns : List (String × String)) :
    Except Fault (Reply × Bucket) × List Notice :=
  match makeColumns columns with
  | .error fault => (.error fault, [])
  | .ok columns =>
    (((Schema.define b columns).map fun b => (.done, b)).mapError .schema, orderNotices b)

/-- Lists the declared columns. The order record is not read if a definition is not UTF-8. -/
def listAll (b : Bucket) (reply : List ColumnDefinition → Reply) :
    Except Fault (Reply × Bucket) × List Notice :=
  match Schema.definitions b, Schema.columns b with
  | .error failure, _ => (.error (.schema (.undecodable failure)), [])
  | .ok _, columns =>
    ((columns.map fun columns => (reply columns, b)).mapError .schema, orderNotices b)

/-- One operation: its reply with the bucket after it, or its fault, and its notices. A single
definition and the names go through one more call. -/
def attempt (counting : Counting) (b : Bucket) : Operation → Except Fault (Reply × Bucket) × List Notice
  | .defineColumn name definition => @defineAll Json.Room.further b [(name, definition)]
  | .defineColumns columns => defineAll b columns
  | .listColumns => listAll b .columns
  | .columnNames => @listAll Json.Room.further b fun columns => .names (columns.map (·.name))
  | .nextRowId => let (n, b) := b.nextSequence counting; (.ok (.rowId n, b), [])
  | .putCell row column value =>
    (((Rows.putCell b row column value).map fun b => (.done, b)).mapError .key, [])
  | .scanRows => (.ok (.rows (Rows.scan b), b), rowNotices b)
  | .project columns =>
    (.ok (.values ((Rows.scan b).map fun r => Row.project columns r.cells), b), rowNotices b)
  | .cellKeys => (.ok (.keys ((Rows.scan b).map Row.keys), b), rowNotices b)
  | .deleteRow row => match (Rows.scan b).find? fun r => (r.id : Int) == row with
    | some r => (.ok (.deleted (some r.cells.length), Rows.deleteRow b r), rowNotices b)
    | none => (.ok (.deleted none, b), rowNotices b)
  | .put key value => (.ok (.done, b.put key value), [])
  | .delete key => (.ok (.done, b.delete key), [])
  | .items => (.ok (.entries (b.items []), b), [])

def perform (counting : Counting) (b : Bucket) (op : Operation) :
    Except Fault Reply × List Notice × Bucket :=
  match attempt counting b op with
  | (.ok (reply, b), notices) => (.ok reply, notices, b)
  | (.error fault, notices) => (.error fault, notices, b)

def performAll (counting : Counting) (b : Bucket) :
    List Operation → List (Except Fault Reply × List Notice) × Bucket
  | [] => ([], b)
  | op :: rest =>
    let (reply, notices, b) := perform counting b op
    let (replies, b) := performAll counting b rest
    ((reply, notices) :: replies, b)

end Cellstore.Table
