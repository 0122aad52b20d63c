import Cellstore.Bucket
import Cellstore.CellKey
import Cellstore.Json.Reader
import Cellstore.Json.Writer

/-! The declared columns of a table.
Every column has an entry with its definition text. One more entry records the order of
declaration as a JSON list of names, because definitions come back in key order. A table
without a readable record falls back to key order, but a record with too many brackets
inside each other is a fault. -/
namespace Cellstore.Schema
open Text.Utf8 (encode decode)
variable [Json.Room]

inductive OrderRecord where
  | absent
  | unreadable
  | tooDeep (b : Json.Bracket)
  | names (order : List Json.Units)

def orderOf (raw : Bytes) : OrderRecord :=
  match decode raw with
  | .error _ => .unreadable
  | .ok text => match Json.read text with
    | .error (.tooDeep b) => .tooDeep b
    | .error .malformed => .unreadable
    | .ok (.array items) => match items.mapM Json.Value.string? with
      | some order => .names order
      | none => .unreadable
    | .ok _ => .unreadable

def orderRecord (b : Bucket) : OrderRecord :=
  match b.get? SchemaKey.order with
  | none => .absent
  | some raw => orderOf raw

inductive Fault where
  | undecodable (failure : Text.Utf8.Failure)
  | column (fault : ColumnFault)
  | nesting (b : Json.Bracket)
  deriving DecidableEq, Repr

def nameOf (key : Bytes) : Except Text.Utf8.Failure String :=
  decode (key.drop SchemaKey.columnMark.length)

def namesByKey (b : Bucket) : Except Text.Utf8.Failure (List String) :=
  (b.items SchemaKey.columnMark).mapM fun e => nameOf e.1

/-- The order to extend: the recorded one, or key order. -/
def currentOrder (b : Bucket) : Except Fault (List Json.Units) :=
  match orderRecord b with
  | .names order => .ok order
  | .tooDeep bracket => .error (.nesting bracket)
  | _ => ((namesByKey b).map (·.map Json.units)).mapError .undecodable

/-- Stores one definition; a name that is seen for the first time goes to the end. -/
def defineNext (state : Bucket × List Json.Units) (c : ColumnDefinition) :
    Bucket × List Json.Units :=
  let (b, order) := state
  let name := Json.units c.name
  (b.put (SchemaKey.ofColumn c.name) (encode c.definition),
    if name ∈ order then order else order ++ [name])

/-- Stores several definitions and then the order. A column keeps its place when it is
defined again. -/
def define (b : Bucket) (columns : List ColumnDefinition) : Except Fault Bucket :=
  match currentOrder b with
  | .error fault => .error fault
  | .ok order =>
    let (b, order) := columns.foldl defineNext (b, order)
    .ok (b.put SchemaKey.order (encode (Json.writeStrings order)))

def definitions (b : Bucket) : Except Text.Utf8.Failure (List (String × String)) :=
  (b.items SchemaKey.columnMark).mapM fun e => do
    let name ← nameOf e.1
    let definition ← decode e.2
    return (name, definition)

/-- The definitions in the recorded order. Recorded names without a definition are left
out, and so are definitions that no record names. -/
def arranged (stored : List (String × String)) (order : List Json.Units) :
    List (String × String) :=
  order.filterMap fun name => stored.find? fun d => Json.units d.1 == name

def makeColumn (d : String × String) : Except Fault ColumnDefinition :=
  (ColumnDefinition.make d.1 d.2).mapError .column

def columns (b : Bucket) : Except Fault (List ColumnDefinition) :=
  match definitions b with
  | .error failure => .error (.undecodable failure)
  | .ok stored =>
    match orderRecord b with
    | .tooDeep bracket => .error (.nesting bracket)
    | .names order => (arranged stored order).mapM makeColumn
    | _ => stored.mapM makeColumn

def columnNames (b : Bucket) : Except Fault (List String) :=
  (columns b).map (·.map (·.name))

end Cellstore.Schema
