import Cellstore.Bucket
import Cellstore.CellKey
import Cellstore.Filter

/-! Rows of a table, taken together from their cells.
A row has no entry of its own: it exists as long as one of its cells does. Entries whose
keys are no cell keys are passed over, and values that are not UTF-8 are read with
replacement characters. -/
namespace Cellstore
open Text.Utf8 (encode decodeLossy)

instance : KeyOrder Nat where
  lt a b := decide (a < b)
  irrefl a := by simp
  trans a b c h k := by simp at *; omega
  connected a b h k := by simp at *; omega

structure Row where
  id : Nat
  cells : Cells
  deriving DecidableEq, Repr

namespace Row

/-- The values of some columns; a missing cell reads as the empty text. -/
def project (columns : List String) (cells : Cells) : List String :=
  columns.map fun c => (cells.lookup c).getD ""

def keys (r : Row) : List Bytes :=
  r.cells.filterMap fun c => match CellKey.make r.id c.1 with
    | .ok key => some key.toBytes
    | .error _ => none

end Row

structure StoredCell where
  row : Nat
  column : String
  value : String
  deriving DecidableEq, Repr

namespace Rows

def cellOf? (e : Bytes × Bytes) : Option StoredCell :=
  if SchemaKey.isSchema e.1 then none
  else match CellKey.ofBytes e.1 with
    | .ok key => some ⟨key.row, key.column, decodeLossy e.2⟩
    | .error _ => none

def cells (b : Bucket) : List StoredCell := b.entries.entries.filterMap cellOf?

/-- The keys that belong neither to the schema nor to a cell. -/
def malformedKeys (b : Bucket) : List Bytes :=
  b.entries.entries.filterMap fun e =>
    if SchemaKey.isSchema e.1 then none
    else match CellKey.ofBytes e.1 with
      | .ok _ => none
      | .error _ => some e.1

def collect (rows : SortedMap Nat Cells) (c : StoredCell) : SortedMap Nat Cells :=
  rows.insert c.row ((rows.get? c.row).getD [] ++ [(c.column, c.value)])

def scan (b : Bucket) : List Row :=
  ((cells b).foldl collect .empty).entries.map fun e => ⟨e.1, e.2⟩

def matching (b : Bucket) (filter : Filter) : List Row :=
  (scan b).filter fun r => filter.holds r.cells

def putCell (b : Bucket) (row : Int) (column value : String) : Except KeyFault Bucket :=
  match CellKey.make row column with
  | .ok key => .ok (b.put key.toBytes (encode value))
  | .error fault => .error fault

def putCells (row : Int) (b : Bucket) : Cells → Except KeyFault Bucket
  | [] => .ok b
  | (column, value) :: rest =>
    match putCell b row column value with
    | .ok b => putCells row b rest
    | .error fault => .error fault

def deleteRow (b : Bucket) (r : Row) : Bucket := r.keys.foldl Bucket.delete b

end Rows
end Cellstore
