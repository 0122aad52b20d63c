import Cellstore.Table.Script
import Cellstore.Proofs.Table.Changes
import Cellstore.Proofs.Text.Order

/-! The cells of a bucket and the rows that reading makes of them.
Whatever keys a bucket has, its cells are under the canonical ones among them. A row is there if one
of its cells is, and it has these cells by column, each with its own value. Rows depend on nothing
else, neither on other keys nor on how the cells of several rows are mixed. -/
namespace Cellstore
open KeyOrder Text.Utf8

/-- A cell of this row and column is stored, with these bytes for its value. -/
def Bucket.HasCell (b : Bucket) (row : Nat) (column : String) (raw : Bytes) : Prop :=
  IsCell row column ∧ b.get? (cellKey row column) = some raw

theorem CellKey.lt_toBytes {k j : CellKey} (same : k.row = j.row) :
    lt k.toBytes j.toBytes = lt k.column j.column := by
  rw [toBytes, toBytes, lt_encode]
  show listLt k.text.toList j.text.toList = listLt k.column.toList j.column.toList
  rw [text, text, String.toList_ofList, String.toList_ofList, same, listLt_append_left]
  exact listLt_append_left [':'] ..

namespace Rows

variable {b c : Bucket} {id : Nat} {column value : String}

theorem mem_cellsOf : (column, value) ∈ cellsOf b id ↔
    ∃ raw, b.HasCell id column raw ∧ value = decodeLossy raw := by
  rw [mem_cellsOf_iff]
  constructor
  · rintro ⟨readable, k, rfl, rfl, raw, found, read⟩
    exact ⟨raw, ⟨⟨k.positive, readable, k.isColumnName⟩, k.toBytes_eq ▸ found⟩, read⟩
  · rintro ⟨raw, ⟨cell, found⟩, read⟩
    exact ⟨cell.readable, cell.toKey, rfl, rfl, raw, cell.toBytes_toKey ▸ found, read⟩

theorem ascending_cellsOf (b : Bucket) (id : Nat) : Ascending (cellsOf b id) := by
  have sorted : (cells b).Pairwise fun c d => c.row = d.row → lt c.column d.column = true := by
    rw [cells, List.pairwise_filterMap]
    refine b.entries.ascending.imp fun below c first d second same => ?_
    obtain ⟨k, stored, -, rfl⟩ := cellOf?_eq_some_iff.mp first
    obtain ⟨j, storedNext, -, rfl⟩ := cellOf?_eq_some_iff.mp second
    rw [← stored, ← storedNext, CellKey.lt_toBytes same] at below
    exact below
  rw [Ascending, cellsOf, ofRow, List.pairwise_map]
  refine (sorted.filter _).imp_of_mem fun first second below => below ?_
  have here := (List.mem_filter.mp first).2
  have there := (List.mem_filter.mp second).2
  exact (of_decide_eq_true here).trans (of_decide_eq_true there).symm

def cellMap (b : Bucket) (id : Nat) : SortedMap String String := ⟨cellsOf b id, ascending_cellsOf b id⟩

theorem get?_cellMap_eq_some_iff : (cellMap b id).get? column = some value ↔
    ∃ raw, b.HasCell id column raw ∧ value = decodeLossy raw := by
  rw [← SortedMap.mem_entries_iff]
  exact mem_cellsOf

theorem cellsOf_congr
    (same : ∀ column raw, c.HasCell id column raw ↔ b.HasCell id column raw) :
    cellsOf c id = cellsOf b id := by
  have maps : cellMap c id = cellMap b id := by
    refine SortedMap.ext_get? fun column => Option.ext fun value => ?_
    simp only [get?_cellMap_eq_some_iff, same]
  exact congrArg SortedMap.entries maps

theorem exists_hasCell_iff : (∃ column raw, b.HasCell id column raw) ↔ cellsOf b id ≠ [] := by
  constructor
  · rintro ⟨column, raw, cell⟩
    exact List.ne_nil_of_mem (mem_cellsOf.mpr ⟨raw, cell, rfl⟩)
  · intro filled
    obtain ⟨⟨column, value⟩, member⟩ := List.exists_mem_of_ne_nil _ filled
    obtain ⟨raw, cell, -⟩ := mem_cellsOf.mp member
    exact ⟨column, raw, cell⟩

theorem scan_eq_filter {p : Row → Bool}
    (same : ∀ id column raw, c.HasCell id column raw ↔
      b.HasCell id column raw ∧ p ⟨id, cellsOf b id⟩ = true) :
    scan c = (scan b).filter p := by
  have filled (id : Nat) : cellsOf c id ≠ [] ↔ cellsOf b id ≠ [] ∧ p ⟨id, cellsOf b id⟩ = true := by
    simp only [← exists_hasCell_iff, same, exists_and_right]
  rw [← List.forall₂_eq_eq_eq]
  refine forall₂_scan filled fun id new => ?_
  have passes := ((filled id).mp new).2
  have cells : cellsOf c id = cellsOf b id :=
    cellsOf_congr fun column raw => by rw [same, and_iff_left passes]
  rw [cells]

theorem scan_congr
    (same : ∀ id column raw, c.HasCell id column raw ↔ b.HasCell id column raw) :
    scan c = scan b := by
  have rows := @scan_eq_filter b c (fun _ => true) (by simpa using same)
  simpa using rows

/-- Reading the rows never fails, whatever is in the bucket, and changes nothing. It gives the rows
that have cells, in ascending order of their ids, with exactly their cells; every other key could as
well be missing. -/
theorem scan_groups_stored_cells [Json.Room] (counting : Counting) (b : Bucket) : ∃ rows,
    Table.attempt counting b .scanRows = (.ok (.rows rows, b), Table.rowNotices b) ∧
    (rows.map (·.id)).Pairwise (· < ·) ∧
    (∀ id, id ∈ rows.map (·.id) ↔ ∃ column raw, b.HasCell id column raw) ∧
    (∀ r ∈ rows, (r.cells.map (·.1)).Nodup ∧ ∀ column value, (column, value) ∈ r.cells ↔
      ∃ raw, b.HasCell r.id column raw ∧ value = decodeLossy raw) ∧
    ∀ c : Bucket, (∀ id column raw, c.HasCell id column raw ↔ b.HasCell id column raw) →
      scan c = rows := by
  refine ⟨scan b, rfl, scan_pairwise b, fun id => ?_, fun r inside => ?_, fun c => scan_congr⟩
  · rw [exists_hasCell_iff, mem_map_id_scan]
  · rw [(mem_scan_iff.mp inside).1]
    refine ⟨?_, fun column value => mem_cellsOf⟩
    exact (SortedMap.keys_pairwise (cellMap b r.id)).imp KeyOrder.ne_of_lt

/-- Cells of two rows among keys that are no cell keys. -/
def mixed : Bucket where
  entries := .ofList [(encode "10:b", encode "w"), (encode "9:b", encode "v"),
    (encode "10:a", encode "u"), (encode "09:b", encode "z"), (encode "9:", []),
    (encode "col:b", encode "b"), ([0xFF], [])]
  sequence := 10

example : scan mixed = [⟨9, [("b", "v")]⟩, ⟨10, [("a", "u"), ("b", "w")]⟩] := by decide +kernel

end Rows
end Cellstore
