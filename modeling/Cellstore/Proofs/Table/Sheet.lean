import Cellstore.Proofs.Table.Scan

/-! The rows of a bucket as a map of maps.
Writing a cell sets it in the row of its id, and deleting a row takes away the row with its keys.
Whatever else is in the bucket, the other rows, the other keys and the counter stay as they are. -/
namespace Cellstore
open Text.Utf8 (encode decodeLossy decodeLossy_encode)

/-- Rows by id, each with its cells by column. -/
abbrev Sheet := SortedMap Nat (SortedMap String String)

namespace Sheet

def rows (s : Sheet) : List Row := s.entries.map fun e => ⟨e.1, e.2.entries⟩

/-- Sets one cell. A row begins with its first cell. -/
def setCell (s : Sheet) (id : Nat) (column value : String) : Sheet :=
  s.insert id (((s.get? id).getD .empty).insert column value)

end Sheet

section
variable {b : Bucket} {id other : Nat} {column name : String} {raw bytes : Bytes}

theorem hasCell_put_self (cell : IsCell id column) :
    (b.put (cellKey id column) raw).HasCell id column bytes ↔ bytes = raw := by
  rw [Bucket.HasCell, Bucket.get?_put_self, and_iff_right cell, Option.some.injEq, eq_comm]

theorem hasCell_put_of_ne (cell : IsCell id column) (elsewhere : ¬ (id = other ∧ column = name)) :
    (b.put (cellKey id column) raw).HasCell other name bytes ↔ b.HasCell other name bytes := by
  refine and_congr_right fun there => ?_
  rw [Bucket.get?_put_of_ne _ _ fun same => elsewhere (cell.eq_of_cellKey there same)]

end

namespace Rows

variable {b : Bucket} {r : Row} {id : Nat} {column value : String}

def sheetOf (b : Bucket) : Sheet where
  entries := (scan b).map fun r => (r.id, cellMap b r.id)
  ascending := by
    rw [Ascending, List.pairwise_map]
    exact (List.pairwise_map.mp (scan_pairwise b)).imp fun below => decide_eq_true below

theorem eq_of_mem_scan (inside : r ∈ scan b) : r = ⟨r.id, cellsOf b r.id⟩ := by
  obtain ⟨cells, -⟩ := mem_scan_iff.mp inside
  rw [← cells]

theorem rows_sheetOf (b : Bucket) : (sheetOf b).rows = scan b := by
  rw [Sheet.rows, sheetOf, List.map_map]
  refine (List.map_congr_left fun r inside => ?_).trans (List.map_id _)
  exact (eq_of_mem_scan inside).symm

theorem get?_sheetOf (b : Bucket) (id : Nat) :
    (sheetOf b).get? id = if cellsOf b id = [] then none else some (cellMap b id) := by
  ext cells
  have listed : (id, cells) ∈ (sheetOf b).entries ↔
      id ∈ (scan b).map (·.id) ∧ cellMap b id = cells := by
    simp only [sheetOf, List.mem_map, Prod.mk.injEq]
    constructor
    · rintro ⟨r, inside, rfl, same⟩
      exact ⟨⟨r, inside, rfl⟩, same⟩
    · rintro ⟨⟨r, inside, rfl⟩, same⟩
      exact ⟨r, inside, rfl, same⟩
  rw [← SortedMap.mem_entries_iff, listed, mem_map_id_scan]
  split_ifs with empty <;> simp [empty]

theorem getD_sheetOf (b : Bucket) (id : Nat) :
    ((sheetOf b).get? id).getD .empty = cellMap b id := by
  rw [get?_sheetOf]
  split_ifs with empty
  · exact SortedMap.ext empty.symm
  · rfl

/-! Writing a cell. -/

theorem putCell_eq (cell : IsCell id column) :
    putCell b id column value = .ok (b.put (cellKey id column) (encode value)) := by
  rw [putCell, cell.make_eq, ← cell.toBytes_toKey]

theorem cellMap_put (cell : IsCell id column) :
    cellMap (b.put (cellKey id column) (encode value)) id = (cellMap b id).insert column value := by
  refine SortedMap.ext_get? fun name => Option.ext fun text => ?_
  rw [SortedMap.get?_insert, get?_cellMap_eq_some_iff]
  split_ifs with here
  · subst here
    simp only [hasCell_put_self cell, exists_eq_left, decodeLossy_encode, Option.some.injEq]
    exact eq_comm
  · simp only [hasCell_put_of_ne cell fun same => here same.2, get?_cellMap_eq_some_iff]

theorem sheetOf_put (cell : IsCell id column) :
    sheetOf (b.put (cellKey id column) (encode value)) = (sheetOf b).setCell id column value := by
  refine SortedMap.ext_get? fun other => ?_
  rw [Sheet.setCell, SortedMap.get?_insert, getD_sheetOf]
  split_ifs with here
  · subst here
    have filled : cellsOf (b.put (cellKey id column) (encode value)) id ≠ [] :=
      exists_hasCell_iff.mp ⟨column, encode value, (hasCell_put_self cell).mpr rfl⟩
    rw [get?_sheetOf, if_neg filled, cellMap_put cell]
  · have same : cellsOf (b.put (cellKey id column) (encode value)) other = cellsOf b other :=
      cellsOf_congr fun name raw => hasCell_put_of_ne cell fun same => here same.1
    rw [get?_sheetOf, get?_sheetOf, same]
    exact if_congr Iff.rfl rfl (congrArg some (SortedMap.ext same))

/-! Deleting a row. -/

theorem get?_deleteRow (b : Bucket) (r : Row) (key : Bytes) :
    (deleteRow b r).get? key = if key ∈ r.keys then none else b.get? key :=
  get?_foldl_delete r.keys b key

theorem get?_deleteRow_of_row (inside : r ∈ scan b) {key : Bytes} {k : CellKey}
    (read : CellKey.ofBytes key = .ok k) (row : k.row = r.id) :
    (deleteRow b r).get? key = none := by
  obtain ⟨readable, rfl⟩ := CellKey.ofBytes_eq_ok_iff.mp read
  rw [get?_deleteRow]
  split_ifs with listed
  · rfl
  · refine Option.eq_none_iff_forall_ne_some.mpr fun raw found => listed ?_
    exact (mem_keys_iff inside).mpr ⟨k, rfl, row, readable, raw, found⟩

theorem get?_deleteRow_of_other (inside : r ∈ scan b) {key : Bytes}
    (other : ∀ k, CellKey.ofBytes key = .ok k → k.row ≠ r.id) :
    (deleteRow b r).get? key = b.get? key := by
  rw [get?_deleteRow, if_neg]
  intro listed
  obtain ⟨k, rfl, row, readable, -⟩ := (mem_keys_iff inside).mp listed
  exact other k (CellKey.ofBytes_toBytes k readable) row

theorem hasCell_deleteRow_iff (inside : r ∈ scan b) {raw : Bytes} :
    (deleteRow b r).HasCell id column raw ↔ b.HasCell id column raw ∧ id ≠ r.id := by
  rw [Bucket.HasCell, Bucket.HasCell, and_assoc]
  refine and_congr_right fun cell => ?_
  by_cases here : id = r.id
  · rw [get?_deleteRow_of_row inside cell.ofBytes_cellKey here]
    simp [here]
  · have other : ∀ k, CellKey.ofBytes (cellKey id column) = .ok k → k.row ≠ r.id := by
      intro k read
      rw [cell.ofBytes_cellKey] at read
      cases read
      exact here
    rw [get?_deleteRow_of_other inside other, and_iff_left here]

theorem scan_deleteRow (inside : r ∈ scan b) :
    scan (deleteRow b r) = (scan b).filter fun s => s ≠ r := by
  refine scan_eq_filter fun id column raw => ?_
  rw [hasCell_deleteRow_iff inside, eq_of_mem_scan inside]
  refine and_congr_right fun _ => ?_
  rw [decide_eq_true_eq, ne_eq, ne_eq, not_iff_not, Row.mk.injEq]
  exact ⟨fun same => ⟨same, by rw [same]⟩, And.left⟩

theorem find?_scan (inside : r ∈ scan b) :
    (scan b).find? (fun s => (s.id : Int) == (r.id : Int)) = some r := by
  refine find?_eq_some_of_unique inside (beq_self_eq_true _) fun s member hit => ?_
  have same : s.id = r.id := Int.ofNat_inj.mp (beq_iff_eq.mp hit)
  rw [eq_of_mem_scan inside, eq_of_mem_scan member, same]

/-- Cells are written and rows deleted as in a map of maps. A write gives the rows with this one
cell set. A deletion gives the rows without the one that was deleted, counts its cells, removes the
keys that are read as its cells, and leaves everything else. -/
theorem changes_act_on_a_map [Json.Room] (counting : Counting) (b : Bucket) :
    ∃ s : Sheet, s.rows = scan b ∧
    (∀ id column value, IsCell id column → ∃ b',
      Table.attempt counting b (.putCell id column value) = (.ok (.done, b'), []) ∧
      scan b' = (s.setCell id column value).rows ∧ b'.sequence = b.sequence ∧
      ∀ key, key ≠ cellKey id column → b'.get? key = b.get? key) ∧
    ∀ r ∈ scan b, ∃ b', Table.attempt counting b (.deleteRow r.id) =
        (.ok (.deleted (some r.cells.length), b'), Table.rowNotices b) ∧
      scan b' = (scan b).filter (· ≠ r) ∧ b'.sequence = b.sequence ∧
      (∀ key k, CellKey.ofBytes key = .ok k → k.row = r.id → b'.get? key = none) ∧
      ∀ key, (∀ k, CellKey.ofBytes key = .ok k → k.row ≠ r.id) → b'.get? key = b.get? key := by
  refine ⟨sheetOf b, rows_sheetOf b, fun id column value cell => ?_, fun r inside => ?_⟩
  · refine ⟨b.put (cellKey id column) (encode value), ?_, ?_, rfl, fun key other => ?_⟩
    · rw [Table.attempt, putCell_eq cell]
      rfl
    · rw [← rows_sheetOf, sheetOf_put cell]
    · exact Bucket.get?_put_of_ne b _ other.symm
  · refine ⟨deleteRow b r, ?_, scan_deleteRow inside, sequence_foldl_delete r.keys b,
      fun key k => get?_deleteRow_of_row inside, fun key => get?_deleteRow_of_other inside⟩
    simp only [Table.attempt, find?_scan inside]

theorem changes_act_on_a_map_mixed : IsCell 9 "c" ∧ (⟨9, [("b", "v")]⟩ : Row) ∈ scan mixed ∧
    ∃ set deleted, Table.attempt .endless mixed (.putCell 9 "c" "x") = (.ok (.done, set), []) ∧
      Table.attempt .endless mixed (.deleteRow 9) =
        (.ok (.deleted (some 1), deleted), Table.rowNotices mixed) ∧
      scan deleted = [⟨10, [("a", "u"), ("b", "w")]⟩] := by
  have readable : CellKey.IsReadable 9 := Nat.lt_of_lt_of_le (show 9 < 10 ^ 1 by decide)
    (Nat.pow_le_pow_right (by decide) (by decide))
  have cell : IsCell 9 "c" := ⟨by decide, readable, by decide⟩
  have rows : scan mixed = [⟨9, [("b", "v")]⟩, ⟨10, [("a", "u"), ("b", "w")]⟩] := by decide +kernel
  have inside : (⟨9, [("b", "v")]⟩ : Row) ∈ scan mixed := by simp [rows]
  obtain ⟨_, -, writes, deletes⟩ := changes_act_on_a_map .endless mixed
  obtain ⟨set, written, -⟩ := writes 9 "c" "x" cell
  obtain ⟨deleted, done, left, -⟩ := deletes _ inside
  refine ⟨cell, inside, set, deleted, written, done, ?_⟩
  rw [left, rows]
  rfl

end Rows
end Cellstore
