import Cellstore.Execution
import Cellstore.Proofs.Table.Rows

/-! What changes of a table make of its rows.
After a deletion exactly the rows that did not pass are left, as they were. After an update the same
rows are there, and of those that passed one column is set. -/
namespace Cellstore.Rows
open Text.Utf8

variable {b : Bucket} {filter : Filter} {id : Nat}

theorem cellsOf_ne_nil_iff : cellsOf b id ≠ [] ↔
    CellKey.IsReadable id ∧ ∃ k : CellKey, k.row = id ∧ ∃ raw, b.get? k.toBytes = some raw := by
  constructor
  · intro filled
    obtain ⟨⟨column, value⟩, member⟩ := List.exists_mem_of_ne_nil _ filled
    obtain ⟨readable, k, row, -, raw, found, -⟩ := mem_cellsOf_iff.mp member
    exact ⟨readable, k, row, raw, found⟩
  · rintro ⟨readable, k, row, raw, found⟩
    exact List.ne_nil_of_mem (mem_cellsOf_iff.mpr ⟨readable, k, row, rfl, raw, found, rfl⟩)

theorem mem_map_id_filter_iff {p : Row → Bool} : id ∈ ((scan b).filter p).map (·.id) ↔
    cellsOf b id ≠ [] ∧ p ⟨id, cellsOf b id⟩ = true := by
  simp only [List.mem_map, List.mem_filter, mem_scan_iff]
  constructor
  · rintro ⟨⟨id, cells⟩, ⟨⟨same, filled⟩, passes⟩, rfl⟩
    dsimp only at same filled ⊢
    exact ⟨filled, same ▸ passes⟩
  · rintro ⟨filled, passes⟩
    exact ⟨⟨id, cellsOf b id⟩, ⟨⟨rfl, filled⟩, passes⟩, rfl⟩

theorem mem_map_id_scan : id ∈ (scan b).map (·.id) ↔ cellsOf b id ≠ [] := by
  simpa using @mem_map_id_filter_iff b id fun _ => true

theorem mem_map_id_matching :
    id ∈ (matching b filter).map (·.id) ↔ cellsOf b id ≠ [] ∧ filter.holds (cellsOf b id) = true :=
  mem_map_id_filter_iff

/-- A column of a row is a cell that can be stored, or it has no value in any bucket. -/
theorem lookup_cases (id : Nat) (column : String) :
    (∃ k : CellKey, k.row = id ∧ k.column = column ∧ CellKey.IsReadable id) ∨
      ∀ b, (cellsOf b id).lookup column = none := by
  by_cases possible : ∃ k : CellKey, k.row = id ∧ k.column = column ∧ CellKey.IsReadable id
  · exact .inl possible
  · exact .inr fun b => lookup_cellsOf_eq_none fun k row named readable =>
      possible ⟨k, row, named, readable⟩

theorem forall₂_scan {b c : Bucket} {p : Row → Bool} {R : Row → Row → Prop}
    (ids : ∀ id, cellsOf c id ≠ [] ↔ cellsOf b id ≠ [] ∧ p ⟨id, cellsOf b id⟩ = true)
    (related : ∀ id, cellsOf c id ≠ [] → R ⟨id, cellsOf c id⟩ ⟨id, cellsOf b id⟩) :
    List.Forall₂ R (scan c) ((scan b).filter p) := by
  have ascending (b : Bucket) (p : Row → Bool) :
      (((scan b).filter p).map (·.id)).Pairwise fun m n => KeyOrder.lt m n = true := by
    have sub : (((scan b).filter p).map (·.id)).Sublist ((scan b).map (·.id)) :=
      List.filter_sublist.map _
    exact ((scan_pairwise b).sublist sub).imp fun h => decide_eq_true h
  have same : (scan c).map (·.id) = ((scan b).filter p).map (·.id) := by
    refine SortedMap.eq_of_pairwise_lt (by simpa using ascending c fun _ => true) (ascending b p)
      fun id => ?_
    rw [mem_map_id_scan, mem_map_id_filter_iff, ids]
  refine forall₂_of_map_eq same fun r inNew s inOld here => ?_
  obtain ⟨id, cells⟩ := r
  obtain ⟨_, old⟩ := s
  obtain rfl : id = _ := here
  obtain ⟨cellsNew, filled⟩ := mem_scan_iff.mp inNew
  obtain ⟨cellsOld, -⟩ := mem_scan_iff.mp (List.mem_filter.mp inOld).1
  dsimp only at cellsNew cellsOld filled
  exact cellsNew ▸ cellsOld ▸ related id filled

/-! Deletions. -/

theorem get?_deleted (b : Bucket) (filter : Filter) (k : CellKey) :
    ((matching b filter).foldl deleteRow b).get? k.toBytes =
      if k.row ∈ (matching b filter).map (·.id) then none else b.get? k.toBytes := by
  rw [foldl_deleteRow, get?_foldl_delete]
  by_cases listed : k.row ∈ (matching b filter).map (·.id)
  · rw [if_pos listed]
    cases found : b.get? k.toBytes with
    | none => simp
    | some raw =>
      have readable := (cellsOf_ne_nil_iff.mp (mem_map_id_matching.mp listed).1).1
      rw [if_pos (mem_keys_matching_iff.mpr ⟨k, rfl, listed, readable, raw, found⟩)]
  · rw [if_neg listed, if_neg]
    intro inside
    obtain ⟨j, same, other, -⟩ := mem_keys_matching_iff.mp inside
    exact listed (CellKey.toBytes_injective same ▸ other)

private theorem cellsOf_deleted_ne_nil_iff :
    cellsOf ((matching b filter).foldl deleteRow b) id ≠ [] ↔
      cellsOf b id ≠ [] ∧ id ∉ (matching b filter).map (·.id) := by
  simp only [cellsOf_ne_nil_iff, get?_deleted]
  constructor
  · rintro ⟨readable, k, rfl, raw, found⟩
    split_ifs at found with listed
    exact ⟨⟨readable, k, rfl, raw, found⟩, listed⟩
  · rintro ⟨⟨readable, k, rfl, raw, found⟩, left⟩
    exact ⟨readable, k, rfl, raw, by rw [if_neg left, found]⟩

/-- Rows with the same id and the same values. -/
def Same (r s : Row) : Prop := r.id = s.id ∧ ∀ column, r.cells.lookup column = s.cells.lookup column

theorem scan_deleted (b : Bucket) (filter : Filter) :
    List.Forall₂ Same (scan ((matching b filter).foldl deleteRow b))
      ((scan b).filter fun r => !filter.holds r.cells) := by
  refine forall₂_scan (fun id => ?_) fun id filled => ⟨rfl, fun column => ?_⟩
  · rw [cellsOf_deleted_ne_nil_iff, mem_map_id_matching]
    cases holds : filter.holds (cellsOf b id) <;> simp
  · have left := (cellsOf_deleted_ne_nil_iff.mp filled).2
    rcases lookup_cases id column with ⟨k, rfl, rfl, readable⟩ | none
    · rw [lookup_cellsOf _ k readable, lookup_cellsOf _ k readable, get?_deleted, if_neg left]
    · rw [none, none]

/-! Updates. -/

theorem get?_assigned {column value : String} {rows : List Row} {b b' : Bucket}
    (written : Execution.assign column value b rows = .ok b') (k : CellKey) :
    b'.get? k.toBytes = if k.row ∈ rows.map (·.id) ∧ k.column = column then some (encode value)
      else b.get? k.toBytes := by
  induction rows generalizing b with
  | nil =>
    cases written
    simp
  | cons r rows ih =>
    rw [Execution.assign, putCell] at written
    cases made : CellKey.make r.id column with
    | error fault => simp [made] at written
    | ok j =>
      obtain ⟨row, named⟩ := CellKey.make_inv made
      simp only [made] at written
      rw [ih written]
      by_cases here : j = k
      · subst here
        simp [row, named]
      · rw [Bucket.get?_put_of_ne _ _ fun bytes => here (CellKey.toBytes_injective bytes),
          List.map_cons]
        refine if_congr (and_congr_left fun sameColumn => ?_) rfl rfl
        have otherRow : k.row ≠ r.id := fun sameRow =>
          here (CellKey.ext (row.trans sameRow.symm) (named.trans sameColumn.symm))
        simp [otherRow]

/-- The row of the same id, with a column set if it passed. -/
def SetIn (filter : Filter) (column value : String) (r s : Row) : Prop :=
  r.id = s.id ∧ ∀ name, r.cells.lookup name =
    if filter.holds s.cells = true ∧ name = column then some value else s.cells.lookup name

theorem scan_assigned {column value : String} {b' : Bucket} (named : IsColumnName column)
    (written : Execution.assign column value b (matching b filter) = .ok b') :
    List.Forall₂ (SetIn filter column value) (scan b') (scan b) := by
  have stored := get?_assigned written
  have filled (id : Nat) : cellsOf b' id ≠ [] ↔ cellsOf b id ≠ [] := by
    constructor
    · intro new
      obtain ⟨readable, k, rfl, raw, found⟩ := cellsOf_ne_nil_iff.mp new
      rw [stored] at found
      split_ifs at found with set
      · exact (mem_map_id_matching.mp set.1).1
      · exact cellsOf_ne_nil_iff.mpr ⟨readable, k, rfl, raw, found⟩
    · intro old
      obtain ⟨readable, k, rfl, raw, found⟩ := cellsOf_ne_nil_iff.mp old
      refine cellsOf_ne_nil_iff.mpr ⟨readable, k, rfl, ?_⟩
      rw [stored]
      split_ifs
      · exact ⟨_, rfl⟩
      · exact ⟨raw, found⟩
  have rows := @forall₂_scan b b' (fun _ => true) (SetIn filter column value)
    (fun id => by simp [filled]) fun id new => ⟨rfl, fun name => ?_⟩
  · simpa using rows
  have old := (filled id).mp new
  have passes : id ∈ (matching b filter).map (·.id) ↔ filter.holds (cellsOf b id) = true := by
    simp [mem_map_id_matching, old]
  simp only [← passes]
  by_cases set : id ∈ (matching b filter).map (·.id) ∧ name = column
  · obtain ⟨readable, j, row, -⟩ := cellsOf_ne_nil_iff.mp old
    obtain ⟨listed, rfl⟩ := set
    let k : CellKey := ⟨id, name, row ▸ j.positive, named⟩
    have read := lookup_cellsOf b' k readable
    rw [stored, if_pos ⟨listed, rfl⟩, Option.map_some, decodeLossy_encode] at read
    rw [if_pos ⟨listed, rfl⟩]
    exact read
  · rw [if_neg set]
    rcases lookup_cases id name with ⟨k, rfl, rfl, readable⟩ | none
    · rw [lookup_cellsOf _ k readable, lookup_cellsOf _ k readable, stored, if_neg set]
    · rw [none, none]

end Cellstore.Rows
