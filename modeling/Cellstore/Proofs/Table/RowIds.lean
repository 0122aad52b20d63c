import Cellstore.Proofs.Table.Changes
import Cellstore.Proofs.Table.Layout

/-! Row ids in a bucket.
A row is there as soon as a cell is stored under its id. Only an insertion writes cells under an id
that had none, and only an insertion draws from the counter. -/
namespace Cellstore
open Text.Utf8 (encode)

/-- A cell is stored under this row id, whether it can be read or not. -/
def Bucket.HasRow (b : Bucket) (id : Nat) : Prop :=
  ∃ k : CellKey, k.row = id ∧ ∃ raw, b.get? k.toBytes = some raw

/-- A change that draws no id and writes under none that had no cell. -/
structure AddsNoRow (b b' : Bucket) : Prop where
  sequence : b'.sequence = b.sequence
  rows : ∀ id, b'.HasRow id → b.HasRow id

/-- A change that writes some cells under a new row id and leaves everything else alone. -/
structure AddsRow (b : Bucket) (id : Nat) (cells : Cells) (b' : Bucket) : Prop where
  new : ¬ b.HasRow id
  written : ∀ k : CellKey, k.row = id → b'.get? k.toBytes = (cells.lookup k.column).map encode
  kept : ∀ key, (∀ k : CellKey, k.row = id → k.toBytes ≠ key) → b'.get? key = b.get? key

theorem Rows.sequence_putCell {b b' : Bucket} {row : Int} {column value : String}
    (written : putCell b row column value = .ok b') : b'.sequence = b.sequence := by
  unfold putCell at written
  split at written
  · cases written
    exact Bucket.sequence_put ..
  · cases written

namespace AddsNoRow

variable {b b' b'' : Bucket}

theorem refl (b : Bucket) : AddsNoRow b b := ⟨rfl, fun _ => id⟩

theorem trans (first : AddsNoRow b b') (second : AddsNoRow b' b'') : AddsNoRow b b'' :=
  ⟨second.sequence.trans first.sequence, fun id there => first.rows id (second.rows id there)⟩

theorem of_cells (sequence : b'.sequence = b.sequence)
    (cells : ∀ k : CellKey, b'.get? k.toBytes = b.get? k.toBytes) : AddsNoRow b b' where
  sequence := sequence
  rows := by
    rintro id ⟨k, row, raw, found⟩
    exact ⟨k, row, raw, (cells k).symm.trans found⟩

theorem declare [Json.Room] {columns : List ColumnDefinition}
    (declared : Execution.declare b columns = .ok b') : AddsNoRow b b' := by
  induction columns generalizing b with
  | nil =>
    cases declared
    exact refl _
  | cons c columns ih =>
    unfold Execution.declare at declared
    split at declared
    · rename_i next defined
      refine trans ?_ (ih declared)
      unfold Schema.define at defined
      split at defined <;> cases defined
      refine of_cells rfl fun k => ?_
      rw [Bucket.get?_put_of_ne _ _ k.toBytes_ne_order.symm]
      exact Bucket.get?_put_of_ne _ _ (k.toBytes_ne_ofColumn c.name).symm
    · cases declared

private theorem sequence_assign {column value : String} {rows : List Row}
    (written : Execution.assign column value b rows = .ok b') : b'.sequence = b.sequence := by
  induction rows generalizing b with
  | nil =>
    cases written
    rfl
  | cons r rows ih =>
    unfold Execution.assign at written
    split at written
    · rename_i next first
      exact (ih written).trans (Rows.sequence_putCell first)
    · cases written

theorem assign {column value : String} {filter : Filter}
    (written : Execution.assign column value b (Rows.matching b filter) = .ok b') :
    AddsNoRow b b' where
  sequence := sequence_assign written
  rows := by
    rintro id ⟨k, rfl, raw, found⟩
    rw [Rows.get?_assigned written] at found
    split_ifs at found with set
    · have filled := (Rows.mem_map_id_matching.mp set.1).1
      exact (Rows.cellsOf_ne_nil_iff.mp filled).2
    · exact ⟨k, rfl, raw, found⟩

theorem delete (b : Bucket) (filter : Filter) :
    AddsNoRow b ((Rows.matching b filter).foldl Rows.deleteRow b) where
  sequence := by rw [Rows.foldl_deleteRow, Rows.sequence_foldl_delete]
  rows := by
    rintro id ⟨k, rfl, raw, found⟩
    rw [Rows.get?_deleted] at found
    split_ifs at found
    exact ⟨k, rfl, raw, found⟩

end AddsNoRow

theorem Built.of_hasRow {b : Bucket} {columns : List String} (built : Built b columns) {id : Nat}
    (there : b.HasRow id) : 0 < id ∧ (id : Int) ≤ b.sequence := by
  obtain ⟨k, rfl, raw, found⟩ := there
  exact ⟨k.positive, (built.fits _ _ found).le_of_cell⟩

namespace Rows

variable {b b' : Bucket} {id : Nat} {cells : Cells}

theorem sequence_putCells (written : putCells id b cells = .ok b') : b'.sequence = b.sequence := by
  induction cells generalizing b with
  | nil =>
    cases written
    rfl
  | cons c cells ih =>
    unfold putCells at written
    split at written
    · rename_i next first
      exact (ih written).trans (sequence_putCell first)
    · cases written

theorem get?_putCells (written : putCells id b cells = .ok b') (distinct : (cells.map (·.1)).Nodup)
    (key : Bytes) : (∀ k : CellKey, k.row = id → k.toBytes = key →
      b'.get? key = ((cells.lookup k.column).map encode).or (b.get? key)) ∧
    ((∀ k : CellKey, k.row = id → k.toBytes ≠ key) → b'.get? key = b.get? key) := by
  induction cells generalizing b with
  | nil =>
    cases written
    exact ⟨fun _ _ _ => rfl, fun _ => rfl⟩
  | cons c cells ih =>
    obtain ⟨column, value⟩ := c
    obtain ⟨new, distinct⟩ := List.nodup_cons.mp distinct
    rw [putCells, putCell] at written
    cases made : CellKey.make id column with
    | error fault => simp [made] at written
    | ok j =>
      obtain ⟨row, named⟩ := CellKey.make_inv made
      simp only [made] at written
      obtain ⟨cell, other⟩ := ih written distinct
      constructor
      · intro k here stored
        rw [cell k here stored]
        by_cases same : j = k
        · subst same
          have none : cells.lookup j.column = none := by
            rw [List.lookup_eq_none_iff]
            rintro ⟨name, text⟩ member
            rw [bne_iff_ne, named]
            rintro rfl
            exact new (List.mem_map.mpr ⟨_, member, rfl⟩)
          rw [none, ← stored, Bucket.get?_put_self, ← named, List.lookup_cons_self]
          rfl
        · have apart : k.column ≠ column := fun columns =>
            same (CellKey.ext (row.trans here.symm) (named.trans columns.symm))
          have differs : j.toBytes ≠ key := fun bytes =>
            same (CellKey.toBytes_injective (bytes.trans stored.symm))
          rw [Bucket.get?_put_of_ne _ _ differs, List.lookup_cons, beq_eq_false_iff_ne.mpr apart]
      · intro elsewhere
        rw [other elsewhere, Bucket.get?_put_of_ne _ _ (elsewhere j row)]

end Rows

/-- The row of an insertion is new, because its id has not been drawn before. -/
theorem AddsRow.putCells {b b' : Bucket} {columns : List String} {cells : Cells} {id : Nat}
    (built : Built b columns) (drawn : (id : Int) = b.sequence + 1)
    (distinct : (cells.map (·.1)).Nodup)
    (written : Rows.putCells id { b with sequence := id } cells = .ok b') :
    AddsRow b id cells b' := by
  have new : ¬ b.HasRow id := fun there => by
    have bound := (built.of_hasRow there).2
    omega
  refine ⟨new, fun k here => ?_, fun key elsewhere => ?_⟩
  · have found := (Rows.get?_putCells written distinct k.toBytes).1 k here rfl
    have none : b.get? k.toBytes = none :=
      Option.eq_none_iff_forall_ne_some.mpr fun raw old => new ⟨k, here, raw, old⟩
    rw [found]
    show ((cells.lookup k.column).map encode).or (b.get? k.toBytes) = _
    rw [none, Option.or_none]
  · exact (Rows.get?_putCells written distinct key).2 elsewhere

end Cellstore
