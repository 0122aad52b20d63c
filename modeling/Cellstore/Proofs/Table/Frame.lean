import Cellstore.Proofs.Table.Damage
import Cellstore.Proofs.Table.RowIds
import Cellstore.Proofs.Table.Scan

/-! What changes of cells and changes of columns leave alone.
A bucket holds both under keys that are made of names, beside keys that belong to neither. A change
of cells writes and removes keys of cells only, so the columns stay. A declaration writes definitions
and the order record only, so the rows stay, and the counter too. -/
namespace Cellstore

variable {b b' b'' : Bucket}

/-- The columns are as they were, and so is every entry that is no cell. -/
structure KeepsSchema [Json.Room] (b b' : Bucket) : Prop where
  schema : ∀ key, SchemaKey.isSchema key = true → b'.get? key = b.get? key
  foreign : ∀ key, (∀ k : CellKey, k.toBytes ≠ key) → b'.get? key = b.get? key
  columns : Schema.columns b' = Schema.columns b

/-- The rows are as they were, and so is every entry that neither defines a column nor orders them.
The counter goes on from where it was. -/
structure KeepsRows (b b' : Bucket) : Prop where
  entries : ∀ key, SchemaKey.columnMark.isPrefixOf key = false → key ≠ SchemaKey.order →
    b'.get? key = b.get? key
  sequence : b'.sequence = b.sequence
  nextRow : ∀ counting, (b'.nextSequence counting).1 = (b.nextSequence counting).1
  scan : Rows.scan b' = Rows.scan b

/-! Changes of cells. -/

theorem Schema.columns_congr [Json.Room]
    (same : ∀ key, SchemaKey.isSchema key = true → b'.get? key = b.get? key) :
    columns b' = columns b := by
  have items : b'.items SchemaKey.columnMark = b.items SchemaKey.columnMark :=
    items_congr fun key mark => same key (by rw [SchemaKey.isSchema, mark, Bool.true_or])
  simp only [columns, definitions, orderRecord, items, same _ SchemaKey.isSchema_order]

namespace KeepsSchema

theorem of_foreign [Json.Room]
    (foreign : ∀ key, (∀ k : CellKey, k.toBytes ≠ key) → b'.get? key = b.get? key) :
    KeepsSchema b b' := by
  have schema : ∀ key, SchemaKey.isSchema key = true → b'.get? key = b.get? key := by
    intro key isSchema
    apply foreign
    rintro k rfl
    rw [k.isSchema_toBytes] at isSchema
    cases isSchema
  exact ⟨schema, foreign, Schema.columns_congr schema⟩

theorem refl [Json.Room] (b : Bucket) : KeepsSchema b b := ⟨fun _ _ => rfl, fun _ _ => rfl, rfl⟩

theorem trans [Json.Room] (first : KeepsSchema b b') (second : KeepsSchema b' b'') :
    KeepsSchema b b'' where
  schema key here := (second.schema key here).trans (first.schema key here)
  foreign key here := (second.foreign key here).trans (first.foreign key here)
  columns := second.columns.trans first.columns

theorem nextSequence [Json.Room] (counting : Counting) (b : Bucket) :
    KeepsSchema b (b.nextSequence counting).2 :=
  of_foreign fun _ _ => rfl

theorem putCell [Json.Room] {row : Int} {column value : String}
    (written : Rows.putCell b row column value = .ok b') : KeepsSchema b b' := by
  unfold Rows.putCell at written
  split at written
  · rename_i k made
    cases written
    exact of_foreign fun key other => Bucket.get?_put_of_ne b _ (other k)
  · cases written

theorem putCells [Json.Room] {row : Int} {cells : Cells}
    (written : Rows.putCells row b cells = .ok b') : KeepsSchema b b' := by
  induction cells generalizing b with
  | nil =>
    cases written
    exact refl _
  | cons c cells ih =>
    unfold Rows.putCells at written
    split at written
    · rename_i next first
      exact (putCell first).trans (ih written)
    · cases written

theorem assign [Json.Room] {column value : String} {rows : List Row}
    (written : Execution.assign column value b rows = .ok b') : KeepsSchema b b' := by
  induction rows generalizing b with
  | nil =>
    cases written
    exact refl _
  | cons r rows ih =>
    unfold Execution.assign at written
    split at written
    · rename_i next first
      exact (putCell first).trans (ih written)
    · cases written

theorem delete [Json.Room] (b : Bucket) (filter : Filter) :
    KeepsSchema b ((Rows.matching b filter).foldl Rows.deleteRow b) := by
  refine of_foreign fun key other => ?_
  rw [Rows.foldl_deleteRow, Rows.get?_foldl_delete, if_neg]
  intro listed
  obtain ⟨k, same, -⟩ := Rows.mem_keys_matching_iff.mp listed
  exact other k same.symm

end KeepsSchema

/-! Declarations. -/

namespace KeepsRows

theorem of_entries (entries : ∀ key, SchemaKey.columnMark.isPrefixOf key = false →
      key ≠ SchemaKey.order → b'.get? key = b.get? key) (sequence : b'.sequence = b.sequence) :
    KeepsRows b b' where
  entries := entries
  sequence := sequence
  nextRow counting := congrArg counting.next sequence
  scan := by
    refine Rows.scan_congr fun id column raw => and_congr_right fun cell => ?_
    have outside := CellKey.isSchema_toBytes cell.toKey
    rw [SchemaKey.isSchema, Bool.or_eq_false_iff] at outside
    rw [← cell.toBytes_toKey, entries _ outside.1 cell.toKey.toBytes_ne_order]

theorem refl (b : Bucket) : KeepsRows b b := ⟨fun _ _ _ => rfl, rfl, fun _ => rfl, rfl⟩

theorem trans (first : KeepsRows b b') (second : KeepsRows b' b'') : KeepsRows b b'' where
  entries key mark order := (second.entries key mark order).trans (first.entries key mark order)
  sequence := second.sequence.trans first.sequence
  nextRow counting := (second.nextRow counting).trans (first.nextRow counting)
  scan := second.scan.trans first.scan

theorem define [Json.Room] {c : ColumnDefinition} (defined : Schema.define b [c] = .ok b') :
    KeepsRows b b' := by
  unfold Schema.define at defined
  split at defined
  · cases defined
  · cases defined
    refine of_entries (fun key mark order => ?_) rfl
    rw [Bucket.get?_put_of_ne _ _ order.symm]
    refine Bucket.get?_put_of_ne b _ ?_
    rintro rfl
    rw [SchemaKey.columnMark_isPrefixOf_ofColumn] at mark
    cases mark

theorem declare [Json.Room] {columns : List ColumnDefinition}
    (declared : Execution.declare b columns = .ok b') : KeepsRows b b' := by
  induction columns generalizing b with
  | nil =>
    cases declared
    exact refl _
  | cons c columns ih =>
    unfold Execution.declare at declared
    split at declared
    · rename_i next defined
      exact (define defined).trans (ih declared)
    · cases declared

end KeepsRows
end Cellstore
