import Cellstore.Execution
import Cellstore.Proofs.Table.Rows
import Cellstore.Proofs.Table.Schema

/-! The layout of a table.
Every entry of its bucket is a definition, the order record or a cell of a row that was counted, and
the record names the defined columns. Each change of a table keeps this, without any bound on how
far the counter has come. -/
namespace Cellstore
open Text.Utf8 (encode)

/-- The entries that belong in a table whose counter stands at `counter`. -/
inductive Fits (counter : Int) : Bytes → Bytes → Prop where
  | definition {name definition : String} (named : IsColumnName name) :
      Fits counter (SchemaKey.ofColumn name) (encode definition)
  | order (raw : Bytes) : Fits counter SchemaKey.order raw
  | cell {k : CellKey} {value : String} (given : (k.row : Int) ≤ counter) :
      Fits counter k.toBytes (encode value)

theorem Fits.mono {n m : Int} {key raw : Bytes} (h : Fits n key raw) (le : n ≤ m) :
    Fits m key raw := by
  cases h with
  | definition named => exact .definition named
  | order => exact .order raw
  | cell given => exact .cell (Int.le_trans given le)

theorem Fits.le_of_cell {n : Int} {k : CellKey} {raw : Bytes} (h : Fits n k.toBytes raw) :
    (k.row : Int) ≤ n := by
  generalize shape : k.toBytes = key at h
  cases h with
  | definition => exact absurd shape (k.toBytes_ne_ofColumn _)
  | order => exact absurd shape k.toBytes_ne_order
  | cell given => exact CellKey.toBytes_injective shape ▸ given

/-- A bucket that was built by commands, with the columns that it declares. A new one declares
nothing yet. -/
structure Built (b : Bucket) (columns : List String) : Prop where
  counted : 0 ≤ b.sequence
  fits : ∀ key raw, b.get? key = some raw → Fits b.sequence key raw
  declares : Schema.Declares b columns

theorem built_empty : Built .empty [] where
  counted := Int.le_refl 0
  fits := by simp [Bucket.empty, Bucket.get?]
  declares := Schema.declares_empty

namespace Built

variable {b : Bucket} {columns : List String}

theorem put_cell (h : Built b columns) (k : CellKey) (value : String)
    (given : (k.row : Int) ≤ b.sequence) : Built (b.put k.toBytes (encode value)) columns where
  counted := h.counted
  fits := by
    intro key raw found
    by_cases here : k.toBytes = key
    · subst here
      rw [Bucket.get?_put_self] at found
      cases found
      exact .cell given
    · rw [Bucket.get?_put_of_ne _ _ here] at found
      exact h.fits key raw found
  declares := h.declares.put_cell k _

theorem defined (h : Built b columns) (c : ColumnDefinition) :
    Built (Schema.defined b columns c) (Schema.extended columns c.name) where
  counted := h.counted
  fits := by
    intro key raw found
    by_cases order : key = SchemaKey.order
    · exact order ▸ .order raw
    by_cases column : key = SchemaKey.ofColumn c.name
    · subst column
      rw [Schema.get?_defined_column] at found
      cases found
      exact .definition c.isColumnName
    · rw [Schema.get?_defined_of_ne _ _ _ column order] at found
      exact h.fits key raw found
  declares := h.declares.defined c

theorem count (h : Built b columns) {n : Int} (le : b.sequence ≤ n) :
    Built { b with sequence := n } columns where
  counted := Int.le_trans h.counted le
  fits := fun key raw found => (h.fits key raw found).mono le
  declares := h.declares.of_cells fun _ _ => rfl

theorem delete (h : Built b columns) (filter : Filter) :
    Built ((Rows.matching b filter).foldl Rows.deleteRow b) columns := by
  have keys := @Rows.mem_keys_matching_iff b filter
  rw [Rows.foldl_deleteRow]
  generalize (Rows.matching b filter).flatMap Row.keys = removed at keys
  refine ⟨?_, fun key raw found => ?_, h.declares.of_cells fun key other => ?_⟩
  · rw [Rows.sequence_foldl_delete]
    exact h.counted
  · rw [Rows.get?_foldl_delete] at found
    split_ifs at found
    rw [Rows.sequence_foldl_delete]
    exact h.fits key raw found
  · rw [Rows.get?_foldl_delete, if_neg]
    intro inside
    obtain ⟨k, same, _⟩ := keys.mp inside
    exact other k same.symm

theorem given (h : Built b columns) {r : Row} (inside : r ∈ Rows.scan b) :
    0 < r.id ∧ (r.id : Int) ≤ b.sequence := by
  obtain ⟨-, filled⟩ := Rows.mem_scan_iff.mp inside
  obtain ⟨⟨column, value⟩, member⟩ := List.exists_mem_of_ne_nil _ filled
  obtain ⟨_, k, row, -, raw, found, -⟩ := Rows.mem_cellsOf_iff.mp member
  exact row ▸ ⟨k.positive, (h.fits _ _ found).le_of_cell⟩

theorem putCells (h : Built b columns) {id : Nat} (positive : 0 < id)
    (given : (id : Int) ≤ b.sequence) {cells : Cells} (named : ∀ c ∈ cells, IsColumnName c.1) :
    ∃ b', Rows.putCells id b cells = .ok b' ∧ Built b' columns := by
  induction cells generalizing b with
  | nil => exact ⟨b, rfl, h⟩
  | cons c cells ih =>
    obtain ⟨column, value⟩ := c
    let k : CellKey := ⟨id, column, positive, named _ (List.mem_cons_self ..)⟩
    have made : CellKey.make id column = .ok k := k.make_eq
    obtain ⟨b', written, built⟩ :=
      ih (h.put_cell k value given) given fun c hc => named c (List.mem_cons_of_mem _ hc)
    refine ⟨b', ?_, built⟩
    rw [Rows.putCells, Rows.putCell, made]
    exact written

theorem assign (h : Built b columns) {column : String} (named : IsColumnName column) (value : String)
    {rows : List Row} (given : ∀ r ∈ rows, 0 < r.id ∧ (r.id : Int) ≤ b.sequence) :
    ∃ b', Execution.assign column value b rows = .ok b' ∧ Built b' columns := by
  induction rows generalizing b with
  | nil => exact ⟨b, rfl, h⟩
  | cons r rows ih =>
    obtain ⟨positive, inside⟩ := given r (List.mem_cons_self ..)
    let k : CellKey := ⟨r.id, column, positive, named⟩
    have made : CellKey.make r.id column = .ok k := k.make_eq
    obtain ⟨b', written, built⟩ :=
      ih (h.put_cell k value inside) fun s hs => given s (List.mem_cons_of_mem _ hs)
    refine ⟨b', ?_, built⟩
    rw [Execution.assign, Rows.putCell, made]
    exact written

theorem declare [Json.Room] (h : Built b columns) (definitions : List ColumnDefinition) :
    ∃ b', Execution.declare b definitions = .ok b' ∧
      Built b' ((definitions.map (·.name)).foldl Schema.extended columns) := by
  induction definitions generalizing b columns with
  | nil => exact ⟨b, rfl, h⟩
  | cons c definitions ih =>
    obtain ⟨b', declared, built⟩ := ih (h.defined c)
    refine ⟨b', ?_, built⟩
    rw [Execution.declare, h.declares.define_eq c]
    exact declared

end Built
end Cellstore
