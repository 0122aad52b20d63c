import Cellstore.Proofs.Json
import Cellstore.Proofs.Relational.Model
import Cellstore.Proofs.Table.Rows
import Cellstore.Table.Schema

/-! Tables as they are kept in buckets.
A bucket encodes a table when its counter, its order record, its definitions and its cells
say what the table says. Reading the columns and rows of such a bucket gives those of the
table, and every change of the table has its counterpart on the bucket. -/
namespace Cellstore.Relational
open Text.Utf8

structure Encodes (b : Bucket) (t : Table) : Prop where
  counter : b.sequence = t.counter
  /-- There is an order record as soon as there are columns. -/
  order : b.get? SchemaKey.order = some (encode (Json.writeStrings (t.columns.map Json.units))) ∨
    t.columns = [] ∧ b.get? SchemaKey.order = none
  named : ∀ name ∈ t.columns, IsColumnName name
  declared : ∀ name ∈ t.columns, ∃ definition,
    b.get? (SchemaKey.ofColumn name) = some (encode definition)
  definitions : ∀ key raw, b.get? key = some raw → SchemaKey.columnMark.isPrefixOf key = true →
    ∃ name ∈ t.columns, ∃ definition, key = SchemaKey.ofColumn name ∧ raw = encode definition
  cells : ∀ k : CellKey,
    b.get? k.toBytes = ((t.rows.get? k.row).bind (·.get? k.column)).map encode
  counted : ∀ id row, t.rows.get? id = some row → 0 < id ∧ id ≤ t.counter
  inhabited : ∀ id row, t.rows.get? id = some row → ∃ column value, row.get? column = some value
  fields : ∀ id row, t.rows.get? id = some row → ∀ column value, row.get? column = some value →
    IsColumnName column

theorem encodes_empty : Encodes .empty .empty where
  counter := rfl
  order := Or.inr ⟨rfl, rfl⟩
  named := by simp [Table.empty]
  declared := by simp [Table.empty]
  definitions := by simp [Bucket.empty, Bucket.get?]
  cells := by simp [Bucket.empty, Bucket.get?, Table.empty]
  counted := by simp [Table.empty]
  inhabited := by simp [Table.empty]
  fields := by simp [Table.empty]

/-- A row that was read has the values of a record. -/
def Agrees (r : Row) (e : Nat × Record) : Prop :=
  r.id = e.1 ∧ ∀ column, r.cells.lookup column = e.2.get? column

namespace Encodes

variable {b : Bucket} {t : Table}

theorem readable (h : Encodes b t) (short : CellKey.IsReadable t.counter) {id : Nat} {row : Record}
    (found : t.rows.get? id = some row) : CellKey.IsReadable id :=
  Nat.lt_of_le_of_lt (h.counted id row found).2 short

theorem lookup_eq (h : Encodes b t) (short : CellKey.IsReadable t.counter) {id : Nat}
    {row : Record} (found : t.rows.get? id = some row) (column : String) :
    (Rows.cellsOf b id).lookup column = row.get? column := by
  by_cases named : IsColumnName column
  · let k : CellKey := ⟨id, column, (h.counted id row found).1, named⟩
    have stored := h.cells k
    have read := Rows.lookup_cellsOf b k (h.readable short found)
    rw [stored] at read
    rw [read]
    simp only [k, found, Option.bind_some, Option.map_map]
    cases row.get? column <;> simp
  · have missing : row.get? column = none := by
      cases value : row.get? column with
      | none => rfl
      | some v => exact absurd (h.fields id row found column v value) named
    rw [missing]
    apply Rows.lookup_cellsOf_eq_none
    rintro k rfl rfl
    exact absurd k.isColumnName named

theorem cellsOf_ne_nil_iff (h : Encodes b t) (short : CellKey.IsReadable t.counter) (id : Nat) :
    Rows.cellsOf b id ≠ [] ↔ ∃ row, t.rows.get? id = some row := by
  constructor
  · intro nonempty
    obtain ⟨⟨column, value⟩, member⟩ := List.exists_mem_of_ne_nil _ nonempty
    obtain ⟨_, k, rfl, _, raw, found, _⟩ := Rows.mem_cellsOf_iff.mp member
    rw [h.cells k] at found
    cases row : t.rows.get? k.row with
    | none => simp [row] at found
    | some record => exact ⟨record, rfl⟩
  · rintro ⟨row, found⟩ empty
    obtain ⟨column, value, cell⟩ := h.inhabited id row found
    have read := h.lookup_eq short found column
    rw [empty, cell] at read
    simp at read

theorem scan_agrees (h : Encodes b t) (short : CellKey.IsReadable t.counter) :
    List.Forall₂ Agrees (Rows.scan b) t.rows.entries := by
  have members : ∀ id, id ∈ (Rows.scan b).map (·.id) ↔ id ∈ t.rows.keys := by
    intro id
    rw [SortedMap.mem_keys_iff, ← h.cellsOf_ne_nil_iff short id, List.mem_map]
    constructor
    · rintro ⟨r, member, rfl⟩
      exact (Rows.mem_scan_iff.mp member).2
    · intro nonempty
      exact ⟨⟨id, Rows.cellsOf b id⟩, Rows.mem_scan_iff.mpr ⟨rfl, nonempty⟩, rfl⟩
  have keys : (Rows.scan b).map (·.id) = t.rows.entries.map (·.1) :=
    SortedMap.eq_of_pairwise_lt ((Rows.scan_pairwise b).imp fun h => decide_eq_true h)
      t.rows.keys_pairwise members
  refine Rows.forall₂_of_map_eq keys ?_
  rintro r inScan ⟨id, row⟩ inRows rfl
  refine ⟨rfl, fun column => ?_⟩
  rw [(Rows.mem_scan_iff.mp inScan).1]
  exact h.lookup_eq short (SortedMap.mem_entries_iff.mp inRows) column

end Encodes

theorem Agrees.holds_eq {r : Row} {e : Nat × Record} (h : Agrees r e) (filter : Filter) :
    filter.holds r.cells = passes filter e.2 := by
  unfold Filter.holds passes Predicate.holds
  simp only [h.2]

theorem Agrees.project_eq {r : Row} {e : Nat × Record} (h : Agrees r e) (columns : List String) :
    Row.project columns r.cells = columns.map fun c => (e.2.get? c).getD "" := by
  unfold Row.project
  simp only [h.2]

theorem Encodes.matching_agrees {b : Bucket} {t : Table} (h : Encodes b t)
    (short : CellKey.IsReadable t.counter) (filter : Filter) :
    List.Forall₂ Agrees (Rows.matching b filter) (t.matching filter) := by
  refine List.rel_filter ?_ (h.scan_agrees short)
  intro r e agrees
  show filter.holds r.cells = true ↔ passes filter e.2 = true
  rw [agrees.holds_eq filter]

end Cellstore.Relational
