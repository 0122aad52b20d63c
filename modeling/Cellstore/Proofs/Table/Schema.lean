import Cellstore.Proofs.Table.Listing

/-! Buckets that declare columns.
The order record and the definitions name the same columns. Listing the columns of such a bucket
gives them in the recorded order, and one definition more adds its name to the end. -/
namespace Cellstore.Schema
open Text.Utf8 (encode)

/-- A bucket that declares some columns in this order. -/
structure Declares (b : Bucket) (columns : List String) : Prop where
  distinct : columns.Nodup
  /-- There is an order record as soon as there are columns. -/
  order : b.get? SchemaKey.order = some (encode (Json.writeStrings (columns.map Json.units))) ∨
    columns = [] ∧ b.get? SchemaKey.order = none
  named : ∀ name ∈ columns, IsColumnName name
  declared : ∀ name ∈ columns, ∃ definition,
    b.get? (SchemaKey.ofColumn name) = some (encode definition)
  definitions : ∀ key raw, b.get? key = some raw → SchemaKey.columnMark.isPrefixOf key = true →
    ∃ name ∈ columns, ∃ definition, key = SchemaKey.ofColumn name ∧ raw = encode definition

/-- The bucket with one more definition, and with the record that this takes. -/
def defined (b : Bucket) (columns : List String) (c : ColumnDefinition) : Bucket :=
  (b.put (SchemaKey.ofColumn c.name) (encode c.definition)).put SchemaKey.order
    (encode (Json.writeStrings ((extended columns c.name).map Json.units)))

section
variable (b : Bucket) (columns : List String) (c : ColumnDefinition)

theorem get?_defined_of_ne {key : Bytes} (column : key ≠ SchemaKey.ofColumn c.name)
    (order : key ≠ SchemaKey.order) : (defined b columns c).get? key = b.get? key := by
  rw [defined, Bucket.get?_put_of_ne _ _ order.symm, Bucket.get?_put_of_ne _ _ column.symm]

theorem get?_defined_column :
    (defined b columns c).get? (SchemaKey.ofColumn c.name) = some (encode c.definition) := by
  rw [defined, Bucket.get?_put_of_ne _ _ (SchemaKey.ofColumn_ne_order _).symm,
    Bucket.get?_put_self]

theorem get?_defined_order : (defined b columns c).get? SchemaKey.order =
    some (encode (Json.writeStrings ((extended columns c.name).map Json.units))) :=
  Bucket.get?_put_self ..

end

theorem declares_empty : Declares .empty [] where
  distinct := .nil
  order := Or.inr ⟨rfl, rfl⟩
  named := by simp
  declared := by simp
  definitions := by simp [Bucket.empty, Bucket.get?]

namespace Declares

variable {b : Bucket} {columns : List String}

theorem items_columnMark (h : Declares b columns) {e : Bytes × Bytes}
    (member : e ∈ b.items SchemaKey.columnMark) : ∃ name ∈ columns, ∃ definition,
      e = (SchemaKey.ofColumn name, encode definition) := by
  obtain ⟨inside, marked⟩ := List.mem_filter.mp member
  obtain ⟨name, known, definition, key, raw⟩ :=
    h.definitions e.1 e.2 (SortedMap.mem_entries_iff.mp inside) marked
  exact ⟨name, known, definition, Prod.ext key raw⟩

theorem exists_lists [Json.Room] (h : Declares b columns) :
    ∃ cols, Lists b cols ∧ cols.map (·.name) = columns := by
  let cols := columns.attach.map fun n =>
    (⟨n.1, (h.declared n.1 n.2).choose, h.named n.1 n.2⟩ : ColumnDefinition)
  have names : cols.map (·.name) = columns := by
    rw [List.map_map]
    exact List.attach_map_subtype_val columns
  have found : ∀ c ∈ cols, b.get? (SchemaKey.ofColumn c.name) = some (encode c.definition) := by
    intro c inside
    obtain ⟨n, -, rfl⟩ := List.mem_map.mp inside
    exact (h.declared n.1 n.2).choose_spec
  have stores : Stores b cols := by
    intro e
    constructor
    · intro member
      obtain ⟨name, known, definition, rfl⟩ := h.items_columnMark member
      rw [← names] at known
      obtain ⟨c, inside, rfl⟩ := List.mem_map.mp known
      have stored := (mem_items_iff.mp member).1.symm.trans (found c inside)
      exact ⟨c, inside, Prod.ext rfl (Option.some.inj stored)⟩
    · rintro ⟨c, inside, rfl⟩
      exact mem_items_iff.mpr ⟨found c inside, SchemaKey.columnMark_isPrefixOf_ofColumn _⟩
  refine ⟨cols, ⟨names ▸ h.distinct, stores, ?_⟩, names⟩
  rcases h.order with recorded | ⟨none, absent⟩
  · left
    rw [orderRecord, recorded, names]
    exact orderOf_writeStrings _
  · have empty : cols = [] := List.map_eq_nil_iff.mp (names.trans none)
    refine .inr ⟨.inl (by rw [orderRecord, absent]), ?_⟩
    rw [empty] at stores ⊢
    refine List.eq_nil_iff_forall_not_mem.mpr fun e member => ?_
    obtain ⟨c, inside, -⟩ := (stores e).mp member
    cases inside

theorem currentOrder_eq [Json.Room] (h : Declares b columns) :
    currentOrder b = .ok (columns.map Json.units) := by
  obtain ⟨cols, lists, rfl⟩ := h.exists_lists
  exact lists.currentOrder_eq

theorem columnNames_eq [Json.Room] (h : Declares b columns) : columnNames b = .ok columns := by
  obtain ⟨cols, lists, rfl⟩ := h.exists_lists
  rw [columnNames, lists.columns_eq]
  rfl

theorem define_eq [Json.Room] (h : Declares b columns) (c : ColumnDefinition) :
    define b [c] = .ok (defined b columns c) := by
  unfold define
  rw [h.currentOrder_eq]
  simp only [List.foldl_cons, List.foldl_nil, defineNext_eq]
  rfl

theorem defined (h : Declares b columns) (c : ColumnDefinition) :
    Declares (defined b columns c) (extended columns c.name) where
  distinct := nodup_extended h.distinct c.name
  order := Or.inl (get?_defined_order b columns c)
  named := by
    intro name member
    rcases mem_extended.mp member with old | rfl
    · exact h.named name old
    · exact c.isColumnName
  declared := by
    intro name member
    by_cases here : name = c.name
    · subst here
      exact ⟨c.definition, get?_defined_column b columns c⟩
    · have old : name ∈ columns := (mem_extended.mp member).resolve_right here
      obtain ⟨definition, found⟩ := h.declared name old
      refine ⟨definition, ?_⟩
      rw [get?_defined_of_ne b columns c (fun same => here (SchemaKey.ofColumn_injective same))
        (SchemaKey.ofColumn_ne_order name), found]
  definitions := by
    intro key raw found marked
    have order : key ≠ SchemaKey.order := by
      rintro rfl
      rw [SchemaKey.columnMark_isPrefixOf_order] at marked
      cases marked
    by_cases here : key = SchemaKey.ofColumn c.name
    · subst here
      rw [get?_defined_column] at found
      exact ⟨c.name, mem_extended.mpr (Or.inr rfl), c.definition, rfl,
        (Option.some.inj found).symm⟩
    · rw [get?_defined_of_ne b columns c here order] at found
      obtain ⟨name, old, definition, same⟩ := h.definitions key raw found marked
      exact ⟨name, mem_extended.mpr (Or.inl old), definition, same⟩

theorem of_cells (h : Declares b columns) {b' : Bucket}
    (kept : ∀ key, (∀ k : CellKey, k.toBytes ≠ key) → b'.get? key = b.get? key) :
    Declares b' columns where
  distinct := h.distinct
  order := by
    rw [kept _ fun k => k.toBytes_ne_order]
    exact h.order
  named := h.named
  declared := by
    intro name known
    rw [kept _ fun k => k.toBytes_ne_ofColumn name]
    exact h.declared name known
  definitions := by
    intro key raw found marked
    rw [kept] at found
    · exact h.definitions key raw found marked
    · rintro k rfl
      have cell := CellKey.isSchema_toBytes k
      rw [SchemaKey.isSchema, marked, Bool.true_or] at cell
      cases cell

theorem put_cell (h : Declares b columns) (k : CellKey) (raw : Bytes) :
    Declares (b.put k.toBytes raw) columns :=
  h.of_cells fun _ other => Bucket.get?_put_of_ne b raw (other k)

end Declares

end Cellstore.Schema
