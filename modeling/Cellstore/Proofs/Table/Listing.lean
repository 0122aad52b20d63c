import Cellstore.Proofs.Table.Definitions
import Cellstore.Proofs.Table.Rows

/-! Which columns a bucket lists, with their definitions and in which order.
A bucket lists some columns if it stores their definitions and no other, and its order record names
them in this order; or if there is no readable record and the keys have this order. A definition
replaces the one of the same name at its place, or it goes to the end. -/
namespace Cellstore.Schema
open Text.Utf8 (encode decode)

def entry (c : ColumnDefinition) : Bytes × Bytes := (SchemaKey.ofColumn c.name, encode c.definition)

/-- There is no order record, or it is passed over. -/
def IsUnordered [Json.Room] (b : Bucket) : Prop :=
  orderRecord b = .absent ∨ orderRecord b = .unreadable

/-- A bucket that stores the definitions of these columns and no other. -/
def Stores (b : Bucket) (cols : List ColumnDefinition) : Prop :=
  ∀ e, e ∈ b.items SchemaKey.columnMark ↔ ∃ c ∈ cols, e = entry c

/-- A bucket that lists these columns in this order. -/
structure Lists [Json.Room] (b : Bucket) (cols : List ColumnDefinition) : Prop where
  distinct : (cols.map (·.name)).Nodup
  stores : Stores b cols
  order : orderRecord b = .names ((cols.map (·.name)).map Json.units) ∨
    IsUnordered b ∧ b.items SchemaKey.columnMark = cols.map entry

/-- One more definition: it takes the place of the one with its name, or it goes to the end. -/
def redefined (cols : List ColumnDefinition) (c : ColumnDefinition) : List ColumnDefinition :=
  if c.name ∈ cols.map (·.name) then cols.map fun d => if d.name = c.name then c else d
  else cols ++ [c]

variable {b b' : Bucket} {cols : List ColumnDefinition} {c d : ColumnDefinition}

theorem map_name_redefined (cols : List ColumnDefinition) (c : ColumnDefinition) :
    (redefined cols c).map (·.name) = extended (cols.map (·.name)) c.name := by
  unfold redefined extended
  split_ifs with known
  · rw [List.map_map]
    refine List.map_congr_left fun d _ => ?_
    rw [Function.comp_apply]
    split_ifs with same
    · exact same.symm
    · rfl
  · rw [List.map_append, List.map_singleton]

theorem mem_redefined : d ∈ redefined cols c ↔ d = c ∨ d ∈ cols ∧ d.name ≠ c.name := by
  unfold redefined
  split_ifs with known
  · obtain ⟨old, member, same⟩ := List.mem_map.mp known
    rw [List.mem_map]
    constructor
    · rintro ⟨a, inside, rfl⟩
      split_ifs with here
      · exact .inl rfl
      · exact .inr ⟨inside, here⟩
    · rintro (rfl | ⟨inside, other⟩)
      · exact ⟨old, member, if_pos same⟩
      · exact ⟨d, inside, if_neg other⟩
  · rw [List.mem_append, List.mem_singleton, or_comm]
    refine or_congr_right (iff_self_and.mpr fun inside same => known ?_)
    exact same ▸ List.mem_map_of_mem inside

/-! Listing. -/

theorem entry_injective : Function.Injective entry := by
  intro c d same
  obtain ⟨name, definition⟩ := Prod.mk.inj (stored_injective same)
  cases c
  cases d
  cases name
  cases definition
  rfl

theorem Stores.mem_definitions (h : Stores b cols) {stored : List (String × String)}
    (read : definitions b = .ok stored) {e : String × String} :
    e ∈ stored ↔ ∃ c ∈ cols, e = (c.name, c.definition) := by
  have listed : b.get? (SchemaKey.ofColumn e.1) = some (encode e.2) ↔
      ∃ c ∈ cols, (SchemaKey.ofColumn e.1, encode e.2) = entry c := by
    rw [← h, mem_items_iff]
    exact (and_iff_left (SchemaKey.columnMark_isPrefixOf_ofColumn _)).symm
  rw [mem_stored_iff read, listed]
  refine exists_congr fun c => and_congr_right fun _ => ?_
  exact @Function.Injective.eq_iff _ _ _ stored_injective e (c.name, c.definition)

private theorem mapM_makeColumn_eq (cols : List ColumnDefinition) :
    (cols.map fun c => (c.name, c.definition)).mapM makeColumn = .ok cols := by
  rw [mapM_eq_ok_iff, List.forall₂_map_left_iff, List.forall₂_same]
  exact fun c _ => makeColumn_eq_ok_iff.mpr ⟨rfl, rfl⟩

private theorem arranged_eq {stored : List (String × String)}
    (distinct : (cols.map (·.name)).Nodup)
    (members : ∀ e, e ∈ stored ↔ ∃ c ∈ cols, e = (c.name, c.definition)) :
    arranged stored ((cols.map (·.name)).map Json.units) =
      cols.map fun c => (c.name, c.definition) := by
  rw [arranged, List.map_map, List.filterMap_map, ← List.filterMap_eq_map]
  refine List.filterMap_congr fun c inside => ?_
  rw [Function.comp_apply, Function.comp_apply, Function.comp_apply]
  refine find?_eq_some_of_unique ((members _).mpr ⟨c, inside, rfl⟩) (beq_self_eq_true _) ?_
  intro e member hit
  obtain ⟨d, known, rfl⟩ := (members e).mp member
  have same : d.name = c.name := Json.units_injective (beq_iff_eq.mp hit)
  rw [List.inj_on_of_nodup_map distinct known inside same]

namespace Lists

theorem columns_eq [Json.Room] (h : Lists b cols) : columns b = .ok cols := by
  unfold columns
  rcases h.order with recorded | ⟨unordered, items⟩
  · have written : ∀ e ∈ b.items SchemaKey.columnMark, ∃ name definition,
        e = (SchemaKey.ofColumn name, encode definition) := by
      intro e member
      obtain ⟨c, -, rfl⟩ := (h.stores e).mp member
      exact ⟨c.name, c.definition, rfl⟩
    obtain ⟨stored, read⟩ := exists_definitions_iff.mpr written
    rw [read, recorded]
    dsimp only
    rw [arranged_eq h.distinct fun e => h.stores.mem_definitions read, mapM_makeColumn_eq]
  · have read : definitions b = .ok (cols.map fun c => (c.name, c.definition)) := by
      rw [definitions_eq_ok_iff, items, List.map_map]
      rfl
    rw [read]
    rcases unordered with record | record <;> rw [record] <;> exact mapM_makeColumn_eq cols

theorem currentOrder_eq [Json.Room] (h : Lists b cols) :
    currentOrder b = .ok ((cols.map (·.name)).map Json.units) := by
  unfold currentOrder
  rcases h.order with recorded | ⟨unordered, items⟩
  · rw [recorded]
  · have names : namesByKey b = .ok (cols.map (·.name)) := by
      rw [namesByKey, items, mapM_eq_ok_iff, List.forall₂_map_left_iff, List.forall₂_map_right_iff,
        List.forall₂_same]
      intro c _
      exact (nameOf_eq_ok_iff (SchemaKey.columnMark_isPrefixOf_ofColumn _)).mpr rfl
    rcases unordered with record | record <;> rw [record, names] <;> rfl

end Lists

/-! Defining. -/

theorem Stores.put (h : Stores b cols) (c : ColumnDefinition) :
    Stores (b.put (SchemaKey.ofColumn c.name) (encode c.definition)) (redefined cols c) := by
  rintro ⟨key, raw⟩
  rw [mem_items_iff]
  simp only [mem_redefined]
  by_cases here : key = SchemaKey.ofColumn c.name
  · subst here
    rw [Bucket.get?_put_self, and_iff_left (SchemaKey.columnMark_isPrefixOf_ofColumn _)]
    constructor
    · intro same
      exact ⟨c, .inl rfl, Prod.ext rfl (Option.some.inj same).symm⟩
    · rintro ⟨d, rfl | ⟨-, other⟩, same⟩
      · exact congrArg some (Prod.mk.inj same).2.symm
      · exact absurd (SchemaKey.ofColumn_injective (Prod.mk.inj same).1).symm other
  · rw [Bucket.get?_put_of_ne _ _ fun same => here same.symm]
    have old := h (key, raw)
    rw [mem_items_iff] at old
    rw [old]
    constructor
    · rintro ⟨d, inside, same⟩
      refine ⟨d, .inr ⟨inside, fun named => here ?_⟩, same⟩
      exact named ▸ (Prod.mk.inj same).1
    · rintro ⟨d, rfl | ⟨inside, -⟩, same⟩
      · exact absurd (Prod.mk.inj same).1 here
      · exact ⟨d, inside, same⟩

theorem stores_foldl_defineNext (h : Stores b cols) (cs : List ColumnDefinition) : ∃ b',
    cs.foldl defineNext (b, (cols.map (·.name)).map Json.units) =
      (b', ((cs.foldl redefined cols).map (·.name)).map Json.units) ∧
    Stores b' (cs.foldl redefined cols) := by
  induction cs generalizing b cols with
  | nil => exact ⟨b, rfl, h⟩
  | cons c cs ih =>
    obtain ⟨b', folded, stores⟩ := ih (h.put c)
    refine ⟨b', ?_, stores⟩
    rw [List.foldl_cons, defineNext_eq, ← map_name_redefined, folded]
    rfl

theorem nodup_redefined (distinct : (cols.map (·.name)).Nodup) (c : ColumnDefinition) :
    ((redefined cols c).map (·.name)).Nodup := by
  rw [map_name_redefined]
  exact nodup_extended distinct c.name

theorem nodup_foldl_redefined (distinct : (cols.map (·.name)).Nodup)
    (cs : List ColumnDefinition) : ((cs.foldl redefined cols).map (·.name)).Nodup := by
  induction cs generalizing cols with
  | nil => exact distinct
  | cons c cs ih => exact ih (nodup_redefined distinct c)

namespace Lists

theorem of_brackets_le {less more : Json.Room} (le : less.brackets ≤ more.brackets)
    (h : @Lists less b cols) : @Lists more b cols := by
  obtain ⟨distinct, stores, order⟩ := h
  have record : @orderRecord more b = @orderRecord less b := by
    rcases orderRecord_cases_of_le le b with same | ⟨bracket, deep⟩
    · exact same.symm
    · rcases order with named | ⟨absent | unread, -⟩
      · cases deep.symm.trans named
      · cases deep.symm.trans absent
      · cases deep.symm.trans unread
  refine ⟨distinct, stores, ?_⟩
  rw [IsUnordered, record]
  exact order

theorem define [Json.Room] (h : Lists b cols) (cs : List ColumnDefinition) :
    ∃ b', Schema.define b cs = .ok b' ∧ Lists b' (cs.foldl redefined cols) := by
  obtain ⟨b', folded, stores⟩ := stores_foldl_defineNext h.stores cs
  have written : Schema.define b cs = .ok (b'.put SchemaKey.order (encode (Json.writeStrings
      (((cs.foldl redefined cols).map (·.name)).map Json.units)))) := by
    rw [Schema.define, h.currentOrder_eq]
    dsimp only
    rw [folded]
  refine ⟨_, written, nodup_foldl_redefined h.distinct cs, fun e => ?_, .inl ?_⟩
  · rw [← stores e, mem_items_iff, mem_items_iff]
    refine and_congr_left fun marked => ?_
    rw [Bucket.get?_put_of_ne]
    intro same
    rw [← same, SchemaKey.columnMark_isPrefixOf_order] at marked
    exact Bool.false_ne_true marked
  · rw [orderRecord, Bucket.get?_put_self]
    exact orderOf_writeStrings _

theorem of_schema_kept [Json.Room] (h : Lists b cols)
    (kept : ∀ key, SchemaKey.isSchema key = true → b'.get? key = b.get? key) : Lists b' cols := by
  have items : b'.items SchemaKey.columnMark = b.items SchemaKey.columnMark :=
    items_congr fun key mark => kept key (by rw [SchemaKey.isSchema, mark, Bool.true_or])
  have record : orderRecord b' = orderRecord b := by
    rw [orderRecord, orderRecord, kept _ SchemaKey.isSchema_order]
  refine ⟨h.distinct, fun e => ?_, ?_⟩
  · rw [items]
    exact h.stores e
  · rw [items, IsUnordered, record]
    exact h.order

theorem put_cell [Json.Room] (h : Lists b cols) (k : CellKey) (raw : Bytes) :
    Lists (b.put k.toBytes raw) cols := by
  refine h.of_schema_kept fun key schema => Bucket.get?_put_of_ne b raw ?_
  rintro rfl
  rw [CellKey.isSchema_toBytes] at schema
  cases schema

theorem putCell [Json.Room] (h : Lists b cols) {row : Int} {column value : String}
    (written : Rows.putCell b row column value = .ok b') : Lists b' cols := by
  unfold Rows.putCell at written
  split at written
  · cases written
    exact h.put_cell _ _
  · cases written

theorem deleteRow [Json.Room] (h : Lists b cols) (r : Row) : Lists (Rows.deleteRow b r) cols := by
  refine h.of_schema_kept fun key schema => ?_
  rw [Rows.deleteRow, Rows.get?_foldl_delete, if_neg]
  intro listed
  obtain ⟨c, -, made⟩ := List.mem_filterMap.mp listed
  split at made
  · obtain rfl := Option.some.inj made
    rw [CellKey.isSchema_toBytes] at schema
    cases schema
  · cases made

end Lists
end Cellstore.Schema
