import Cellstore.Proofs.Table.Changes
import Cellstore.Proofs.Table.Schema

/-! Buckets that no command has written.
Any bytes can stand in them. Rows are read and written whatever there is; columns can be listed if
all of their entries are texts, and columns can be added if the order to extend can be told. -/
namespace Cellstore
open Text.Utf8 (encode decode decode_encode encode_of_decode)

namespace Schema

/-- An order record that is not nested too deeply, only texts as definitions, and no listed name
that cannot name a column. -/
structure IsListable [Json.Room] (b : Bucket) : Prop where
  shallow : ∀ bracket, orderRecord b ≠ .tooDeep bracket
  texts : ∀ key raw, b.get? key = some raw → SchemaKey.columnMark.isPrefixOf key = true →
    ∃ name definition, key = SchemaKey.ofColumn name ∧ raw = encode definition
  named : ∀ name raw, b.get? (SchemaKey.ofColumn name) = some raw →
    (∀ order, orderRecord b = .names order → Json.units name ∈ order) → IsColumnName name

/-- An order record that is not nested too deeply, and without a readable one only texts as names. -/
structure IsExtendable [Json.Room] (b : Bucket) : Prop where
  shallow : ∀ bracket, orderRecord b ≠ .tooDeep bracket
  texts : (∀ order, orderRecord b ≠ .names order) → ∀ key raw, b.get? key = some raw →
    SchemaKey.columnMark.isPrefixOf key = true → ∃ name, key = SchemaKey.ofColumn name

/-! Listing columns. -/

theorem mem_arranged_iff {stored : List (String × String)}
    (distinct : ∀ d ∈ stored, ∀ e ∈ stored, d.1 = e.1 → d = e) {order : List Json.Units}
    {d : String × String} : d ∈ arranged stored order ↔ d ∈ stored ∧ Json.units d.1 ∈ order := by
  unfold arranged
  rw [List.mem_filterMap]
  constructor
  · rintro ⟨name, listed, found⟩
    have hit := List.find?_some found
    rw [beq_iff_eq] at hit
    exact ⟨List.mem_of_find?_eq_some found, hit ▸ listed⟩
  · rintro ⟨member, listed⟩
    refine ⟨Json.units d.1, listed, ?_⟩
    refine find?_eq_some_of_unique member (beq_self_eq_true _) fun e inside hit => ?_
    exact distinct e inside d member (Json.units_injective (beq_iff_eq.mp hit))

private theorem exists_makeColumn_iff {ds : List (String × String)} :
    (∃ columns, ds.mapM makeColumn = .ok columns) ↔ ∀ d ∈ ds, IsColumnName d.1 := by
  rw [exists_mapM_iff]
  refine forall₂_congr fun d _ => ?_
  constructor
  · rintro ⟨c, made⟩
    exact (makeColumn_eq_ok_iff.mp made).1 ▸ c.isColumnName
  · intro named
    exact ⟨⟨d.1, d.2, named⟩, makeColumn_eq_ok_iff.mpr ⟨rfl, rfl⟩⟩

theorem exists_columns_iff [Json.Room] {b : Bucket} :
    (∃ cs, columns b = .ok cs) ↔ IsListable b := by
  have texts : (∃ stored, definitions b = .ok stored) ↔ ∀ key raw, b.get? key = some raw →
      SchemaKey.columnMark.isPrefixOf key = true →
      ∃ name definition, key = SchemaKey.ofColumn name ∧ raw = encode definition := by
    simp only [exists_definitions_iff, mem_items_iff, Prod.forall, and_imp, Prod.mk.injEq]
  cases read : definitions b with
  | error failure =>
    have unread : ¬ ∃ stored, definitions b = .ok stored := by
      rw [read]
      rintro ⟨_, ⟨⟩⟩
    constructor
    · rintro ⟨cs, listed⟩
      rw [columns, read] at listed
      cases listed
    · exact fun listable => absurd (texts.mpr listable.texts) unread
  | ok stored =>
    have written := texts.mp ⟨stored, read⟩
    have distinct : ∀ d ∈ stored, ∀ e ∈ stored, d.1 = e.1 → d = e := by
      intro d first e second same
      rw [mem_stored_iff read] at first second
      rw [same, second] at first
      exact Prod.ext same (Text.Utf8.encode_injective (Option.some.inj first)).symm
    have named (p : String → Prop) : (∀ d ∈ stored, p d.1 → IsColumnName d.1) ↔
        ∀ name raw, b.get? (SchemaKey.ofColumn name) = some raw → p name → IsColumnName name := by
      constructor
      · intro all name raw found
        obtain ⟨_, definition, same, rfl⟩ := written _ raw found
          (SchemaKey.columnMark_isPrefixOf_iff.mpr ⟨_, rfl⟩)
        exact all (name, definition) ((mem_stored_iff read).mpr found)
      · exact fun all d member => all d.1 _ ((mem_stored_iff read).mp member)
    unfold columns
    rw [read]
    dsimp only
    -- Only what the record names is made into columns. Without a record that is everything.
    cases record : orderRecord b with
    | tooDeep bracket =>
      constructor
      · rintro ⟨_, ⟨⟩⟩
      · exact fun listable => absurd record (listable.shallow bracket)
    | names order =>
      have listed := named fun name => Json.units name ∈ order
      simp only [exists_makeColumn_iff, mem_arranged_iff distinct, and_imp, listed]
      constructor
      · intro all
        refine ⟨fun bracket => by rw [record]; nofun, written, fun name raw found inside => ?_⟩
        exact all name raw found (inside order record)
      · intro listable name raw found inside
        refine listable.named name raw found fun other same => ?_
        rw [record] at same
        cases same
        exact inside
    | absent | unreadable =>
      have listed := named fun _ => True
      simp only [true_implies] at listed
      simp only [exists_makeColumn_iff, listed]
      constructor
      · intro all
        exact ⟨fun bracket => by rw [record]; nofun, written, fun name raw found _ =>
          all name raw found⟩
      · intro listable name raw found
        exact listable.named name raw found fun order same => by rw [record] at same; cases same

/-! Adding columns. -/

theorem exists_currentOrder_iff [Json.Room] {b : Bucket} :
    (∃ order, currentOrder b = .ok order) ↔ IsExtendable b := by
  have texts : (∃ names, namesByKey b = .ok names) ↔ ∀ key raw, b.get? key = some raw →
      SchemaKey.columnMark.isPrefixOf key = true → ∃ name, key = SchemaKey.ofColumn name := by
    rw [namesByKey, exists_mapM_iff]
    simp only [mem_items_iff, Prod.forall, and_imp]
    refine forall₄_congr fun key raw _ marked => exists_congr fun name => ?_
    exact nameOf_eq_ok_iff marked
  unfold currentOrder
  cases record : orderRecord b with
  | tooDeep bracket =>
    constructor
    · rintro ⟨_, ⟨⟩⟩
    · exact fun extendable => absurd record (extendable.shallow bracket)
  | names order =>
    constructor
    · exact fun _ => ⟨fun bracket => by simp [record], fun unread => absurd record (unread order)⟩
    · exact fun _ => ⟨order, rfl⟩
  | absent | unreadable =>
    have read : (∃ order, ((namesByKey b).map (·.map Json.units)).mapError Fault.undecodable =
        .ok order) ↔ ∃ names, namesByKey b = .ok names := by
      cases namesByKey b with
      | error failure => simp [Except.map, Except.mapError]
      | ok names => simp [Except.map, Except.mapError]
    rw [read, texts]
    constructor
    · exact fun all => ⟨fun bracket => by simp [record], fun _ => all⟩
    · exact fun extendable => extendable.texts fun order => by simp [record]

theorem isExtendable_empty [Json.Room] : IsExtendable .empty := exists_currentOrder_iff.mp ⟨[], rfl⟩

theorem exists_define_iff [Json.Room] {b : Bucket} {cs : List ColumnDefinition} :
    (∃ b', define b cs = .ok b') ↔ IsExtendable b := by
  rw [← exists_currentOrder_iff]
  unfold define
  cases currentOrder b with
  | error fault => simp
  | ok order => simp

theorem isExtendable_of_define [Json.Room] {b b' : Bucket} {cs : List ColumnDefinition}
    (defined : define b cs = .ok b') : IsExtendable b' := by
  unfold define at defined
  split at defined
  · cases defined
  · rename_i order _
    cases defined
    refine exists_currentOrder_iff.mp ⟨(cs.foldl defineNext (b, order)).2, ?_⟩
    rw [currentOrder, orderRecord, Bucket.get?_put_self]
    dsimp only
    rw [orderOf_writeStrings]

end Schema

theorem exists_declare [Json.Room] {b : Bucket} (extendable : Schema.IsExtendable b)
    (cs : List ColumnDefinition) : ∃ b', Execution.declare b cs = .ok b' := by
  induction cs generalizing b with
  | nil => exact ⟨b, rfl⟩
  | cons c cs ih =>
    obtain ⟨next, defined⟩ := Schema.exists_define_iff.mpr extendable
    rw [Execution.declare, defined]
    exact ih (Schema.isExtendable_of_define defined)

theorem exists_declare_iff [Json.Room] {b : Bucket} {c : ColumnDefinition}
    {cs : List ColumnDefinition} :
    (∃ b', Execution.declare b (c :: cs) = .ok b') ↔ Schema.IsExtendable b := by
  refine ⟨?_, fun extendable => exists_declare extendable (c :: cs)⟩
  rintro ⟨b', declared⟩
  rw [Execution.declare] at declared
  split at declared
  · rename_i next defined
    exact Schema.exists_define_iff.mp ⟨next, defined⟩
  · cases declared

/-! Writing rows. -/

namespace Rows

theorem exists_putCells {row : Int} (positive : 0 < row) {cells : Cells}
    (named : ∀ c ∈ cells, IsColumnName c.1) (b : Bucket) : ∃ b', putCells row b cells = .ok b' := by
  induction cells generalizing b with
  | nil => exact ⟨b, rfl⟩
  | cons c cells ih =>
    obtain ⟨column, value⟩ := c
    obtain ⟨name, others⟩ := List.forall_mem_cons.mp named
    rw [putCells, putCell, CellKey.make, dif_pos positive, dif_pos name]
    exact ih others _

theorem putCells_of_not_pos {row : Int} (negative : ¬ 0 < row) {cells : Cells}
    (filled : cells ≠ []) (b : Bucket) :
    putCells row b cells = .error (.rowNotPositive row) := by
  cases cells with
  | nil => exact absurd rfl filled
  | cons c cells => rw [putCells, putCell, CellKey.make, dif_neg negative]

theorem pos_of_mem_matching {b : Bucket} {filter : Filter} {r : Row}
    (inside : r ∈ matching b filter) : 0 < r.id := by
  have filled := (mem_scan_iff.mp (List.mem_filter.mp inside).1).2
  obtain ⟨-, k, row, -⟩ := cellsOf_ne_nil_iff.mp filled
  exact row ▸ k.positive

theorem exists_assign {column value : String} (named : IsColumnName column) {rows : List Row}
    (positive : ∀ r ∈ rows, 0 < r.id) (b : Bucket) :
    ∃ b', Execution.assign column value b rows = .ok b' := by
  induction rows generalizing b with
  | nil => exact ⟨b, rfl⟩
  | cons r rows ih =>
    obtain ⟨here, others⟩ := List.forall_mem_cons.mp positive
    rw [Execution.assign, putCell, CellKey.make, dif_pos (Int.natCast_pos.mpr here), dif_pos named]
    exact ih others _

end Rows
end Cellstore
