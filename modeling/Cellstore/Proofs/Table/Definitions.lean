import Mathlib.Data.List.Forall2
import Mathlib.Data.List.Nodup
import Mathlib.Tactic.SplitIfs
import Cellstore.Proofs.Json.Room
import Cellstore.Proofs.Results
import Cellstore.Proofs.SortedMap
import Cellstore.Proofs.Table.CellKey
import Cellstore.Table.Schema

/-! How definitions and the order record are read and written.
Definitions are read exactly from the entries that are stored for them, a written order is read back,
and a name that is defined for the first time goes to the end of the order. -/
namespace Cellstore.Schema
open Text.Utf8 (encode decode decode_encode encode_of_decode)

private theorem mapM_string? (names : List Json.Units) :
    (names.map Json.Value.string).mapM Json.Value.string? = some names := by
  induction names with
  | nil => rfl
  | cons name names ih => simp [List.mapM_cons, ih, Json.Value.string?]

theorem orderOf_writeStrings [Json.Room] (names : List Json.Units) :
    orderOf (encode (Json.writeStrings names)) = .names names := by
  unfold orderOf
  simp only [decode_encode, Json.read_writeStrings, mapM_string?]

section

variable {less more : Json.Room}

theorem orderRecord_cases_of_le (le : less.brackets ≤ more.brackets) (b : Bucket) :
    @orderRecord less b = @orderRecord more b ∨
      ∃ bracket, @orderRecord less b = .tooDeep bracket := by
  unfold orderRecord
  cases b.get? SchemaKey.order with
  | none => exact .inl rfl
  | some raw =>
    simp only [orderOf]
    cases decode raw with
    | error _ => exact .inl rfl
    | ok text =>
      rcases Json.read_of_brackets_le le text with same | ⟨bracket, stopped⟩
      · simp only [same, true_or]
      · simp only [stopped, OrderRecord.tooDeep.injEq, exists_eq', or_true]

/-- With less room definitions come to the same, unless the record finds no room. -/
theorem define_cases_of_le (le : less.brackets ≤ more.brackets) (b : Bucket)
    (cs : List ColumnDefinition) : @define less b cs = @define more b cs ∨
      ∃ bracket, @define less b cs = .error (.nesting bracket) := by
  unfold define currentOrder
  rcases orderRecord_cases_of_le le b with same | ⟨bracket, deep⟩
  · rw [same]
    exact .inl rfl
  · rw [deep]
    exact .inr ⟨bracket, rfl⟩

end

theorem mem_items_iff {b : Bucket} {lead : Bytes} {e : Bytes × Bytes} :
    e ∈ b.items lead ↔ b.get? e.1 = some e.2 ∧ lead.isPrefixOf e.1 = true := by
  rw [Bucket.items, List.mem_filter]
  exact and_congr_left fun _ => SortedMap.mem_entries_iff

theorem items_congr {b b' : Bucket} {lead : Bytes}
    (same : ∀ key, lead.isPrefixOf key = true → b'.get? key = b.get? key) :
    b'.items lead = b.items lead := by
  have parts : (b'.entries.filter fun e => lead.isPrefixOf e.1) =
      b.entries.filter fun e => lead.isPrefixOf e.1 := by
    refine SortedMap.ext_get? fun key => Option.ext fun raw => ?_
    rw [SortedMap.get?_filter, SortedMap.get?_filter, Option.filter_eq_some_iff,
      Option.filter_eq_some_iff]
    refine and_congr_left fun mark => ?_
    have here : b'.entries.get? key = b.entries.get? key := same key mark
    rw [here]
  exact congrArg SortedMap.entries parts

theorem nameOf_eq_ok_iff {key : Bytes} (marked : SchemaKey.columnMark.isPrefixOf key = true)
    {name : String} : nameOf key = .ok name ↔ key = SchemaKey.ofColumn name := by
  obtain ⟨rest, rfl⟩ := SchemaKey.columnMark_isPrefixOf_iff.mp marked
  rw [nameOf, List.drop_left, SchemaKey.ofColumn, List.append_cancel_left_eq]
  constructor
  · exact fun read => (encode_of_decode read).symm
  · rintro rfl
    exact decode_encode name

private theorem definition_eq_ok_iff {e : Bytes × Bytes}
    (marked : SchemaKey.columnMark.isPrefixOf e.1 = true) {d : String × String} :
    (do
      let name ← nameOf e.1
      let definition ← decode e.2
      return (name, definition) : Except Text.Utf8.Failure (String × String)) = .ok d ↔
      e = (SchemaKey.ofColumn d.1, encode d.2) := by
  obtain ⟨key, raw⟩ := e
  obtain ⟨name, definition⟩ := d
  rw [Prod.mk.injEq]
  constructor
  · intro read
    cases named : nameOf key with
    | error failure => simp [named, bind, Except.bind] at read
    | ok n =>
      cases decoded : decode raw with
      | error failure => simp [named, decoded, bind, Except.bind] at read
      | ok text =>
        simp only [named, decoded, bind, Except.bind, pure, Except.pure, Except.ok.injEq,
          Prod.mk.injEq] at read
        exact ⟨read.1 ▸ (nameOf_eq_ok_iff marked).mp named, read.2 ▸ (encode_of_decode decoded).symm⟩
  · rintro ⟨key, rfl⟩
    have named := (nameOf_eq_ok_iff marked).mpr key
    simp [named, decode_encode, bind, Except.bind, pure, Except.pure]

theorem definitions_eq_ok_iff {b : Bucket} {stored : List (String × String)} :
    definitions b = .ok stored ↔
      b.items SchemaKey.columnMark = stored.map fun d => (SchemaKey.ofColumn d.1, encode d.2) := by
  have marked : ∀ e ∈ b.items SchemaKey.columnMark, SchemaKey.columnMark.isPrefixOf e.1 = true :=
    fun e member => (mem_items_iff.mp member).2
  rw [definitions, mapM_eq_ok_iff, ← List.forall₂_eq_eq_eq, List.forall₂_map_right_iff]
  constructor
  · intro read
    refine ((List.forall₂_and_left _ _).mpr ⟨marked, read⟩).imp ?_
    rintro e d ⟨marked, read⟩
    exact (definition_eq_ok_iff marked).mp read
  · intro written
    refine ((List.forall₂_and_left _ _).mpr ⟨marked, written⟩).imp ?_
    rintro e d ⟨marked, written⟩
    exact (definition_eq_ok_iff marked).mpr written

theorem exists_definitions_iff {b : Bucket} : (∃ stored, definitions b = .ok stored) ↔
    ∀ e ∈ b.items SchemaKey.columnMark, ∃ name definition,
      e = (SchemaKey.ofColumn name, encode definition) := by
  rw [definitions, exists_mapM_iff]
  refine forall₂_congr fun e member => ?_
  have marked := (mem_items_iff.mp member).2
  constructor
  · rintro ⟨⟨name, definition⟩, read⟩
    exact ⟨name, definition, (definition_eq_ok_iff marked).mp read⟩
  · rintro ⟨name, definition, written⟩
    exact ⟨(name, definition), (definition_eq_ok_iff marked).mpr written⟩

theorem stored_injective :
    Function.Injective fun d : String × String => (SchemaKey.ofColumn d.1, encode d.2) := by
  intro d e same
  obtain ⟨key, raw⟩ := Prod.mk.inj same
  exact Prod.ext (SchemaKey.ofColumn_injective key) (Text.Utf8.encode_injective raw)

theorem mem_stored_iff {b : Bucket} {stored : List (String × String)}
    (read : definitions b = .ok stored) {d : String × String} :
    d ∈ stored ↔ b.get? (SchemaKey.ofColumn d.1) = some (encode d.2) := by
  have listed : (SchemaKey.ofColumn d.1, encode d.2) ∈ b.items SchemaKey.columnMark ↔
      b.get? (SchemaKey.ofColumn d.1) = some (encode d.2) := by
    rw [mem_items_iff]
    exact and_iff_left (SchemaKey.columnMark_isPrefixOf_ofColumn _)
  rw [← listed, definitions_eq_ok_iff.mp read]
  exact (List.mem_map_of_injective stored_injective).symm

theorem makeColumn_eq_ok_iff {d : String × String} {c : ColumnDefinition} :
    makeColumn d = .ok c ↔ c.name = d.1 ∧ c.definition = d.2 := by
  constructor
  · intro read
    unfold makeColumn at read
    cases made : ColumnDefinition.make d.1 d.2 with
    | error fault =>
      rw [made] at read
      cases read
    | ok column =>
      rw [made] at read
      cases read
      exact ColumnDefinition.isColumnName_of_make made
  · rintro ⟨name, definition⟩
    rw [makeColumn, ← name, ← definition, ColumnDefinition.make_of_isColumnName _ c.isColumnName]
    rfl

/-! The order of the names. -/

/-- A name that is seen for the first time goes to the end. -/
def extended (columns : List String) (name : String) : List String :=
  if name ∈ columns then columns else columns ++ [name]

theorem mem_extended {columns : List String} {name other : String} :
    other ∈ extended columns name ↔ other ∈ columns ∨ other = name := by
  unfold extended
  split_ifs with known
  · constructor
    · exact Or.inl
    · rintro (old | rfl)
      · exact old
      · exact known
  · simp

theorem nodup_extended {columns : List String} (distinct : columns.Nodup) (name : String) :
    (extended columns name).Nodup := by
  unfold extended
  split_ifs with known
  · exact distinct
  · exact List.nodup_append.mpr ⟨distinct, by simp, by
      rintro a inside b single rfl
      exact known (List.mem_singleton.mp single ▸ inside)⟩

theorem defineNext_eq (b : Bucket) (columns : List String) (c : ColumnDefinition) :
    defineNext (b, columns.map Json.units) c =
    (b.put (SchemaKey.ofColumn c.name) (encode c.definition),
      (extended columns c.name).map Json.units) := by
  have known : Json.units c.name ∈ columns.map Json.units ↔ c.name ∈ columns :=
    List.mem_map_of_injective fun _ _ => Json.units_injective
  simp only [defineNext, known, extended]
  split_ifs <;> simp

end Cellstore.Schema
