import Mathlib.Tactic.SplitIfs
import Cellstore.Execution
import Cellstore.Proofs.Relational.Encoding
import Cellstore.Proofs.Table.Schema

/-! The schema of a table in its bucket.
Declaring a column on a bucket declares it in the table, and listing the columns of a bucket
gives those of the table in the order of their declaration. -/
namespace Cellstore.Relational
open Text.Utf8

theorem Encodes.declares {b : Bucket} {t : Table} (h : Encodes b t) :
    Schema.Declares b t.columns :=
  ⟨t.distinct, h.order, h.named, h.declared, h.definitions⟩

theorem Encodes.columnNames_eq [Json.Room] {b : Bucket} {t : Table} (h : Encodes b t) :
    Schema.columnNames b = .ok t.columns := h.declares.columnNames_eq

theorem Table.declare_columns (t : Table) (column : String) :
    (t.declare column).columns = Schema.extended t.columns column := by
  unfold Table.declare Schema.extended
  split_ifs <;> rfl

theorem Table.declare_counter (t : Table) (column : String) :
    (t.declare column).counter = t.counter := by
  unfold Table.declare
  split_ifs <;> rfl

theorem Table.declare_rows (t : Table) (column : String) : (t.declare column).rows = t.rows := by
  unfold Table.declare
  split_ifs <;> rfl

theorem Encodes.defined {b : Bucket} {t : Table} (h : Encodes b t) (c : ColumnDefinition) :
    Encodes (Schema.defined b t.columns c) (t.declare c.name) := by
  have declares := h.declares.defined c
  rw [← Table.declare_columns] at declares
  have rows := t.declare_rows c.name
  have counter := t.declare_counter c.name
  refine ⟨?_, declares.order, declares.named, declares.declared, declares.definitions, fun k => ?_,
    ?_, ?_, ?_⟩
  · rw [counter]
    exact h.counter
  · rw [Schema.get?_defined_of_ne _ _ _ (k.toBytes_ne_ofColumn c.name) k.toBytes_ne_order, h.cells k,
      rows]
  · rw [rows, counter]
    exact h.counted
  · rw [rows]
    exact h.inhabited
  · rw [rows]
    exact h.fields

theorem Encodes.declare [Json.Room] {b : Bucket} {t : Table} (h : Encodes b t)
    (columns : List ColumnDefinition) : ∃ b', Execution.declare b columns = .ok b' ∧
      Encodes b' ((columns.map (·.name)).foldl Table.declare t) := by
  induction columns generalizing b t with
  | nil => exact ⟨b, rfl, h⟩
  | cons c columns ih =>
    obtain ⟨b', declared, encodes⟩ := ih (h.defined c)
    refine ⟨b', ?_, encodes⟩
    rw [Execution.declare, h.declares.define_eq c]
    exact declared

end Cellstore.Relational
