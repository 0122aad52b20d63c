import Cellstore.Failure
import Cellstore.Proofs.Statement.Names

/-! Texts are refused or state well-formed commands.
Names that come from texts pass every check that is made of them later, and a command that
changes or deletes rows always says by a test which ones. -/
namespace Cellstore
namespace Command

def subject : Command → String
  | .createDatabase name | .useDatabase name => name
  | .createTable table _ | .insert table .. | .select table .. | .update table .. | .delete table _
  | .dropTable table => table

/-- The columns that a command names, those of its tests included. -/
def columnNames : Command → List String
  | .createDatabase _ | .useDatabase _ | .dropTable _ => []
  | .createTable _ columns => columns.map (·.name)
  | .insert _ columns _ _ => columns
  | .select _ columns filter => columns ++ filter.columns
  | .update _ column _ filter => column :: filter.columns
  | .delete _ filter => filter.columns

def names (c : Command) : List String := c.subject :: c.columnNames

/-- Nothing is left out that a command cannot do without. -/
def IsComplete : Command → Prop
  | .createTable _ columns => columns ≠ []
  | .insert _ columns values _ => columns ≠ [] ∧ columns.Nodup ∧ columns.length = values.length
  | .update _ _ _ filter | .delete _ filter => filter ≠ []
  | .createDatabase _ | .useDatabase _ | .select .. | .dropTable _ => True

/-- What is checked of the parts of a command, at once or when it runs, is passed: the lengths
of an insertion, the names of defined columns, and the keys of cells in every row. -/
structure PassesChecks (c : Command) : Prop where
  insertion : ∀ table columns values sameLength, c = .insert table columns values sameLength →
    Command.insertion table columns values = .ok c
  definition : ∀ table columns, c = .createTable table columns →
    ∀ d ∈ columns, ColumnDefinition.make d.name d.definition = .ok d
  key : ∀ column ∈ c.columnNames, ∀ row : Int, 0 < row →
    ∃ k, CellKey.make row column = .ok k ∧ (k.row : Int) = row ∧ k.column = column

theorem insertion_of_sameLength (table : String) {columns values : List String}
    (sameLength : columns.length = values.length) :
    insertion table columns values = .ok (.insert table columns values sameLength) :=
  dif_pos sameLength

theorem isColumnName_of_mem_columns {filter : Filter}
    (tests : ∀ test ∈ filter, IsColumnName test.column) :
    ∀ column ∈ filter.columns, IsColumnName column := by
  simpa [Filter.columns] using tests

theorem passesChecks {c : Command} (names : ∀ name ∈ c.columnNames, IsColumnName name) :
    PassesChecks c where
  insertion := by
    rintro table columns values sameLength rfl
    exact insertion_of_sameLength table sameLength
  definition := by
    rintro table columns rfl d -
    exact ColumnDefinition.make_of_isColumnName d.definition d.isColumnName
  key := by
    intro column member row positive
    refine ⟨⟨row.toNat, column, by omega, names column member⟩, ?_, ?_, rfl⟩
    · rw [CellKey.make, dif_pos positive, dif_pos (names column member)]
    · exact Int.toNat_of_nonneg (Int.le_of_lt positive)

end Command

namespace Statement
open Command (isColumnName_of_mem_columns passesChecks)

theorem isColumnName_of_isStated {c : Command} (stated : IsStated c) :
    ∀ name ∈ c.names, IsColumnName name := by
  cases c with
  | createDatabase _ | useDatabase _ | dropTable _ =>
    exact List.forall_mem_singleton.mpr stated
  | createTable table columns =>
    refine List.forall_mem_cons.mpr ⟨stated.1, ?_⟩
    rintro name member
    obtain ⟨d, -, rfl⟩ := List.mem_map.mp member
    exact d.isColumnName
  | insert table columns values sameLength =>
    obtain ⟨table, -, -, columns⟩ := stated
    exact List.forall_mem_cons.mpr ⟨table, columns⟩
  | select table columns filter =>
    obtain ⟨table, columns, tests⟩ := stated
    refine List.forall_mem_cons.mpr ⟨table, List.forall_mem_append.mpr ⟨columns, ?_⟩⟩
    exact isColumnName_of_mem_columns tests
  | update table column value filter =>
    obtain ⟨table, column, -, tests⟩ := stated
    refine List.forall_mem_cons.mpr ⟨table, List.forall_mem_cons.mpr ⟨column, ?_⟩⟩
    exact isColumnName_of_mem_columns tests
  | delete table filter =>
    obtain ⟨table, -, tests⟩ := stated
    exact List.forall_mem_cons.mpr ⟨table, isColumnName_of_mem_columns tests⟩

theorem isComplete_of_isStated {c : Command} (stated : IsStated c) : c.IsComplete := by
  cases c with
  | createDatabase _ | useDatabase _ | select _ _ _ | dropTable _ => trivial
  | createTable table columns => exact stated.2
  | insert table columns values sameLength =>
    obtain ⟨-, some, distinct, -⟩ := stated
    exact ⟨some, distinct, sameLength⟩
  | update table column value filter => exact stated.2.2.1
  | delete table filter => exact stated.2.1

theorem kind_of_isOfText {fault : Fault} (ofText : fault.IsOfText) :
    (Failure.statement fault).kind = .querySyntax ∨
      (Failure.statement fault).kind = .unknownCommand := by
  cases fault with
  | empty | malformed _ _ => exact .inl rfl
  | unknownCommand _ => exact .inr rfl
  | column _ => exact ofText.elim

/-- A text is refused as no statement, or it states a command whose names all can name a column,
which is complete, and whose parts pass every later check. -/
theorem refused_or_wellFormed (text : String) :
    match parse text with
    | .error fault => (Failure.statement fault).kind = .querySyntax ∨
        (Failure.statement fault).kind = .unknownCommand
    | .ok c => (∀ name ∈ c.names, IsColumnName name) ∧ c.IsComplete ∧ c.PassesChecks := by
  obtain ⟨stated, ofText⟩ := parse_spec text
  cases read : parse text with
  | error fault => exact kind_of_isOfText (ofText fault read)
  | ok c =>
    have names := isColumnName_of_isStated (stated c read)
    refine ⟨names, isComplete_of_isStated (stated c read), passesChecks ?_⟩
    intro column member
    exact names column (List.mem_cons_of_mem _ member)

end Statement
end Cellstore
