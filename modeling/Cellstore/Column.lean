import Cellstore.Text.Quoted

/-! Column names and column definitions. -/
namespace Cellstore

/-- Column names are not empty and hold no colon, the separator of stored keys. -/
def IsColumnName (name : String) : Prop := name ≠ "" ∧ ':' ∉ name.toList

instance (name : String) : Decidable (IsColumnName name) := inferInstanceAs (Decidable (_ ∧ _))

/-- A column name with the definition text of its declaration. The text is kept as written
and never interpreted. -/
structure ColumnDefinition where
  name : String
  definition : String
  isColumnName : IsColumnName name
  deriving DecidableEq

inductive ColumnFault where
  | emptyName
  | colonInName (name : String)
  deriving DecidableEq, Repr

def ColumnFault.message : ColumnFault → String
  | .emptyName => "column name must not be empty"
  | .colonInName name => s!"column name must not contain ':': {Text.Quoted.text name}"

def ColumnDefinition.make (name definition : String) : Except ColumnFault ColumnDefinition :=
  if empty : name = "" then .error .emptyName
  else if colon : ':' ∈ name.toList then .error (.colonInName name)
  else .ok ⟨name, definition, empty, colon⟩

theorem ColumnDefinition.make_of_isColumnName {name : String} (definition : String)
    (h : IsColumnName name) : make name definition = .ok ⟨name, definition, h⟩ := by
  simp [make, h.1, h.2]

theorem ColumnDefinition.isColumnName_of_make {name definition : String} {c : ColumnDefinition}
    (h : make name definition = .ok c) : c.name = name ∧ c.definition = definition := by
  simp only [make] at h
  split at h
  · simp at h
  · split at h
    · simp at h
    · cases h
      exact ⟨rfl, rfl⟩

end Cellstore
