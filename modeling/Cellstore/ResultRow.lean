import Cellstore.SortedMap
import Cellstore.Text.Quoted

/-! Rows of a query result.
A value is found by its column name or by its place. -/
namespace Cellstore

structure ResultRow where
  columns : List String
  values : List String
  deriving DecidableEq, Repr

/-- How a value is asked for. Negative places count from the end. -/
inductive ValueKey where
  | column (name : String)
  | place (n : Int)
  deriving DecidableEq, Repr

inductive ValueFault where
  | noColumn (name : String)
  | noPlace
  deriving DecidableEq, Repr

def ValueFault.message : ValueFault → String
  | .noColumn name => s!"Column '{name}' not found"
  | .noPlace => "list index out of range"

namespace ResultRow

def valueAt (r : ResultRow) (n : Int) : Except ValueFault String :=
  let place := if n < 0 then n + r.values.length else n
  if place < 0 then .error .noPlace
  else match r.values[place.toNat]? with
    | some value => .ok value
    | none => .error .noPlace

/-- The value under a key. Of two columns with one name the first counts. -/
def value (r : ResultRow) : ValueKey → Except ValueFault String
  | .place n => r.valueAt n
  | .column name => match r.columns.findIdx? (· == name) with
    | some n => r.valueAt n
    | none => .error (.noColumn name)

def valueD (r : ResultRow) (key : ValueKey) (default : String) : Except ValueFault String :=
  match r.value key with
  | .error (.noColumn _) => .ok default
  | outcome => outcome

/-- Columns with their values. Of two columns with one name the last counts. -/
def toMap (r : ResultRow) : SortedMap String String :=
  SortedMap.ofList (r.columns.zip r.values)

def describe (r : ResultRow) : String :=
  let pairs := (r.columns.zip r.values).map fun p => p.1 ++ "=" ++ Text.Quoted.text p.2
  "Row(" ++ ", ".intercalate pairs ++ ")"

end ResultRow
end Cellstore
