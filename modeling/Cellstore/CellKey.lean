import Cellstore.Column

/-! Stored keys of a table.
A cell is stored under its row id in canonical decimal digits, a colon, and its column name.
Schema keys begin with one of two reserved words and a colon. -/
namespace Cellstore
open Text.Utf8 (encode decode)

structure CellKey where
  row : Nat
  column : String
  positive : 0 < row
  isColumnName : IsColumnName column

inductive KeyFault where
  | rowNotPositive (row : Int)
  | invalidColumn (column : String)
  | notUtf8 (key : Bytes)
  | notTwoParts (text : String)
  | nonCanonicalRow (text : String)
  | tooManyDigits (count : Nat)
  deriving DecidableEq, Repr

def KeyFault.message : KeyFault → String
  | .rowNotPositive row => s!"row_id must be positive, got {row}"
  | .invalidColumn column => s!"invalid column name {Text.Quoted.text column}"
  | .notUtf8 key => s!"cell key is not valid UTF-8: {Text.Quoted.bytes key}"
  | .notTwoParts text => s!"cell key must have two parts: {Text.Quoted.text text}"
  | .nonCanonicalRow text => s!"cell key has a non-canonical row id: {Text.Quoted.text text}"
  | .tooManyDigits count =>
    "Exceeds the limit (4300 digits) for integer string conversion: " ++
      s!"value has {count} digits; use sys.set_int_max_str_digits() to increase the limit"

namespace CellKey

def digitLimit : Nat := 4300

def make (row : Int) (column : String) : Except KeyFault CellKey :=
  if h : 0 < row then
    if isName : IsColumnName column then .ok ⟨row.toNat, column, by omega, isName⟩
    else .error (.invalidColumn column)
  else .error (.rowNotPositive row)

def text (k : CellKey) : String :=
  String.ofList (Nat.toDigits 10 k.row ++ ':' :: k.column.toList)

def toBytes (k : CellKey) : Bytes := encode k.text

def describe (k : CellKey) : String := s!"CellKey({k.text})"

/-- The row id that some digits write, if they are its canonical form. -/
def rowOf (text : String) (digits : List Char) : Except KeyFault Nat :=
  if digits.isEmpty ∨ digits.any (fun c => !c.isDigit) then .error (.nonCanonicalRow text)
  else if digitLimit < digits.length then .error (.tooManyDigits digits.length)
  else
    let row := Nat.ofDigitChars 10 digits 0
    if Nat.toDigits 10 row = digits then .ok row else .error (.nonCanonicalRow text)

/-- The key that a text writes: exactly one colon, a canonical row id before it, and a
column name after it. -/
def ofText (text : String) : Except KeyFault CellKey :=
  let s := text.toList
  match s.dropWhile (· ≠ ':') with
  | [] => .error (.notTwoParts text)
  | _ :: column =>
    if ':' ∈ column then .error (.notTwoParts text)
    else match rowOf text (s.takeWhile (· ≠ ':')) with
      | .error fault => .error fault
      | .ok row => make row (String.ofList column)

def ofBytes (key : Bytes) : Except KeyFault CellKey :=
  match decode key with
  | .error _ => .error (.notUtf8 key)
  | .ok text => ofText text

end CellKey

namespace SchemaKey

/-- Keys of column definitions begin with this word. -/
def columnMark : Bytes := encode "col:"

/-- Keys of the bookkeeping begin with this word. -/
def recordMark : Bytes := encode "meta:"

def order : Bytes := encode "meta:columns"

def ofColumn (name : String) : Bytes := columnMark ++ encode name

def isSchema (key : Bytes) : Bool := columnMark.isPrefixOf key || recordMark.isPrefixOf key

theorem isSchema_ofColumn (name : String) : isSchema (ofColumn name) = true := by
  simp [isSchema, ofColumn]

theorem isSchema_order : isSchema order = true := by decide

end SchemaKey
end Cellstore
