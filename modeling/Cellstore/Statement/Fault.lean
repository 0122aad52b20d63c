import Cellstore.Column

/-! Why a text is no statement. -/
namespace Cellstore.Statement

/-- What is wrong with the tokens of a statement. `found` is the text of the token at the
place, none at the end of the statement. -/
inductive Cause where
  | expected (what : String) (found : Option String)
  | unexpected (found : Option String)
  | unexpectedEnd
  | unknownObject
  | missingParenthesis
  | emptyColumnDefinition
  | invalidColumnName (text : String)
  | lengthMismatch (columns values : Nat)
  | duplicateColumns (names : List String)
  | severalAssignments
  | unclosed (context : String)
  deriving DecidableEq, Repr

def describeFound : Option String → String
  | none => "end of statement"
  | some text => s!"'{text}'"

def Cause.message : Cause → String
  | .expected what found => s!"expected {what}, found {describeFound found}"
  | .unexpected found => s!"unexpected {describeFound found}"
  | .unexpectedEnd => "unexpected end of statement"
  | .unknownObject => "expected DATABASE or TABLE"
  | .missingParenthesis => "missing ')'"
  | .emptyColumnDefinition => "empty column definition"
  | .invalidColumnName text => s!"invalid column name '{text}'"
  | .lengthMismatch columns values => s!"{columns} column(s) but {values} value(s)"
  | .duplicateColumns names => "duplicate column(s) " ++ ", ".intercalate names
  | .severalAssignments => "only one column can be SET per statement"
  | .unclosed context => s!"Error tokenizing '{context}'"

inductive Fault where
  /-- There is nothing but white space. -/
  | empty
  | unknownCommand (word : String)
  /-- The rest of the statement does not fit its first words. -/
  | malformed (statement : String) (cause : Cause)
  /-- A column definition was built from a text that is no column name. -/
  | column (fault : ColumnFault)
  deriving DecidableEq, Repr

def Fault.message : Fault → String
  | .empty => "No command provided"
  | .unknownCommand word => s!"Unknown command: {word}"
  | .malformed statement cause => s!"invalid syntax for {statement}: {cause.message}"
  | .column fault => fault.message

end Cellstore.Statement
