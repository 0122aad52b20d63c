import Cellstore.Command
import Cellstore.KeyOrder
import Cellstore.Statement.Clause
import Cellstore.Token.Scan

/-! From the text of a statement to its command.
The first word chooses the statement; it is told apart in upper case and with semicolons at
its end left out. The tokens after it are read by the rules of that statement. -/
namespace Cellstore.Statement

def labelled {α : Type} (statement : String) : Except Cause α → Except Fault α
  | .ok a => .ok a
  | .error cause => .error (.malformed statement cause)

/-- The column that a group of tokens defines: the first token names it, and all of them
are its definition. -/
def columnOf (statement : String) (source : List Char) :
    Tokens → Except Fault ColumnDefinition
  | [] => .error (.malformed statement .emptyColumnDefinition)
  | t :: more => match t.name? with
    | none => .error (.malformed statement (.invalidColumnName t.text))
    | some n =>
      match ColumnDefinition.make n (Token.slice source t (more.getLastD t)) with
      | .ok c => .ok c
      | .error fault => .error (.column fault)

/-- Column definitions up to the closing parenthesis. Commas separate them at depth zero;
`group` holds the tokens of the definition that is being read. -/
def columnList (statement : String) (source : List Char) (depth : Nat) (group : Tokens) :
    Tokens → Except Fault (List ColumnDefinition × Tokens)
  | [] => .error (.malformed statement .missingParenthesis)
  | t :: ts =>
    if t.kind = .leftParen then columnList statement source (depth + 1) (group ++ [t]) ts
    else if t.kind = .rightParen then
      match depth with
      | 0 => do
        let column ← columnOf statement source group
        return ([column], ts)
      | depth + 1 => columnList statement source depth (group ++ [t]) ts
    else if t.kind = .comma ∧ depth = 0 then do
      let column ← columnOf statement source group
      let (columns, rest) ← columnList statement source 0 [] ts
      return (column :: columns, rest)
    else columnList statement source depth (group ++ [t]) ts

def createDatabase (ts : Tokens) : Except Fault Command :=
  labelled "CREATE DATABASE" do
    let (database, ts) ← name "database name" ts
    finish ts
    return .createDatabase database

def createTable (source : List Char) (ts : Tokens) : Except Fault Command := do
  let statement := "CREATE TABLE"
  let (table, ts) ← labelled statement (name "table name" ts)
  let ts ← labelled statement (symbol .leftParen "'('" ts)
  let (columns, ts) ← columnList statement source 0 [] ts
  labelled statement (finish ts)
  return .createTable table columns

def create (source : List Char) (ts : Tokens) : Except Fault Command :=
  if atKeyword "DATABASE" ts then createDatabase ts.tail
  else if atKeyword "TABLE" ts then createTable source ts.tail
  else .error (.malformed "CREATE" .unknownObject)

def use (ts : Tokens) : Except Fault Command :=
  labelled "USE" do
    let (database, ts) ← name "database name" ts
    finish ts
    return .useDatabase database

/-- The names that occur more than once, each named once, in ascending order. -/
def duplicates (columns : List String) : List String :=
  ((columns.filter fun c => columns.count c > 1).eraseDups).mergeSort
    fun a b => !KeyOrder.lt b a

def insert (source : List Char) (ts : Tokens) : Except Fault Command :=
  labelled "INSERT" do
    let ts ← keyword "INTO" ts
    let (table, ts) ← name "table name" ts
    let (columns, ts) ← nameList ts
    let ts ← keyword "VALUES" ts
    let (values, ts) ← valueList source ts
    finish ts
    if sameLength : columns.length = values.length then
      if (duplicates columns).isEmpty then return .insert table columns values sameLength
      else throw (.duplicateColumns (duplicates columns))
    else throw (.lengthMismatch columns.length values.length)

/-- The columns to select: all of them by a star or by nothing, or a list. -/
def selection (ts : Tokens) : Except Cause (List String × Tokens) :=
  if atKind .star ts then .ok ([], ts.tail)
  else if atKeyword "FROM" ts then .ok ([], ts)
  else names ts

def select (source : List Char) (ts : Tokens) : Except Fault Command :=
  labelled "SELECT" do
    let (columns, ts) ← selection ts
    let ts ← keyword "FROM" ts
    let (table, ts) ← name "table name" ts
    let (filter, ts) ←
      if atKeyword "WHERE" ts then conditions source ts.tail else pure ([], ts)
    finish ts
    return .select table columns filter

def update (source : List Char) (ts : Tokens) : Except Fault Command :=
  labelled "UPDATE" do
    let (table, ts) ← name "table name" ts
    let ts ← keyword "SET" ts
    let (column, ts) ← name "column name" ts
    let ts ← symbol .equals "'='" ts
    let (v, ts) ← value source endsAssignedValue ts
    if atKind .comma ts then throw .severalAssignments
    let ts ← keyword "WHERE" ts
    let (filter, ts) ← conditions source ts
    finish ts
    return .update table column v filter

def delete (source : List Char) (ts : Tokens) : Except Fault Command :=
  labelled "DELETE" do
    let ts ← keyword "FROM" ts
    let (table, ts) ← name "table name" ts
    let ts ← keyword "WHERE" ts
    let (filter, ts) ← conditions source ts
    finish ts
    return .delete table filter

def drop (ts : Tokens) : Except Fault Command := do
  let ts ← labelled "DROP" (keyword "TABLE" ts)
  labelled "DROP TABLE" do
    let (table, ts) ← name "table name" ts
    finish ts
    return .dropTable table

inductive Verb where
  | create
  | use
  | insert
  | select
  | update
  | delete
  | drop
  deriving DecidableEq, Repr

def Verb.ofWord? : String → Option Verb
  | "CREATE" => some .create
  | "USE" => some .use
  | "INSERT" => some .insert
  | "SELECT" => some .select
  | "UPDATE" => some .update
  | "DELETE" => some .delete
  | "DROP" => some .drop
  | _ => none

def Verb.read (source : List Char) (ts : Tokens) : Verb → Except Fault Command
  | .create => Statement.create source ts
  | .use => Statement.use ts
  | .insert => Statement.insert source ts
  | .select => Statement.select source ts
  | .update => Statement.update source ts
  | .delete => Statement.delete source ts
  | .drop => Statement.drop ts

/-- The first word in upper case, without semicolons at its end. -/
def leadingWord (source : List Char) : String :=
  String.ofList (Text.upper (Text.dropRightWhile (· == ';') (Text.firstWord source)))

/-- Reads the tokens of a statement; the first one is its verb and is stepped over. -/
def ofTokens (word : String) (verb : Verb) (source : List Char) :
    Tokens → Except Fault Command
  | [] => .error (.malformed word .unexpectedEnd)
  | _ :: ts => verb.read source ts

def parse (text : String) : Except Fault Command :=
  let source := Text.trim text.toList
  if source.isEmpty then .error .empty
  else
    let word := leadingWord source
    match Verb.ofWord? word with
    | none => .error (.unknownCommand word)
    | some verb =>
      match Token.tokenize source with
      | .error unclosed => .error (.malformed word (.unclosed (unclosed.context source)))
      | .ok tokens => ofTokens word verb source tokens

end Cellstore.Statement
