import Cellstore.Text.Uppercase

/-! Tokens of a statement.
A token remembers which characters of the statement it covers, because values and column
definitions are cut verbatim out of the statement between two tokens. -/
namespace Cellstore

inductive Token.Kind where
  /-- Text between single quotes, and the text that an embedded command swallows. -/
  | string
  /-- Text between double quotes. -/
  | identifier
  /-- A bare word that is not reserved. -/
  | word
  | leftParen
  | rightParen
  | comma
  | star
  | equals
  | semicolon
  /-- The sign `@`, which makes the next word a plain one. -/
  | parameter
  /-- The word BEGIN, after which an embedded command may start. -/
  | blockStart
  /-- One of the words SELECT, INSERT, UPDATE and DELETE. -/
  | statement
  /-- A word that can start an embedded command. -/
  | command
  /-- Numbers, operators, reserved words and everything else. -/
  | other
  deriving DecidableEq, Repr

/-- One token: its text and the half-open range of characters that it covers. -/
structure Token where
  kind : Token.Kind
  text : String
  start : Nat
  stop : Nat
  deriving DecidableEq, Repr

namespace Token

/-- Quoted tokens are never keywords, and alone they are a value without their quotes. -/
def isQuoted (t : Token) : Bool := t.kind == .string || t.kind == .identifier

def isKeyword (w : String) (t : Token) : Bool := !t.isQuoted && Text.upperText t.text == w

/-- The shape of plain names: an ASCII letter or underscore, then letters, digits,
underscores and dollar signs. One line break after them is overlooked. -/
def isPlainName (s : List Char) : Bool :=
  match s with
  | [] => false
  | c :: rest =>
    let body := if rest.getLast? = some '\n' then rest.dropLast else rest
    (c.isAlpha || c == '_') && body.all fun d => d.isAlphanum || d == '_' || d == '$'

/-- The name that a token spells, if it spells one. Names hold no colon, the separator of
stored keys. -/
def name? (t : Token) : Option String :=
  match t.kind with
  | .identifier => if t.text = "" || t.text.toList.contains ':' then none else some t.text
  | .word => some t.text
  | _ => if isPlainName t.text.toList then some t.text else none

def slice (source : List Char) (first last : Token) : String :=
  String.ofList ((source.drop first.start).take (last.stop - first.start))

end Token
end Cellstore
