import Cellstore.Token.Keyword
import Cellstore.Token.Reserved

/-! From the characters of a statement to its tokens.
White space separates tokens and is dropped. There are no line comments and no ordinary
block comments; two bracket forms are skipped, template comments and optimizer hints. After
a command word that starts an embedded command, everything up to the next semicolon is one
string token. -/
namespace Cellstore.Token
open Cellstore.Text (isBlank trim upper)

inductive Unclosed where
  /-- The opening quote is the last character. -/
  | atOpening
  /-- The last two characters are a doubled quote inside the quotation. -/
  | atDoubledQuote
  | inQuotation
  | inComment
  deriving DecidableEq, Repr

def Unclosed.position (size : Nat) : Unclosed → Nat
  | .atOpening => size + 1
  | .atDoubledQuote => size - 1
  | .inQuotation => size
  | .inComment => size + 1

/-- The last fifty characters before that place; the statement's last one is never shown. -/
def Unclosed.context (u : Unclosed) (source : List Char) : String :=
  String.ofList ((source.take (source.length - 1)).drop (u.position source.length - 50))

/-- What stands at the head of a text: the number of characters it covers and the token it
gives. White space and comments give none. -/
structure Lexeme where
  size : Nat
  token : Option (Kind × List Char)
  deriving DecidableEq, Repr

/-- The content of a quotation and the characters it takes after the opening quote. A
doubled quote stands for one; `fault` is reported if the text ends here. -/
def quotation (q : Char) (fault : Unclosed) : List Char → Except Unclosed (List Char × Nat)
  | [] => .error fault
  | c :: rest =>
    if c = q then
      match rest with
      | [] => .ok ([], 1)
      | d :: rest =>
        if d = q then
          (quotation q .atDoubledQuote rest).map fun r => (q :: r.1, r.2 + 2)
        else .ok ([], 1)
    else (quotation q .inQuotation rest).map fun r => (c :: r.1, r.2 + 1)

/-- The characters that a comment takes after its opening. With `nests`, further openings
`#` after a brace have to be closed too. -/
def commentSize (nests : Bool) (close : Char × Char) (depth : Nat) :
    List Char → Except Unclosed Nat
  | a :: b :: rest =>
    if (a, b) = close ∧ depth ≤ 1 then .ok 2
    else
      let depth := if (a, b) = close then depth - 1 else depth
      match rest with
      | c :: rest =>
        if nests ∧ b = '\x7b' ∧ c = '#' then
          (commentSize nests close (depth + 1) rest).map (· + 3)
        else (commentSize nests close depth (b :: c :: rest)).map (· + 1)
      | [] => .error .inComment
  | _ => .error .inComment

/-- The further characters of a number: digits, one point, and one exponent with a sign
that a digit has to follow. `exponent` counts the exponent mark and its sign; after the
sign `@` a point is no part of a number. -/
def numberSize (afterParameter point : Bool) (exponent : Nat) : List Char → Nat
  | [] => 0
  | c :: rest =>
    if c.isDigit then numberSize afterParameter point exponent rest + 1
    else if c = '.' ∧ !point then
      if afterParameter then 0 else numberSize afterParameter true exponent rest + 1
    else if (c = '+' ∨ c = '-') ∧ exponent = 1 then
      if (rest.head?.map Char.isDigit).getD false then
        numberSize afterParameter point 2 rest + 1
      else 0
    else if (c = 'e' ∨ c = 'E') ∧ exponent = 0 then numberSize afterParameter point 1 rest + 1
    else 0

def markKind : Char → Kind
  | '(' => .leftParen
  | ')' => .rightParen
  | ',' => .comma
  | '*' => .star
  | '=' => .equals
  | ';' => .semicolon
  | '@' => .parameter
  | _ => .other

/-- Words after which, at the start of a statement, the rest is swallowed unread. -/
def commandWords : List String :=
  ["CALL", "EXPLAIN", "OPTIMIZE", "PREPARE", "VACUUM", "EXECUTE", "FETCH", "SHOW", "RENAME"]

def statementWords : List String := ["SELECT", "INSERT", "UPDATE", "DELETE"]

/-- The kind of a bare word; after the sign `@` every word is a plain one. -/
def wordKind (previous : Option Kind) (w : List Char) : Kind :=
  let keyword := String.ofList (upper w)
  if previous = some .parameter then .word
  else if commandWords.contains keyword then .command
  else if statementWords.contains keyword then .statement
  else if keyword = "BEGIN" then .blockStart
  else if reservedWords.contains keyword then .other
  else .word

def plainLexeme (previous : Option Kind) (c : Char) (rest : List Char) : Lexeme :=
  if isMark c then ⟨1, some (markKind c, [c])⟩
  else
    let w := c :: rest.takeWhile fun d => !isBlank d && !isMark d
    ⟨w.length, some (wordKind previous w, w)⟩

def lexeme (previous : Option Kind) (c : Char) (rest : List Char) : Except Unclosed Lexeme :=
  if isBlank c then .ok ⟨1, none⟩
  else if c.isDigit then
    let n := numberSize (previous = some .parameter) false 0 rest
    .ok ⟨n + 1, some (.other, c :: rest.take n)⟩
  else if c = '"' then
    (quotation '"' .atOpening rest).map fun r => ⟨r.2 + 1, some (.identifier, r.1)⟩
  else
    let m := matchEntry c rest
    match m.entry with
    | none => .ok (plainLexeme previous c rest)
    | some w =>
      if w = ['\''] then
        (quotation '\'' .atOpening rest).map fun r => ⟨r.2 + 1, some (.string, r.1)⟩
      else if w.map Char.toUpper = ['N', '\''] then
        (quotation '\'' .atOpening (rest.drop 1)).map fun r => ⟨r.2 + 2, some (.other, r.1)⟩
      else if w = ['\x7b', '#'] then
        (commentSize true ('#', '\x7d') 1 (rest.drop 1)).map fun n => ⟨n + 2, none⟩
      else if w = ['/', '*', '+'] then
        (commentSize false ('*', '/') 1 (rest.drop 2)).map fun n =>
          if previous = some .statement then ⟨n + 3, some (.other, c :: rest.take (n + 2))⟩
          else ⟨n + 3, none⟩
      else if m.bounded then
        .ok ⟨m.size, some (if w = ['=', '='] then .equals else .other, w.map Char.toUpper)⟩
      else .ok (plainLexeme previous c rest)

def swallows (previous : Option Kind) (kind : Kind) (rest : List Char) : Bool :=
  kind == .command && rest.head? != some ';' &&
    (previous == none || previous == some .semicolon || previous == some .blockStart)

/-- The number of characters up to the semicolon that ends an embedded command. Quotations
and comments are skipped whole, and an unclosed one is a fault here too. -/
def swallowed (previous : Option Kind) : List Char → Except Unclosed Nat
  | [] => .ok 0
  | c :: rest => do
    let x ← lexeme previous c rest
    let after := rest.drop (x.size - 1)
    if after.head? = some ';' then return x.size
    else
      let n ← swallowed ((x.token.map (·.1)) <|> previous) after
      return x.size + n
termination_by s => s.length
decreasing_by simp only [List.length_drop, List.length_cons]; omega

/-- The tokens of a text whose first character stands at place `start` of the statement. -/
def scan (previous : Option Kind) (start : Nat) : List Char → Except Unclosed (List Token)
  | [] => .ok []
  | c :: rest => do
    let x ← lexeme previous c rest
    let after := rest.drop (x.size - 1)
    let stop := start + x.size
    match x.token with
    | none => scan previous stop after
    | some (kind, text) =>
      let token : Token := ⟨kind, String.ofList text, start, stop⟩
      if swallows previous kind after then
        let n ← swallowed (some kind) after
        let text := trim (after.take n)
        if text.isEmpty then
          let tokens ← scan (some kind) (stop + n) (after.drop n)
          return token :: tokens
        else
          let tokens ← scan (some .string) (stop + n) (after.drop n)
          return token :: ⟨.string, String.ofList text, stop, stop + n⟩ :: tokens
      else
        let tokens ← scan (some kind) stop after
        return token :: tokens
termination_by s => s.length
decreasing_by all_goals simp only [List.length_drop, List.length_cons]; omega

def tokenize (source : List Char) : Except Unclosed (List Token) := scan none 0 source

end Cellstore.Token
