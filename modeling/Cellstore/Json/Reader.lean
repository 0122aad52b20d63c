import Cellstore.Json
import Cellstore.Text.Digit

/-! Reading JSON.
Blanks are the space, the tab, the line feed and the carriage return. Control characters do
not stand unescaped in strings. The words `NaN`, `Infinity` and `-Infinity` are numbers.
An integer may have at most 4300 digits. How deeply brackets may be nested is up to the stack
that is left to the reader. -/
namespace Cellstore.Json
open Text (hexValue?)

def digitLimit : Nat := 4300

/-- The stack that is left to a reader, by the brackets that may stand around each other. A list
finds room in any case. -/
class Room where
  brackets : Nat
  positive : 0 < brackets

/-- A stack is good for a thousand calls. Every bracket takes one, and the program is in some. -/
instance Room.standard : Room := ⟨980, by decide⟩

/-- What one more call leaves, which takes as much as a bracket. -/
abbrev Room.further [Room] : Room where
  brackets := max 1 (Room.brackets - 1)
  positive := Nat.le_max_left ..

inductive Bracket where
  | array
  | object
  deriving DecidableEq, Repr

def Bracket.label : Bracket → String
  | .array => "array"
  | .object => "object"

inductive Fault where
  | malformed
  /-- This bracket stands inside too many others. What follows it was not looked at. -/
  | tooDeep (b : Bracket)
  deriving DecidableEq, Repr

def isBlank (c : Char) : Bool := c == ' ' || c == '\t' || c == '\n' || c == '\r'

def skipBlanks (s : List Char) : List Char := s.dropWhile isBlank

def after? : List Char → List Char → Option (List Char)
  | [], s => some s
  | _ :: _, [] => none
  | w :: word, c :: s => if w = c then after? word s else none

def shortEscape? : Char → Option Char
  | '"' => some '"'
  | '\\' => some '\\'
  | '/' => some '/'
  | 'b' => some '\x08'
  | 'f' => some '\x0c'
  | 'n' => some '\n'
  | 'r' => some '\r'
  | 't' => some '\t'
  | _ => none

def stringTail : List Char → Option (Units × List Char)
  | [] => none
  | '"' :: rest => some ([], rest)
  | '\\' :: 'u' :: a :: b :: c :: d :: rest => do
    let n := (← hexValue? a) * 0x1000 + (← hexValue? b) * 0x100 + (← hexValue? c) * 0x10 +
      (← hexValue? d)
    let (s, rest) ← stringTail rest
    return (UInt16.ofNat n :: s, rest)
  | '\\' :: e :: rest => do
    let c ← shortEscape? e
    let (s, rest) ← stringTail rest
    return (charUnits c ++ s, rest)
  | c :: rest =>
    if c = '\\' ∨ c.toNat < 0x20 then none
    else do
      let (s, rest) ← stringTail rest
      return (charUnits c ++ s, rest)

def digits (s : List Char) : List Char × List Char :=
  (s.takeWhile Char.isDigit, s.dropWhile Char.isDigit)

def fraction (s : List Char) : List Char × List Char :=
  match s with
  | '.' :: rest => if (digits rest).1.isEmpty then ([], s) else digits rest
  | _ => ([], s)

def exponent? (s : List Char) : Option (Int × List Char) :=
  match s with
  | e :: rest =>
    if e = 'e' ∨ e = 'E' then
      let (negative, rest) := match rest with
        | '-' :: rest => (true, rest)
        | '+' :: rest => (false, rest)
        | _ => (false, rest)
      let (ds, rest) := digits rest
      if ds.isEmpty then none
      else
        let n : Int := Nat.ofDigitChars 10 ds 0
        some (if negative then -n else n, rest)
    else none
  | [] => none

def unsigned (negative : Bool) (s : List Char) : Option (Value × List Char) :=
  let (whole, rest) := match s with
    | '0' :: rest => (['0'], rest)
    | _ => digits s
  if whole.isEmpty then none
  else
    let (places, rest) := fraction rest
    match exponent? rest with
    | some (e, rest) =>
      some (.decimal negative (Nat.ofDigitChars 10 (whole ++ places) 0) (e - places.length), rest)
    | none =>
      if places.isEmpty then
        if digitLimit < whole.length then none
        else
          let n : Int := Nat.ofDigitChars 10 whole 0
          some (.integer (if negative then -n else n), rest)
      else
        some (.decimal negative (Nat.ofDigitChars 10 (whole ++ places) 0) (-places.length), rest)

def scalar (s : List Char) : Option (Value × List Char) :=
  match s with
  | 'n' :: 'u' :: 'l' :: 'l' :: rest => some (.null, rest)
  | 't' :: 'r' :: 'u' :: 'e' :: rest => some (.bool true, rest)
  | 'f' :: 'a' :: 'l' :: 's' :: 'e' :: rest => some (.bool false, rest)
  | 'N' :: 'a' :: 'N' :: rest => some (.special .nan, rest)
  | 'I' :: rest => (after? "nfinity".toList rest).map (.special .infinity, ·)
  | '-' :: 'I' :: rest => (after? "nfinity".toList rest).map (.special .negativeInfinity, ·)
  | '-' :: rest => unsigned true rest
  | _ => unsigned false s

/-- A reading that needs to know nothing about a failure but that there is one. -/
def orMalformed {α : Type} : Option α → Except Fault α
  | some a => .ok a
  | none => .error .malformed

variable [Room]

mutual

/-- A value at the head of a text, and the text after it. A character is taken in every second
step at least, so twice the length of the text is enough fuel. Around the value stand `depth` open
brackets. -/
def value (depth : Nat) : Nat → List Char → Except Fault (Value × List Char)
  | 0, _ => .error .malformed
  | fuel + 1, s =>
    match s with
    | '"' :: rest => (orMalformed (stringTail rest)).map fun r => (.string r.1, r.2)
    | '[' :: rest =>
      if Room.brackets ≤ depth then .error (.tooDeep .array)
      else match skipBlanks rest with
      | ']' :: rest => .ok (.array [], rest)
      | rest => (elements (depth + 1) fuel rest).map fun r => (.array r.1, r.2)
    | '\x7b' :: rest =>
      if Room.brackets ≤ depth then .error (.tooDeep .object)
      else match skipBlanks rest with
      | '\x7d' :: rest => .ok (.object [], rest)
      | rest => (members (depth + 1) fuel rest).map fun r => (.object r.1, r.2)
    | _ => orMalformed (scalar s)

def elements (depth : Nat) : Nat → List Char → Except Fault (List Value × List Char)
  | 0, _ => .error .malformed
  | fuel + 1, s =>
    match value depth fuel s with
    | .error fault => .error fault
    | .ok (v, rest) =>
      match skipBlanks rest with
      | ']' :: rest => .ok ([v], rest)
      | ',' :: rest => (elements depth fuel (skipBlanks rest)).map fun r => (v :: r.1, r.2)
      | _ => .error .malformed

def members (depth : Nat) : Nat → List Char → Except Fault (List (Units × Value) × List Char)
  | 0, _ => .error .malformed
  | fuel + 1, s =>
    match s with
    | '"' :: rest =>
      match stringTail rest with
      | none => .error .malformed
      | some (key, rest) =>
        match skipBlanks rest with
        | ':' :: rest =>
          match value depth fuel (skipBlanks rest) with
          | .error fault => .error fault
          | .ok (v, rest) =>
            match skipBlanks rest with
            | '\x7d' :: rest => .ok ([(key, v)], rest)
            | ',' :: rest =>
              (members depth fuel (skipBlanks rest)).map fun r => ((key, v) :: r.1, r.2)
            | _ => .error .malformed
        | _ => .error .malformed
    | _ => .error .malformed

end

/-- The value that a whole text writes. A byte order mark is no blank, so it is refused. -/
def read (text : String) : Except Fault Value :=
  let s := text.toList
  match value 0 (2 * s.length + 1) (skipBlanks s) with
  | .error fault => .error fault
  | .ok (v, rest) => if (skipBlanks rest).isEmpty then .ok v else .error .malformed

end Cellstore.Json
