import Cellstore.Text.Printable
import Cellstore.Text.Utf8

/-! Quoted forms of texts and byte strings, as messages show them.
The quote is single unless the content has single quotes and no double ones. The quote
and the backslash are escaped, and so is everything that would not show. -/
namespace Cellstore.Text.Quoted
open Utf8 (hexDigit hexByte)

def quoteFor (s : List Char) : Char :=
  if '\'' ∈ s ∧ '"' ∉ s then '"' else '\''

def hex : Nat → Nat → List Char
  | 0, _ => []
  | width + 1, n => hex width (n / 16) ++ [hexDigit (n % 16)]

/-- The shortest of the three numeric escapes that holds the code point. -/
def numeric (c : Char) : List Char :=
  let n := c.toNat
  if n < 0x100 then '\\' :: 'x' :: hex 2 n
  else if n < 0x10000 then '\\' :: 'u' :: hex 4 n
  else '\\' :: 'U' :: hex 8 n

def character (q c : Char) : List Char :=
  if c = q ∨ c = '\\' then ['\\', c]
  else if c = '\n' then ['\\', 'n']
  else if c = '\r' then ['\\', 'r']
  else if c = '\t' then ['\\', 't']
  else if isPrintable c then [c]
  else numeric c

def text (s : String) : String :=
  let q := quoteFor s.toList
  String.ofList (q :: s.toList.flatMap (character q) ++ [q])

/-- One byte between quotes `q`; only the visible part of ASCII stands for itself. -/
def byte (q : Char) (b : UInt8) : List Char :=
  if 0x80 ≤ b.toNat then '\\' :: 'x' :: hexByte b else character q (Char.ofNat b.toNat)

def bytes (bs : Bytes) : String :=
  let q := quoteFor (bs.map fun b => Char.ofNat b.toNat)
  String.ofList ('b' :: q :: bs.flatMap (byte q) ++ [q])

def texts (names : List String) : String :=
  "[" ++ ", ".intercalate (names.map text) ++ "]"

end Cellstore.Text.Quoted
