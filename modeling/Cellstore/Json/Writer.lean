import Cellstore.Json
import Cellstore.Text.Quoted

/-! Writing lists of strings as JSON in ASCII characters.
The items stand in brackets with a comma and a space between them. Whatever is no visible
ASCII character is escaped, by a short escape if there is one. -/
namespace Cellstore.Json
open Cellstore.Text.Quoted (hex)

def writeUnit (u : UInt16) : List Char :=
  let n := u.toNat
  if n = 0x22 then ['\\', '"']
  else if n = 0x5C then ['\\', '\\']
  else if 0x20 ≤ n ∧ n ≤ 0x7E then [Char.ofNat n]
  else if n = 0x0A then ['\\', 'n']
  else if n = 0x0D then ['\\', 'r']
  else if n = 0x09 then ['\\', 't']
  else if n = 0x0C then ['\\', 'f']
  else if n = 0x08 then ['\\', 'b']
  else '\\' :: 'u' :: hex 4 n

def writeString (s : Units) : List Char := '"' :: s.flatMap writeUnit ++ ['"']

def writeMore : List Units → List Char
  | [] => []
  | s :: rest => ',' :: ' ' :: writeString s ++ writeMore rest

def writeStrings : List Units → String
  | [] => "[]"
  | s :: rest => String.ofList ('[' :: writeString s ++ writeMore rest ++ [']'])

end Cellstore.Json
