import Cellstore.Text.Blank
import Cellstore.Token

/-! Multi-character symbols and phrases, and the longest one at the head of a text.
Phrases are matched in any ASCII case, and a run of blanks in the text counts as the one
space of the phrase. -/
namespace Cellstore.Token
open Cellstore.Text (isBlank)

/-- The punctuation marks. Each is a token by itself and ends the word before it. -/
def marks : List Char := "()[]\x7b\x7d&^:,.-=<>%!|+;/\\*~?@#'`\"".toList

def isMark (c : Char) : Bool := marks.contains c

def symbols : List String := [
  "&<", "&>", "==", "::", "?::", "||", "|>", ">=", "<=", "<>", "!=", ":=", "<=>", "->", "->>",
  "=>", "#>", "#>>", "<->", "<<->>", "&&", "??", "~~~", "~~", "~~*", "~*", "-|-", "\x7b%",
  "\x7b%+", "\x7b%-", "%\x7d", "+%\x7d", "-%\x7d", "\x7b\x7b+", "\x7b\x7b-", "+\x7d\x7d",
  "-\x7d\x7d"]

def phrases : List String := [
  "CLUSTER BY", "CONNECT BY", "DISTRIBUTE BY", "FOREIGN KEY", "GROUP BY", "GROUPING SETS",
  "ORDER BY", "PARTITION BY", "PARTITIONED BY", "PRIMARY KEY", "SIMILAR TO", "SORT BY",
  "SQL SECURITY", "DOUBLE PRECISION", "CHAR VARYING", "CHARACTER VARYING", "USER-DEFINED"]

def openers : List String := ["\x7b#", "/*+", "'", "N'"]

/-- All texts that are matched as a whole before single marks and words are. -/
def entries : List (List Char) := (symbols ++ phrases ++ openers).map String.toList

def opensEntry (s : List Char) : Bool := entries.any (s.map Char.toUpper).isPrefixOf

def isEntry (s : List Char) : Bool := entries.contains (s.map Char.toUpper)

/-- A matched entry: its characters as written, with single spaces; the number of
characters it covers; and whether what follows cannot belong to the same word. -/
structure Match where
  entry : Option (List Char)
  size : Nat
  bounded : Bool
  deriving DecidableEq, Repr

/-- Follows the entries along the text. `seen` are the characters so far with runs of
blanks as one space, `size` counts the characters after the first, `blank` tells whether the
last one was blank, and `marked` whether a mark was among them. -/
def follow (seen : List Char) (size : Nat) (entry : Option (List Char)) (blank marked : Bool) :
    List Char → Match
  | [] =>
    if opensEntry seen then ⟨if isEntry seen then some seen else entry, size + 1, true⟩
    else ⟨entry, size, blank || marked⟩
  | c :: rest =>
    if opensEntry seen then
      let entry := if isEntry seen then some seen else entry
      let marked := marked || isMark c
      if isBlank c then
        if blank then follow seen (size + 1) entry true marked rest
        else follow (seen ++ [' ']) (size + 1) entry true marked rest
      else follow (seen ++ [c]) (size + 1) entry false marked rest
    else ⟨entry, size, blank || marked⟩

def matchEntry (c : Char) (rest : List Char) : Match := follow [c] 0 none false (isMark c) rest

end Cellstore.Token
