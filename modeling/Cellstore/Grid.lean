import Cellstore.Engine

/-! Results as text.
A query result is a grid with aligned columns; long texts are clipped, and the width of a
column is that of its longest clipped text. -/
namespace Cellstore.Grid

/-- The first `n` characters; a negative `n` counts from the end. -/
def upTo (n : Int) (s : List Char) : List Char :=
  if n < 0 then s.take (s.length + n).toNat else s.take n.toNat

def ellipsis : List Char := ['.', '.', '.']

def clip (width : Int) (s : List Char) : List Char :=
  if width < s.length then upTo (width - 3) s ++ ellipsis else s

/-- Widens columns to hold a row. A row longer than the list of columns has no place. -/
def widen : List Nat → List (List Char) → Option (List Nat)
  | widths, [] => some widths
  | [], _ :: _ => none
  | w :: widths, v :: row => (widen widths row).map (max w v.length :: ·)

def widenAll (widths : List Nat) : List (List (List Char)) → Option (List Nat)
  | [] => some widths
  | row :: rows => match widen widths row with
    | some widths => widenAll widths rows
    | none => none

def enclose (border : Char) (fields : List (List Char)) : List Char :=
  border :: (fields.intersperse [border]).flatten ++ [border]

def rule (widths : List Nat) : List Char :=
  enclose '+' (widths.map fun w => List.replicate (w + 2) '-')

def field (w : Nat) (v : List Char) : List Char :=
  ' ' :: v ++ List.replicate (w - v.length) ' ' ++ [' ']

def line (widths : List Nat) (row : List (List Char)) : List Char :=
  enclose '|' (List.zipWith field widths row)

def footer (rows : Nat) : List Char := s!"{rows} row(s) returned".toList

/-- The lines of a grid. There is none if a row is longer than the list of headers. -/
def lines (width : Int) (headers : List String) (rows : List (List String)) :
    Option (List (List Char)) :=
  let headers := headers.map fun h => clip width h.toList
  let rows := rows.map fun row => row.map fun v => clip width v.toList
  match widenAll (headers.map (·.length)) rows with
  | none => none
  | some widths =>
    let top := [rule widths, line widths headers, rule widths]
    let bottom := if rows.isEmpty then [] else [rule widths]
    some (top ++ rows.map (line widths) ++ bottom ++ [footer rows.length])

def text (lines : List (List Char)) : String := String.ofList (lines.flatMap (· ++ ['\n']))

def defaultWidth : Int := 50

def failureLine (message : String) : List Char := "Error: ".toList ++ message.toList

def outcomeLines (width : Int) : Outcome → Option (List (List Char))
  | .selected headers rows => lines width headers (rows.map (·.values))
  | outcome => some (if outcome.message = "" then [] else [outcome.message.toList])

def render (width : Int) : Result → Option String
  | .error failure => some (text [failureLine failure.message])
  | .ok outcome => (outcomeLines width outcome).map text

end Cellstore.Grid
