import Cellstore.Bucket
import Cellstore.Path
import Cellstore.Store.Fault

/-! Directories and files.
Everything has a place: a path below the working directory or below the top. A path is
followed part by part through directories that are there, so double dots lead back up only
from a directory. -/
namespace Cellstore
open Text.Utf8 (encode)

inductive Node where
  | directory
  /-- An empty file. It can become a database. -/
  | blank
  | foreign
  | database (contents : Contents)

structure Disk where
  nodes : SortedMap String Node

inductive DirectoryFault where
  | missing
  | fileExists
  | notDirectory
  | nameTooLong
  deriving DecidableEq, Repr

namespace Disk

/-- Nothing but the working directory and the top. -/
def empty : Disk := ⟨.empty⟩

def nameLimit : Nat := 255

def pathLimit : Nat := 4095

/-- One step down a path, as a stack with the deepest part first. -/
def descend (root : Root) (stack : List String) (part : String) : List String :=
  if part ≠ ".." then part :: stack
  else match stack with
    | [] => if root = .relative then [".."] else []
    | ".." :: _ => ".." :: stack
    | _ :: rest => rest

def place (root : Root) (stack : List String) : String :=
  if root = .relative then if stack = [] then "." else "/".intercalate stack.reverse
  else "/" ++ "/".intercalate stack.reverse

def placeOf (p : Path) : String := place p.root (p.parts.foldl (descend p.root) [])

/-- Is this the working directory or the top, or a directory above them? -/
def isAbove (stack : List String) : Bool := stack.all (· == "..")

/-- What stands at the end of a stack. The directories above are always there. -/
def node? (d : Disk) (root : Root) (stack : List String) : Option Node :=
  if isAbove stack then some .directory else d.nodes.get? (place root stack)

def get? (d : Disk) (place : String) : Option Node := d.nodes.get? place

def set (d : Disk) (place : String) (node : Node) : Disk := ⟨d.nodes.insert place node⟩

def erase (d : Disk) (place : String) : Disk := ⟨d.nodes.erase place⟩

/-- The contents of the database at a place; there are none where no database is. -/
def contents (d : Disk) (place : String) : Contents :=
  match d.get? place with
  | some (.database c) => c
  | _ => .empty

def walk (d : Disk) (root : Root) : List String → List String → Except DirectoryFault (List String)
  | stack, [] => .ok stack
  | stack, part :: rest =>
    if nameLimit < (encode part).length then .error .nameTooLong
    else
      let stack := descend root stack part
      match d.node? root stack with
      | some .directory => walk d root stack rest
      | some _ => .error .notDirectory
      | none => .error .missing

def isTooLong (p : Path) : Bool := pathLimit < (encode p.toText).length

def isDirectory (d : Disk) (p : Path) : Except StoreFault Bool :=
  if isTooLong p then .error (.nameTooLong p.toText)
  else match d.walk p.root [] p.parts with
    | .ok _ => .ok true
    | .error .nameTooLong => .error (.nameTooLong p.toText)
    | .error _ => .ok false

/-- Makes the directory at a path, if the one above is there. -/
def makeOne (d : Disk) (p : Path) : Except DirectoryFault Disk :=
  if isTooLong p then .error .nameTooLong
  else match d.walk p.root [] p.parts.dropLast, p.parts.getLast? with
    | .error fault, _ => .error fault
    | .ok _, none => .ok d
    | .ok stack, some part =>
      if nameLimit < (encode part).length then .error .nameTooLong
      else
        let stack := descend p.root stack part
        match d.node? p.root stack with
        | some .directory => .ok d
        | some _ => .error .fileExists
        | none => .ok (d.set (place p.root stack) .directory)

def directoryFault (p : Path) : DirectoryFault → OpenFault
  | .fileExists => .fileExists p.toText
  | .nameTooLong => .store (.nameTooLong p.toText)
  | .missing => .notDirectory p.toText
  | .notDirectory => .notDirectory p.toText

/-- Makes the directory at a path and those above it, as far as they are missing. What was
made before a failure stays. -/
def makeAll (d : Disk) (p : Path) : Except OpenFault Unit × Disk :=
  match d.makeOne p with
  | .ok d => (.ok (), d)
  | .error .missing =>
    if h : p.parts = [] then (.ok (), d)
    else
      have : p.parent.parts.length < p.parts.length := by
        have := List.length_pos_iff.mpr h
        simp only [Path.parent, List.length_dropLast]
        omega
      match makeAll d p.parent with
      | (.error fault, d) => (.error fault, d)
      | (.ok (), d) => match d.makeOne p with
        | .ok d => (.ok (), d)
        | .error fault => (.error (directoryFault p fault), d)
  | .error fault => (.error (directoryFault p fault), d)
termination_by p.parts.length

/-- Makes a directory. Nothing is made for a path with the character zero. -/
def makeDirectories (d : Disk) (p : Path) : Except OpenFault Unit × Disk :=
  if '\x00' ∈ p.toText.toList then (.error (.store .embeddedNull), d) else d.makeAll p

def listing (d : Disk) : List String :=
  d.nodes.keys.filter fun k => !(k.startsWith "/" || k.startsWith "../")

@[simp] theorem get?_set_self (d : Disk) (place : String) (node : Node) :
    (d.set place node).get? place = some node := SortedMap.get?_insert_self ..

theorem get?_set_of_ne (d : Disk) {place other : String} (node : Node) (h : place ≠ other) :
    (d.set place node).get? other = d.get? other := SortedMap.get?_insert_of_ne _ _ h

@[simp] theorem contents_set_self (d : Disk) (place : String) (c : Contents) :
    (d.set place (.database c)).contents place = c := by
  rw [contents, get?_set_self]

theorem contents_set_of_ne (d : Disk) {place other : String} (node : Node) (h : place ≠ other) :
    (d.set place node).contents other = d.contents other := by
  rw [contents, contents, get?_set_of_ne _ _ h]

end Disk
end Cellstore
