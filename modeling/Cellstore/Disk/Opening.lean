import Cellstore.Disk
import Cellstore.Disk.Address

/-! Opening databases in files.
The path of a database is cut short by its text alone: double dots drop the part before
them. A file that is missing is made empty, and becomes a database as soon as nothing stands
in the way of its first write. -/
namespace Cellstore.Disk
open Text.Utf8 (encode)

def journalSuffix : String := "-journal"

def logSuffix : String := "-wal"

/-- Full paths of databases have at most this many bytes, and eight more on the way. -/
def fullLimit : Nat := 504

/-- The bytes that the path of the working directory takes. -/
def workingSize : Nat := 16

def fullSize (root : Root) (stack : List String) : Nat :=
  stack.foldr (fun part size => size + (encode part).length + 1)
    (if root = .relative then workingSize else 0)

/-- Can one part more be looked up? It cannot be below a file, and not be too long. -/
def admits (d : Disk) (root : Root) (stack : List String) (part : String) : Bool :=
  fullSize root (part :: stack) < fullLimit + 8 &&
    match d.node? root stack with
    | some .directory => (encode part).length ≤ nameLimit
    | some _ => false
    | none => true

def resolve (d : Disk) (root : Root) : List String → List String → Option (List String)
  | stack, [] => some stack
  | stack, part :: rest =>
    if part = ".." ∨ d.admits root stack part then resolve d root (descend root stack part) rest
    else none

/-- The place of the file at an address. A missing file is made if the address allows it. -/
def reach (d : Disk) (a : Address) : Except Trouble String × Disk :=
  let p := Path.ofText a.path
  match d.resolve p.root [] p.parts with
  | none => (.error .cannotOpenFile, d)
  | some stack =>
    let place := place p.root stack
    if fullLimit < fullSize p.root stack ∨ place = "/" then (.error .cannotOpenFile, d)
    else match d.node? p.root stack, d.node? p.root stack.tail with
      | some .directory, _ =>
        (.error (if a.mode = .read then .inputOutput else .cannotOpenFile), d)
      | some _, some .directory => (.ok place, d)
      | none, some .directory =>
        if a.mode = .create then (.ok place, d.set place .blank) else (.error .cannotOpenFile, d)
      | _, _ => (.error .cannotOpenFile, d)

def isDirectoryAt (d : Disk) (place : String) : Bool :=
  match d.get? place with
  | some .directory => true
  | _ => false

def hasRoomForJournal (place : String) : Bool :=
  let name := (place.splitOn "/").getLast?.getD place
  (encode (name ++ journalSuffix)).length ≤ nameLimit

def obstacle? (d : Disk) (locked : Option String) (a : Address) (place : String) : Option Trouble :=
  let journal := !a.isFixed && d.isDirectoryAt (place ++ journalSuffix)
  let log := !a.isFixed && d.isDirectoryAt (place ++ logSuffix)
  if a.heedsLocks && locked == some place then some .locked
  else match d.get? place with
    | some .blank =>
      if log then some .inputOutput
      else if a.isReadOnly then some .readOnlyFile
      else if journal ∨ !hasRoomForJournal place then some .cannotOpenFile
      else none
    | some (.database _) =>
      if journal then some .inputOutput else if log then some .cannotOpenFile else none
    | _ =>
      if journal then some .inputOutput
      else if log then some .cannotOpenFile
      else some .notDatabase

def sweep (d : Disk) (place : String) : Disk :=
  match d.get? place with
  | some .directory => d
  | _ => d.erase place

/-- Makes the file at a place a database, if it is none, and removes what was left of its
journal and its log. -/
def settle (d : Disk) (a : Address) (place : String) : Disk :=
  let d := if a.isFixed then d else (d.sweep (place ++ journalSuffix)).sweep (place ++ logSuffix)
  match d.get? place with
  | some .blank => d.set place (.database .empty)
  | _ => d

/-- Private databases are kept under the empty name, one at a time. -/
def privatePlace : String := ""

def openAddress (d : Disk) (locked : Option String) (a : Address) : Except Trouble String × Disk :=
  if a.isPrivate then
    if a.isReadOnly then (.error .readOnlyFile, d)
    else (.ok privatePlace, d.set privatePlace (.database .empty))
  else match d.reach a with
    | (.error trouble, d) => (.error trouble, d)
    | (.ok place, d) => match d.obstacle? locked a place with
      | some trouble => (.error trouble, d)
      | none => (.ok place, d.settle a place)

/-- Opens the database that a path names, and gives its place. Others may hold the file at
one place. -/
def openDatabase (d : Disk) (locked : Option String) (p : Path) : Except StoreFault String × Disk :=
  let text := p.toText
  if '\x00' ∈ text.toList then (.error .embeddedNull, d)
  else match d.isDirectory p with
    | .error fault => (.error fault, d)
    | .ok true => (.error (.directory text), d)
    | .ok false => match Address.ofText text with
      | .error trouble => (.error (.opening text trouble), d)
      | .ok a => match d.openAddress locked a with
        | (.error trouble, d) => (.error (.opening text trouble), d)
        | (.ok place, d) => (.ok place, d)

/-- Forgets a database that is closed, if nothing else can reach it. -/
def release (d : Disk) (place : String) : Disk :=
  if place = privatePlace then d.erase place else d

end Cellstore.Disk
