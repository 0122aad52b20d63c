import Cellstore.Disk.Opening

/-! Where databases are kept: in files below a working directory, or in memory.
In memory a database goes by the text of its path alone. -/
namespace Cellstore

inductive Backend where
  | file
  | memory
  deriving DecidableEq, Repr

namespace Backend

def label : Backend → String
  | .file => "sqlite"
  | .memory => "memory"

def counting : Backend → Counting
  | .file => .signed64
  | .memory => .endless

end Backend

structure Storage where
  backend : Backend
  disk : Disk

namespace Storage

def empty (backend : Backend) : Storage := ⟨backend, .empty⟩

def placeOf (s : Storage) (p : Path) : String :=
  match s.backend with
  | .memory => p.toText
  | .file => Disk.placeOf p

def contents (s : Storage) (place : String) : Contents := s.disk.contents place

def setContents (s : Storage) (place : String) (c : Contents) : Storage :=
  { s with disk := s.disk.set place (.database c) }

/-- Puts a node at a path, in the stead of what is there. -/
def setNode (s : Storage) (p : Path) (node : Node) : Storage :=
  { s with disk := s.disk.set (s.placeOf p) node }

/-- Makes a directory. Databases in memory need none. -/
def makeDirectories (s : Storage) (p : Path) : Except OpenFault Unit × Storage :=
  match s.backend with
  | .memory => (.ok (), s)
  | .file =>
    let (outcome, disk) := s.disk.makeDirectories p
    (outcome, { s with disk := disk })

def create (s : Storage) (place : String) : Storage :=
  match s.disk.get? place with
  | some _ => s
  | none => s.setContents place .empty

/-- Opens the database at a path in a data directory, and gives its place. Files need the
directory, which is made if it is missing; a database that is not there is made as well. -/
def open_ (s : Storage) (directory p : Path) : Except OpenFault String × Storage :=
  match s.backend with
  | .memory => (.ok p.toText, s.create p.toText)
  | .file => match s.disk.makeDirectories directory with
    | (.error fault, disk) => (.error fault, { s with disk := disk })
    | (.ok (), disk) =>
      let (outcome, disk) := disk.openDatabase none p
      (outcome.mapError .store, { s with disk := disk })

def close (s : Storage) (place : String) : Storage :=
  match s.backend with
  | .memory => s
  | .file => { s with disk := s.disk.release place }

def listing (s : Storage) : List String := s.disk.listing

end Storage
end Cellstore
