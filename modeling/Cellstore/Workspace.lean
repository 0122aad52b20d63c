import Cellstore.Session
import Cellstore.Storage

/-! A session with the storage that it works on.
Every command runs in one transaction of the active store: an update replaces the contents
when it succeeds and leaves them alone when it fails. -/
namespace Cellstore

/-- The store of the active database. A store that was closed underneath its session begins
no transaction, and there is one transaction at a time. -/
structure OpenStore where
  path : Path
  place : String
  closed : Bool
  busy : Bool
  deriving DecidableEq

/-- Where databases are kept: the file of a database is its name with a suffix, in the data
directory. -/
structure Location where
  directory : Path
  suffix : String
  deriving DecidableEq

def Location.pathOf (l : Location) (name : String) : Path :=
  l.directory.join (Path.ofText (name ++ l.suffix))

/-- Stores in a storage. Closing always succeeds. -/
def Location.opener (l : Location) : Opener Storage OpenStore where
  pathOf := l.pathOf
  open_ p s := match s.open_ l.directory p with
    | (.ok place, s) => (.ok ⟨p, place, false, false⟩, s)
    | (.error fault, s) => (.error fault, s)
  close store s := (.ok (), s.close store.place)

structure Workspace where
  location : Location
  storage : Storage
  session : Session OpenStore

namespace Workspace

variable {α : Type}

def new (location : Location) (storage : Storage) : Workspace := ⟨location, storage, .empty⟩

def databaseName (w : Workspace) : Option String := w.session.databaseName

/-- Makes a database active, and gives the path of its file. -/
def use (w : Workspace) (name : String) : Except Failure Path × Workspace :=
  let (outcome, session, storage) := w.session.use w.location.opener name w.storage
  (outcome, { w with session := session, storage := storage })

def close (w : Workspace) : Except Failure Unit × Workspace :=
  let (outcome, session, storage) := w.session.close w.location.opener w.storage
  (outcome, { w with session := session, storage := storage })

def active (w : Workspace) : Except Failure (String × OpenStore) :=
  match w.session.active with
  | some entry => .ok entry
  | none => .error .noDatabase

def setStore (w : Workspace) (name : String) (store : OpenStore) : Workspace :=
  { w with session := { w.session with active := some (name, store) } }

def closeStore (w : Workspace) : Except Failure Unit × Workspace :=
  match w.active with
  | .error failure => (.error failure, w)
  | .ok (name, store) => (.ok (), w.setStore name { store with closed := true })

def begin (store : OpenStore) : Except StoreFault OpenStore :=
  if store.closed then .error (.closed store.path.toText)
  else if store.busy then .error .nested
  else .ok { store with busy := true }

def finish (store : OpenStore) : OpenStore := { store with busy := false }

def view (w : Workspace) (body : Contents → Except Failure α) : Except Failure α × Workspace :=
  match w.active with
  | .error failure => (.error failure, w)
  | .ok (name, store) => match begin store with
    | .error fault => (.error (.ofStore fault), w)
    | .ok store =>
      let w := w.setStore name store
      (body (w.storage.contents store.place), w.setStore name (finish store))

/-- Runs a block that writes. Its contents take effect only if it succeeds. -/
def update (w : Workspace) (body : Contents → Except Failure (α × Contents)) :
    Except Failure α × Workspace :=
  match w.active with
  | .error failure => (.error failure, w)
  | .ok (name, store) => match begin store with
    | .error fault => (.error (.ofStore fault), w)
    | .ok store =>
      let w := w.setStore name store
      match body (w.storage.contents store.place) with
      | .error failure => (.error failure, w.setStore name (finish store))
      | .ok (a, contents) =>
        (.ok a, { w.setStore name (finish store) with
          storage := w.storage.setContents store.place contents })

def dump (w : Workspace) : Except Failure (Except StoreFault Contents) :=
  match w.active with
  | .error failure => .error failure
  | .ok (_, store) => .ok ((begin store).map fun store => w.storage.contents store.place)

end Workspace
end Cellstore
