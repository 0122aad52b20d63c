import Cellstore.Disk.Opening

/-! Stores in a file with two tables.
One table lists the buckets with their counters, the other all entries by bucket name and
key. A bucket handle is only a name: after a deletion an old handle still writes entries
under it. An update works on a copy of both tables and commits it as a whole; other
processes can hold locks on the file. -/
namespace Cellstore.Store.File

structure Tables where
  buckets : SortedMap String Int
  entries : SortedMap (String × Bytes) Bytes

inductive Lock where
  | none
  /-- Others read: nothing can be committed. -/
  | read
  /-- Others will write: no update can begin. -/
  | immediate
  /-- Others write: the file cannot even be read. -/
  | exclusive
  deriving DecidableEq, Repr

structure Transaction where
  opening : Nat
  writable : Bool
  active : Bool
  deriving DecidableEq, Repr

structure Handle where
  transaction : Nat
  name : String
  deriving DecidableEq, Repr

/-- A file and the store that is open on it. `working` is the copy of a running update; it
is lost when the connection is closed. As soon as the update writes, there is a journal
beside the file. The disk holds the other files. -/
structure State where
  path : String
  committed : Tables
  working : Option Tables
  hasJournal : Bool
  disk : Disk
  lock : Lock
  opening : Nat
  closed : Bool
  busy : Bool
  transactions : List Transaction

namespace Tables

def empty : Tables := ⟨.empty, .empty⟩

/-- The entries of one bucket in key order: a range of the table that starts at the lower
bound `lead` and ends with the first key that does not begin with it. -/
def scan (t : Tables) (name : String) (lead : Bytes) : List (Bytes × Bytes) :=
  let fromLower := t.entries.entries.filter fun e => e.1.1 == name && !KeyOrder.lt e.1.2 lead
  (fromLower.map fun e => (e.1.2, e.2)).takeWhile fun e => lead.isPrefixOf e.1

def get? (t : Tables) (name : String) (key : Bytes) : Option Bytes := t.entries.get? (name, key)

def put (t : Tables) (name : String) (key value : Bytes) : Tables :=
  { t with entries := t.entries.insert (name, key) value }

def delete (t : Tables) (name : String) (key : Bytes) : Tables :=
  { t with entries := t.entries.erase (name, key) }

def create (t : Tables) (name : String) : Tables :=
  if t.buckets.contains name then t else { t with buckets := t.buckets.insert name 0 }

/-- Removes a bucket from the list, and all entries under its name. -/
def deleteBucket (t : Tables) (name : String) : Tables :=
  ⟨t.buckets.erase name, t.entries.filter fun e => !(e.1.1 == name)⟩

def contents (t : Tables) : Contents :=
  t.buckets.entries.foldl (fun c e =>
    c.insert e.1 ⟨SortedMap.ofList (t.scan e.1 []), e.2⟩) .empty

def ofContents (c : Contents) : Tables :=
  c.entries.foldl (fun t e =>
    e.2.entries.entries.foldl (fun t d => t.put e.1 d.1 d.2)
      { t with buckets := t.buckets.insert e.1 e.2.sequence }) empty

end Tables

def ownPlace (path : String) : String := Disk.placeOf (Path.ofText path)

def open_ (path : String) : State :=
  ⟨path, .empty, none, false, Disk.empty.set (ownPlace path) (.database .empty), .none, 0, false,
    false, []⟩

/-- Begins a transaction: one at a time, and none on a closed store. -/
def begin (writable : Bool) (s : State) : Except StoreFault (Nat × State) :=
  if s.closed then .error (.closed s.path)
  else if s.busy then .error .nested
  else if writable ∧ (s.lock = .immediate ∨ s.lock = .exclusive) then .error (.beginning .locked)
  else
    .ok (s.transactions.length,
      { s with
        busy := true
        working := if writable then some s.committed else none
        hasJournal := false
        transactions := s.transactions ++ [⟨s.opening, writable, true⟩] })

/-- Ends a transaction. A commit fails while others hold a lock, and leaves nothing behind.
On a connection that was closed there is nothing to end. -/
def finish (id : Nat) (keep : Bool) (s : State) : Except StoreFault Unit × State :=
  match s.transactions[id]? with
  | none => (.ok (), s)
  | some t =>
    let s := { s with transactions := s.transactions.set id { t with active := false } }
    if t.opening ≠ s.opening then (.ok (), s)
    else
      let s := { s with busy := false, hasJournal := false }
      if s.closed then (.ok (), s)
      else if t.writable ∧ keep then
        if s.lock = .none then
          (.ok (), { s with committed := s.working.getD s.committed, working := none })
        else (.error (.commit .locked), { s with working := none })
      else (.ok (), { s with working := none })

def writable (id : Nat) (s : State) : Except StoreFault Unit :=
  if (s.transactions[id]?.map (·.writable)).getD false then .ok () else .error .readOnly

/-- The tables that a statement of a transaction works on. The transaction has to be
running, its connection open, and the file readable. -/
def tables (id : Nat) (s : State) : Except StoreFault Tables :=
  match s.transactions[id]? with
  | none => .error .finished
  | some t =>
    if !t.active then .error .finished
    else if t.opening ≠ s.opening ∨ s.closed then .error (.operation .connectionClosed)
    else if s.lock = .exclusive then .error (.operation .locked)
    else .ok (s.working.getD s.committed)

def write (t : Tables) (s : State) : State := { s with working := some t, hasJournal := true }

def bucket (id : Nat) (name : String) (s : State) : Except StoreFault (Option Handle) := do
  let t ← tables id s
  return if t.buckets.contains name then some ⟨id, name⟩ else none

def create (id : Nat) (name : String) (s : State) : Except StoreFault (Handle × State) := do
  if name = "" then throw .unnamedBucket
  writable id s
  let t ← tables id s
  return (⟨id, name⟩, if t.buckets.contains name then s else write (t.create name) s)

def deleteBucket (id : Nat) (name : String) (s : State) : Except StoreFault State := do
  writable id s
  let t ← tables id s
  if t.buckets.contains name then return write (t.deleteBucket name) s
  else throw (.bucketNotFound name)

def names (id : Nat) (s : State) : Except StoreFault (List String) :=
  (tables id s).map (·.buckets.keys)

def get (h : Handle) (key : Bytes) (s : State) : Except StoreFault (Option Bytes) :=
  (tables h.transaction s).map (·.get? h.name key)

def items (h : Handle) (lead : Bytes) (s : State) : Except StoreFault (List (Bytes × Bytes)) :=
  (tables h.transaction s).map (·.scan h.name lead)

def put (h : Handle) (key value : Bytes) (s : State) : Except StoreFault State := do
  writable h.transaction s
  let t ← tables h.transaction s
  return write (t.put h.name key value) s

def delete (h : Handle) (key : Bytes) (s : State) : Except StoreFault State := do
  writable h.transaction s
  let t ← tables h.transaction s
  return if (t.get? h.name key).isSome then write (t.delete h.name key) s else s

/-- The counter of a bucket is in the list of buckets: one that is not listed has none. -/
def nextSequence (h : Handle) (s : State) : Except StoreFault (Int × State) := do
  writable h.transaction s
  let t ← tables h.transaction s
  match t.buckets.get? h.name with
  | none => throw (.bucketNotFound h.name)
  | some n =>
    let n := Counting.signed64.next n
    return (n, write { t with buckets := t.buckets.insert h.name n } s)

/-- Closing the connection loses the changes of a running update. -/
def close (s : State) : State := { s with closed := true, working := none, hasJournal := false }

/-- Closes the store and opens it again at its path. Under an exclusive lock the opening
fails, and the store stays closed. -/
def reopen (s : State) : Except StoreFault Unit × State :=
  let s := close s
  if s.lock = .exclusive then (.error (.opening s.path .locked), s)
  else (.ok (), { s with opening := s.opening + 1, closed := false, busy := false })

/-- Opens and closes a second store at some path. The journal of a running update is a file
too, but no database. -/
def openOther (path : Path) (s : State) : Except StoreFault Unit × State :=
  let own := ownPlace s.path
  let journal := own ++ Disk.journalSuffix
  let disk := if s.hasJournal then s.disk.set journal .foreign else s.disk
  let locked := if s.lock = .exclusive then some own else none
  let (outcome, disk) := disk.openDatabase locked path
  let disk := disk.release Disk.privatePlace
  let disk := if s.hasJournal then disk.erase journal else disk
  (outcome.map fun _ => (), { s with disk := disk })

def dump (s : State) : Except StoreFault Contents := do
  let (id, s) ← begin false s
  let t ← tables id s
  return t.contents

end Cellstore.Store.File
