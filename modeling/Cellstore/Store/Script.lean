import Cellstore.Store.File
import Cellstore.Store.Memory
import Cellstore.Text.Quoted

/-! Sequences of operations on one store, and the replies.
Transactions and bucket handles go by labels. A handle outlives its transaction, and it is
the store that refuses its use. The same sequence can be run on either kind of store. -/
namespace Cellstore.Store

/-- What both kinds of stores offer. `σ` is the state of a store and `η` a bucket handle. -/
structure Adapter (σ η : Type) where
  describe : σ → String
  path : σ → String
  isClosed : σ → Bool
  begin : Bool → σ → Except StoreFault (Nat × σ)
  finish : Nat → Bool → σ → Except StoreFault Unit × σ
  bucket : Nat → String → σ → Except StoreFault (Option η)
  create : Nat → String → σ → Except StoreFault (η × σ)
  deleteBucket : Nat → String → σ → Except StoreFault σ
  names : Nat → σ → Except StoreFault (List String)
  nameOf : η → String
  get : η → Bytes → σ → Except StoreFault (Option Bytes)
  items : η → Bytes → σ → Except StoreFault (List (Bytes × Bytes))
  put : η → Bytes → Bytes → σ → Except StoreFault σ
  delete : η → Bytes → σ → Except StoreFault σ
  nextSequence : η → σ → Except StoreFault (Int × σ)
  close : σ → σ
  reopen : σ → Except StoreFault Unit × σ
  dump : σ → Except StoreFault Contents
  openOther : Path → σ → Except StoreFault Unit × σ
  setLock : File.Lock → σ → σ

/-- Stores in memory share nothing with other processes. -/
def memoryAdapter : Adapter Memory.State Memory.Handle where
  describe s := s!"InMemoryKeyValueStore({Text.Quoted.text s.path})"
  path := (·.path)
  isClosed := (·.closed)
  begin := Memory.begin
  finish := Memory.finish
  bucket := Memory.bucket
  create := Memory.create
  deleteBucket := Memory.deleteBucket
  names := Memory.names
  nameOf := (·.name)
  get := Memory.get
  items := Memory.items
  put := Memory.put
  delete := Memory.delete
  nextSequence := Memory.nextSequence
  close := Memory.close
  reopen := Memory.reopen
  dump := Memory.dump
  openOther _ s := (.ok (), s)
  setLock _ s := s

def fileAdapter : Adapter File.State File.Handle where
  describe s := s!"SqliteKeyValueStore({Text.Quoted.text s.path})"
  path := (·.path)
  isClosed := (·.closed)
  begin := File.begin
  finish := File.finish
  bucket := File.bucket
  create := File.create
  deleteBucket := File.deleteBucket
  names := File.names
  nameOf := (·.name)
  get := File.get
  items := File.items
  put := File.put
  delete := File.delete
  nextSequence := File.nextSequence
  close := File.close
  reopen := File.reopen
  dump := File.dump
  openOther := File.openOther
  setLock lock s := { s with lock := lock }

inductive Operation where
  | begin (writable : Bool) (tx : String)
  /-- Leaves the block of a transaction normally. -/
  | finish (tx : String)
  /-- Leaves the block of a transaction by a failure. -/
  | abort (tx : String)
  | bucket (tx handle name : String)
  | create (tx handle name : String)
  | deleteBucket (tx name : String)
  | names (tx : String)
  | get (handle : String) (key : Bytes)
  | put (handle : String) (key value : Bytes)
  | delete (handle : String) (key : Bytes)
  | items (handle : String) (lead : Bytes)
  /-- Deletes each key as it comes up in an iteration. -/
  | itemsDeleting (handle : String) (lead : Bytes)
  | nextSequence (handle : String)
  | close
  | closed
  | path
  | dump
  | reopen
  | openOther (path : String)
  | setLock (lock : File.Lock)

inductive Reply where
  | done
  | flag (value : Bool)
  | aborted
  | bucket (name : Option String)
  | names (names : List String)
  | value (value : Option Bytes)
  | entries (entries : List (Bytes × Bytes))
  | count (n : Int)
  /-- The handle was never given out, or there was no bucket for it. -/
  | noHandle
  | location (path description : String)
  | contents (contents : Contents)
  | opened (path : String)

/-- A store with the labels given out so far. An empty handle belongs to a bucket that was
not there. -/
structure Labelled (σ η : Type) where
  store : σ
  transactions : List (String × Nat)
  handles : List (String × Option η)

namespace Labelled

variable {σ η : Type}

def ofStore (store : σ) : Labelled σ η := ⟨store, [], []⟩

def transaction (s : Labelled σ η) (tx : String) : Except StoreFault Nat :=
  match s.transactions.lookup tx with
  | some id => .ok id
  | none => .error .finished

def handle? (s : Labelled σ η) (label : String) : Option η := (s.handles.lookup label).join

def withStore (s : Labelled σ η) (store : σ) : Labelled σ η := { s with store := store }

def withHandle (s : Labelled σ η) (label : String) (h : Option η) : Labelled σ η :=
  { s with handles := (label, h) :: s.handles }

end Labelled

section
variable {σ η : Type} (a : Adapter σ η)

def deleteAll (h : η) : List Bytes → σ → Except StoreFault σ
  | [], s => .ok s
  | key :: rest, s => match a.delete h key s with
    | .ok s => deleteAll h rest s
    | .error fault => .error fault

def onHandle (s : Labelled σ η) (label : String)
    (f : η → Except StoreFault (Reply × σ)) : Except StoreFault (Reply × Labelled σ η) :=
  match s.handle? label with
  | none => .ok (.noHandle, s)
  | some h => (f h).map fun r => (r.1, s.withStore r.2)

/-- Ends a transaction. The store is left even if its commit fails. -/
def endBlock (s : Labelled σ η) (tx : String) (keep : Bool) (reply : Reply) :
    Except StoreFault Reply × Labelled σ η :=
  match s.transaction tx with
  | .error fault => (.error fault, s)
  | .ok id =>
    let (outcome, store) := a.finish id keep s.store
    (outcome.map fun _ => reply, s.withStore store)

/-- An operation that leaves everything as it was if it fails. -/
def attempt (s : Labelled σ η) : Operation → Except StoreFault (Reply × Labelled σ η)
  | .begin writable tx => do
    let (id, store) ← a.begin writable s.store
    return (.flag writable,
      { s with store := store, transactions := (tx, id) :: s.transactions })
  | .bucket tx label name => do
    let h ← a.bucket (← s.transaction tx) name s.store
    return (.bucket (h.map a.nameOf), s.withHandle label h)
  | .create tx label name => do
    let (h, store) ← a.create (← s.transaction tx) name s.store
    return (.bucket (some (a.nameOf h)), (s.withStore store).withHandle label (some h))
  | .deleteBucket tx name => do
    let store ← a.deleteBucket (← s.transaction tx) name s.store
    return (.done, s.withStore store)
  | .names tx => do return (.names (← a.names (← s.transaction tx) s.store), s)
  | .get label key => onHandle s label fun h => do return (.value (← a.get h key s.store), s.store)
  | .put label key value => onHandle s label fun h => do
    return (.done, ← a.put h key value s.store)
  | .delete label key => onHandle s label fun h => do return (.done, ← a.delete h key s.store)
  | .items label lead => onHandle s label fun h => do
    return (.entries (← a.items h lead s.store), s.store)
  | .itemsDeleting label lead => onHandle s label fun h => do
    let entries ← a.items h lead s.store
    return (.entries entries, ← deleteAll a h (entries.map (·.1)) s.store)
  | .nextSequence label => onHandle s label fun h => do
    let (n, store) ← a.nextSequence h s.store
    return (.count n, store)
  | .close => .ok (.done, s.withStore (a.close s.store))
  | .closed => .ok (.flag (a.isClosed s.store), s)
  | .path => .ok (.location (a.path s.store) (a.describe s.store), s)
  | .dump => do return (.contents (← a.dump s.store), s)
  | .setLock lock => .ok (.done, s.withStore (a.setLock lock s.store))
  | .finish _ | .abort _ | .reopen | .openOther _ => .ok (.done, s)

def perform (s : Labelled σ η) (op : Operation) : Except StoreFault Reply × Labelled σ η :=
  match op with
  | .finish tx => endBlock a s tx true .done
  | .abort tx => endBlock a s tx false .aborted
  | .reopen =>
    let (outcome, store) := a.reopen s.store
    (outcome.map fun _ => .done, s.withStore store)
  | .openOther path =>
    let path := Path.ofText path
    let (outcome, store) := a.openOther path s.store
    (outcome.map fun _ => .opened path.toText, s.withStore store)
  | op => match attempt a s op with
    | .ok (reply, s) => (.ok reply, s)
    | .error fault => (.error fault, s)

def performAll (s : Labelled σ η) : List Operation → List (Except StoreFault Reply)
  | [] => []
  | op :: rest =>
    let (reply, s) := perform a s op
    reply :: performAll s rest

end

end Cellstore.Store
