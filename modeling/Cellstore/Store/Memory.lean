import Cellstore.Bucket
import Cellstore.Store.Fault

/-! Stores in memory.
An update works on a copy of all buckets, which takes the place of the contents when it
commits. Buckets of the copy have an identity of their own: after a deletion an old handle
writes to a bucket that no name reaches any more. A view reads the contents in place. -/
namespace Cellstore.Store.Memory

/-- The private copy of an update: which bucket a name reaches, and all buckets that ever
had a name in it, by number. -/
structure Working where
  names : SortedMap String Nat
  buckets : List Bucket

/-- A transaction, with the opening of the store that it belongs to. -/
structure Transaction where
  opening : Nat
  working : Option Working
  active : Bool

/-- What a bucket handle stands for: a bucket as a view found it, or the number of a bucket
of an update's copy. -/
inductive Target where
  | snapshot (b : Bucket)
  | number (n : Nat)

structure Handle where
  transaction : Nat
  name : String
  target : Target

/-- The contents under one path, and the openings of the store there. The flags belong to
the latest opening. -/
structure State where
  path : String
  contents : Contents
  opening : Nat
  closed : Bool
  busy : Bool
  transactions : List Transaction

namespace Working

/-- Buckets get their numbers in name order. -/
def ofContents (c : Contents) : Working :=
  ⟨⟨c.entries.zipIdx.map fun e => (e.1.1, e.2), by
      have keys : (c.entries.zipIdx.map fun e => (e.1.1, e.2)).map (·.1) = c.entries.map (·.1) := by
        rw [List.map_map]
        have parts : (fun e : (String × Bucket) × Nat => e.1.1) = (·.1) ∘ (·.1) := rfl
        show c.entries.zipIdx.map ((·.1) ∘ (·.1)) = _
        rw [← List.map_map, List.zipIdx_map_fst]
      have ascending := c.ascending
      rw [Ascending, ← List.pairwise_map (f := fun e : String × Bucket => e.1)
        (R := fun a b => KeyOrder.lt a b = true), ← keys] at ascending
      exact List.pairwise_map.mp ascending⟩,
    c.entries.map (·.2)⟩

def contents (w : Working) : Contents :=
  w.names.entries.foldl (fun c e => match w.buckets[e.2]? with
    | some b => c.insert e.1 b
    | none => c) .empty

end Working

def open_ (path : String) : State := ⟨path, .empty, 0, false, false, []⟩

variable {α : Type}

/-- Begins a transaction: one at a time, and none on a closed store. -/
def begin (writable : Bool) (s : State) : Except StoreFault (Nat × State) :=
  if s.closed then .error (.closed s.path)
  else if s.busy then .error .nested
  else
    let working := if writable then some (Working.ofContents s.contents) else none
    .ok (s.transactions.length,
      { s with busy := true, transactions := s.transactions ++ [⟨s.opening, working, true⟩] })

/-- Ends a transaction. An update that is kept replaces the contents. -/
def finish (id : Nat) (keep : Bool) (s : State) : Except StoreFault Unit × State :=
  match s.transactions[id]? with
  | none => (.ok (), s)
  | some t =>
    let contents := match t.working with
      | some w => if keep then w.contents else s.contents
      | none => s.contents
    (.ok (), { s with
      contents := contents
      busy := s.busy && t.opening != s.opening
      transactions := s.transactions.set id { t with active := false } })

def running (id : Nat) (s : State) : Except StoreFault Transaction :=
  match s.transactions[id]? with
  | some t => if t.active then .ok t else .error .finished
  | none => .error .finished

def writing (id : Nat) (s : State) : Except StoreFault (Transaction × Working) := do
  let t ← running id s
  match t.working with
  | some w => return (t, w)
  | none => throw .readOnly

def setWorking (id : Nat) (t : Transaction) (w : Working) (s : State) : State :=
  { s with transactions := s.transactions.set id { t with working := some w } }

def bucket (id : Nat) (name : String) (s : State) : Except StoreFault (Option Handle) := do
  let t ← running id s
  match t.working with
  | some w => return (w.names.get? name).map fun n => ⟨id, name, .number n⟩
  | none => return (s.contents.get? name).map fun b => ⟨id, name, .snapshot b⟩

def create (id : Nat) (name : String) (s : State) : Except StoreFault (Handle × State) := do
  if name = "" then throw .unnamedBucket
  let (t, w) ← writing id s
  match w.names.get? name with
  | some n => return (⟨id, name, .number n⟩, s)
  | none =>
    let n := w.buckets.length
    return (⟨id, name, .number n⟩,
      setWorking id t ⟨w.names.insert name n, w.buckets ++ [Bucket.empty]⟩ s)

def deleteBucket (id : Nat) (name : String) (s : State) : Except StoreFault State := do
  let (t, w) ← writing id s
  if w.names.contains name then return setWorking id t { w with names := w.names.erase name } s
  else throw (.bucketNotFound name)

def names (id : Nat) (s : State) : Except StoreFault (List String) := do
  let t ← running id s
  match t.working with
  | some w => return w.names.keys
  | none => return s.contents.keys

def content (h : Handle) (s : State) : Except StoreFault Bucket := do
  let t ← running h.transaction s
  match h.target, t.working with
  | .snapshot b, _ => return b
  | .number n, some w => return (w.buckets[n]?).getD Bucket.empty
  | .number _, none => return Bucket.empty

def change (h : Handle) (f : Bucket → α × Bucket) (s : State) : Except StoreFault (α × State) := do
  let (t, w) ← writing h.transaction s
  let b ← content h s
  let (a, b) := f b
  match h.target with
  | .number n => return (a, setWorking h.transaction t { w with buckets := w.buckets.set n b } s)
  | .snapshot _ => return (a, s)

def get (h : Handle) (key : Bytes) (s : State) : Except StoreFault (Option Bytes) :=
  (content h s).map (·.get? key)

def items (h : Handle) (lead : Bytes) (s : State) : Except StoreFault (List (Bytes × Bytes)) :=
  (content h s).map (·.items lead)

def put (h : Handle) (key value : Bytes) (s : State) : Except StoreFault State :=
  (change h (fun b => ((), b.put key value)) s).map (·.2)

def delete (h : Handle) (key : Bytes) (s : State) : Except StoreFault State :=
  (change h (fun b => ((), b.delete key)) s).map (·.2)

def nextSequence (h : Handle) (s : State) : Except StoreFault (Int × State) :=
  change h (Bucket.nextSequence .endless) s

/-- Closing keeps running transactions alive: they still commit. -/
def close (s : State) : State := { s with closed := true }

def reopen (s : State) : Except StoreFault Unit × State :=
  (.ok (), { s with opening := s.opening + 1, closed := false, busy := false })

def dump (s : State) : Except StoreFault Contents := do
  let _ ← begin false s
  return s.contents

end Cellstore.Store.Memory
