import Cellstore.Proofs.Store.Contract

/-! How the labels of a store are used.
A transaction is ended once, and a handle is used in its own transaction as long as its bucket
is there. What a label stands for follows from the replies, whatever the store does inside. -/
namespace Cellstore.Store

def Operation.isDraw : Operation → Bool
  | .nextSequence _ => true
  | _ => false

/-- An operation that is not the end of a block and opens no store. -/
def Operation.isPlain : Operation → Bool
  | .finish _ | .abort _ | .reopen | .openOther _ => false
  | _ => true

section
variable {σ η : Type} {a : Adapter σ η} {s s' : Labelled σ η} {op : Operation}

theorem perform_ok {reply : Reply} (plain : op.isPlain = true)
    (done : attempt a s op = .ok (reply, s')) : perform a s op = (.ok reply, s') := by
  cases op with
  | finish _ | abort _ | reopen | openOther _ => cases plain
  | _ => rw [perform, done] <;> simp

theorem perform_error {fault : StoreFault} (plain : op.isPlain = true)
    (failed : attempt a s op = .error fault) : perform a s op = (.error fault, s) := by
  cases op with
  | finish _ | abort _ | reopen | openOther _ => cases plain
  | _ => rw [perform, failed] <;> simp

end

theorem lookup_cons {β : Type} (label other : String) (x : β) (labels : List (String × β)) :
    ((label, x) :: labels).lookup other =
      if other = label then some x else labels.lookup other := by
  rw [List.lookup_cons]
  by_cases here : other = label
  · simp [here]
  · simp [here, beq_eq_false_iff_ne.mpr here]

theorem lookup_map {β γ : Type} (f : β → γ) (labels : List (String × β)) (label : String) :
    (labels.map fun e => (e.1, f e.2)).lookup label = (labels.lookup label).map f := by
  induction labels with
  | nil => rfl
  | cons e labels ih =>
    rw [List.map_cons, List.lookup_cons, List.lookup_cons]
    cases label == e.1
    · exact ih
    · rfl

theorem Labelled.handle?_withHandle {σ η : Type} (s : Labelled σ η) (label other : String)
    (h : Option η) :
    (s.withHandle label h).handle? other = if other = label then h else s.handle? other := by
  unfold handle? withHandle
  rw [lookup_cons]
  split_ifs
  · rfl
  · rfl

inductive Access where
  /-- No bucket was there, or the label was never given out. -/
  | absent
  | live (name : String)
  /-- The transaction has ended, or the bucket was deleted. -/
  | stale
  deriving DecidableEq

/-- Handles of lost buckets are stale. -/
def Access.losing (lost : String → Bool) : Access → Access
  | .live name => if lost name then .stale else .live name
  | access => access

/-- The labels given out so far, and the transaction whose block has not ended. -/
structure Usage where
  /-- May they write? -/
  blocks : List (String × Bool)
  running : Option String
  handles : List (String × Access)

namespace Usage

def start : Usage := ⟨[], none, []⟩

def access (u : Usage) (label : String) : Access := (u.handles.lookup label).getD .absent

def losing (lost : String → Bool) (u : Usage) : Usage :=
  { u with handles := u.handles.map fun e => (e.1, e.2.losing lost) }

def withHandle (label : String) (access : Access) (u : Usage) : Usage :=
  { u with handles := (label, access) :: u.handles }

/-- A reply that names a bucket gives out a handle for it. -/
def after (op : Operation) (reply : Except StoreFault Reply) (u : Usage) : Usage :=
  match op, reply with
  | .begin writable tx, .ok _ =>
    { u with blocks := (tx, writable) :: u.blocks, running := some tx }
  | .finish _, _ | .abort _, _ => { u.losing fun _ => true with running := none }
  | .bucket _ label _, .ok (.bucket found) | .create _ label _, .ok (.bucket found) =>
    u.withHandle label (found.elim .absent .live)
  | .deleteBucket _ name, .ok _ => u.losing (· == name)
  | _, _ => u

/-- Only the running block is ended, no stale handle is used, and the store is not closed inside
a block. Locks, other paths and the inner contents are not operations of every store. -/
def allows (u : Usage) : Operation → Bool
  | .finish tx | .abort tx => u.running == some tx
  | .get label _ | .put label _ _ | .delete label _ | .items label _ | .itemsDeleting label _
  | .nextSequence label => u.access label != .stale
  | .close | .reopen => u.running.isNone
  | .begin .. | .bucket .. | .create .. | .deleteBucket .. | .names _ | .closed => true
  | .path | .dump | .openOther _ | .setLock _ => false

def hasEndedView (u : Usage) (tx : String) : Bool :=
  u.running != some tx && u.blocks.lookup tx == some false

/-- A bucket is to be created or deleted through a view whose block has ended. -/
def writesEndedView (u : Usage) : Operation → Bool
  | .create tx _ name => name != "" && u.hasEndedView tx
  | .deleteBucket tx _ => u.hasEndedView tx
  | _ => false

theorem hasEndedView_eq_true {u : Usage} {tx : String} (h : u.hasEndedView tx = true) :
    u.running ≠ some tx ∧ u.blocks.lookup tx = some false := by
  simpa [hasEndedView] using h

variable {σ η : Type}

/-- The operations of a run on a store, each with how its labels were used before it. -/
def along (a : Adapter σ η) (u : Usage) (s : Labelled σ η) : List Operation → List (Usage × Operation)
  | [] => []
  | op :: rest => (u, op) :: along a (u.after op (perform a s op).1) (perform a s op).2 rest

theorem access_withHandle (u : Usage) (label other : String) (access : Access) :
    (u.withHandle label access).access other = if other = label then access else u.access other := by
  unfold Usage.access withHandle
  rw [lookup_cons]
  split_ifs
  · rfl
  · rfl

theorem access_losing (u : Usage) (lost : String → Bool) (label : String) :
    (u.losing lost).access label = (u.access label).losing lost := by
  unfold Usage.access losing
  rw [lookup_map]
  cases u.handles.lookup label <;> rfl

theorem after_of_inside {op : Operation} (u : Usage) (reply : Except StoreFault Reply)
    (plain : op.isPlain = true) (inside : ∀ writable tx, op ≠ .begin writable tx) :
    (u.after op reply).blocks = u.blocks ∧ (u.after op reply).running = u.running := by
  unfold after
  split
  · exact absurd rfl (inside _ _)
  · cases plain
  · cases plain
  · exact ⟨rfl, rfl⟩
  · exact ⟨rfl, rfl⟩
  · exact ⟨rfl, rfl⟩
  · exact ⟨rfl, rfl⟩

theorem after_error {op : Operation} (u : Usage) (fault : StoreFault) (plain : op.isPlain = true) :
    u.after op (.error fault) = u := by
  cases op with
  | finish _ | abort _ => cases plain
  | _ => rfl

end Usage

end Cellstore.Store
