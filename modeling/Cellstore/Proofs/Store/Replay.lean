import Cellstore.Proofs.Store.Deletion
import Cellstore.Proofs.Store.Ledger

/-! The writes of a block, told from its replies.
The operations of a block are replayed on a ledger: those that were answered take effect, those that
failed have none. What a label stands for is known from the replies as well, so that nothing is asked
about the inside of a store. -/
namespace Cellstore.Store

/-- How far a block has come: what is kept, which name each label stands for, and whether the store
was closed meanwhile. -/
structure Replay where
  ledger : Ledger
  handles : List (String × Option String)
  closed : Bool

namespace Replay

def stands (r : Replay) (label : String) : Option String := (r.handles.lookup label).join

def on (label : String) (f : String → Ledger → Ledger) (r : Replay) : Replay :=
  { r with ledger := r.ledger.on (r.stands label) f }

/-- What an operation does, given its reply. Where a deletion detaches, the labels of the bucket
stand for nothing any more. -/
def after (detaches : Bool) (op : Operation) (reply : Except StoreFault Reply) (r : Replay) : Replay :=
  match op, reply with
  | .bucket _ label _, .ok (.bucket found) => { r with handles := (label, found) :: r.handles }
  | .create _ label name, .ok _ =>
    { r with ledger := r.ledger.create name, handles := (label, some name) :: r.handles }
  | .deleteBucket _ name, .ok _ =>
    { r with
      ledger := r.ledger.deleteBucket name
      handles := if detaches then r.handles.map fun e => (e.1, e.2.filter (· != name))
        else r.handles }
  | .put label key value, .ok .done => r.on label fun name => .set name key (some value)
  | .delete label key, .ok .done => r.on label fun name => .set name key none
  | .itemsDeleting label _, .ok (.entries entries) =>
    r.on label fun name l => entries.foldl (fun l e => l.set name e.1 none) l
  | .nextSequence label, .ok (.count n) => r.on label fun name => .count name n
  | .close, .ok _ => { r with closed := true }
  | _, _ => r

def start (l : Ledger) : Replay := ⟨l, [], false⟩

theorem stands_cons (r : Replay) (label other : String) (name : Option String) (l : Ledger) :
    stands { r with ledger := l, handles := (label, name) :: r.handles } other =
      if other = label then name else r.stands other := by
  unfold stands
  rw [lookup_cons]
  split_ifs
  · rfl
  · rfl

theorem stands_deleteBucket (detaches : Bool) (tx name : String) (reply : Reply) (r : Replay)
    (label : String) : (r.after detaches (.deleteBucket tx name) (.ok reply)).stands label =
      if detaches then (r.stands label).filter (· != name) else r.stands label := by
  unfold stands after
  cases detaches with
  | false => rfl
  | true =>
    simp only [if_true, lookup_map]
    cases r.handles.lookup label <;> rfl

theorem closed_after {detaches : Bool} {op : Operation} {reply : Except StoreFault Reply} {r : Replay}
    (inside : op ≠ .close) : (r.after detaches op reply).closed = r.closed := by
  unfold after
  split
  case h_8 => exact absurd rfl inside
  all_goals rfl

end Replay

variable {σ η : Type} {a : Adapter σ η}

def replay (a : Adapter σ η) (detaches : Bool) (r : Replay) (s : Labelled σ η) (ops : List Operation) :
    Replay :=
  (ops.zip (performAll a s ops)).foldl (fun r e => r.after detaches e.1 e.2) r

theorem replay_cons (detaches : Bool) (r : Replay) (s : Labelled σ η) (op : Operation)
    (rest : List Operation) : replay a detaches r s (op :: rest) =
      replay a detaches (r.after detaches op (perform a s op).1) (perform a s op).2 rest := rfl

theorem closed_replay {detaches : Bool} (r : Replay) (s : Labelled σ η) (ops : List Operation) :
    (replay a detaches r s ops).closed = true ↔ r.closed = true ∨ .close ∈ ops := by
  induction ops generalizing r s with
  | nil => simp [replay]
  | cons op rest ih =>
    rw [replay_cons, ih]
    by_cases here : op = .close
    · subst here
      simp [perform, attempt, Replay.after]
    · rw [Replay.closed_after here, List.mem_cons]
      simp [Ne.symm here]

/-- The calls of a running transaction follow the replay: `state` ties the store to the ledger, and
`stands` a handle to the name it stands for. -/
structure Follows (a : Adapter σ η) (detaches : Bool) (state : Bool → σ → Ledger → Prop)
    (stands : σ → η → Option String → Prop) : Prop where
  begin {closed s l} (writable : Bool) : state closed s l → ∃ fault, a.begin writable s = .error fault
  bucket {closed s l id name h} : state closed s l → a.bucket id name s = .ok (some h) →
    a.nameOf h = name ∧ stands s h (some name)
  create {closed s l id name h s'} : state closed s l → a.create id name s = .ok (h, s') →
    state closed s' (l.create name) ∧ stands s' h (some name) ∧ ∀ g x, stands s g x → stands s' g x
  deleteBucket {closed s l id name s'} : state closed s l → a.deleteBucket id name s = .ok s' →
    state closed s' (l.deleteBucket name) ∧ ∀ g x, stands s g x →
      stands s' g (if detaches then x.filter (· != name) else x)
  put {closed s l h x key value s'} : state closed s l → stands s h x → a.put h key value s = .ok s' →
    state closed s' (l.on x fun name => .set name key (some value)) ∧
      ∀ g x, stands s g x → stands s' g x
  delete {closed s l h x key s'} : state closed s l → stands s h x → a.delete h key s = .ok s' →
    state closed s' (l.on x fun name => .set name key none) ∧ ∀ g x, stands s g x → stands s' g x
  nextSequence {closed s l h x n s'} : state closed s l → stands s h x →
    a.nextSequence h s = .ok (n, s') →
    state closed s' (l.on x fun name => .count name n) ∧ ∀ g x, stands s g x → stands s' g x
  close {closed s l} : state closed s l →
    state true (a.close s) l ∧ ∀ g x, stands s g x → stands (a.close s) g x
  setLock {closed s l} (lock : File.Lock) : state closed s l →
    state closed (a.setLock lock s) l ∧ ∀ g x, stands s g x → stands (a.setLock lock s) g x

namespace Follows

/-- The store is where the replay is, and so is every label. -/
structure Reached (state : Bool → σ → Ledger → Prop) (stands : σ → η → Option String → Prop)
    (labels : List (String × Nat)) (s : Labelled σ η) (r : Replay) : Prop where
  state : state r.closed s.store r.ledger
  labels : s.transactions = labels
  handles : ∀ label h, s.handle? label = some h → stands s.store h (r.stands label)

variable {detaches : Bool} {state : Bool → σ → Ledger → Prop} {stands : σ → η → Option String → Prop}
  {labels : List (String × Nat)} {s s' : Labelled σ η} {r : Replay} {op : Operation} {reply : Reply}

theorem deleteAll (follows : Follows a detaches state stands) {closed : Bool} {s s' : σ} {l : Ledger}
    {h : η} {x : Option String} (here : state closed s l) (usable : stands s h x)
    {entries : List (Bytes × Bytes)} (deleted : Store.deleteAll a h (entries.map (·.1)) s = .ok s') :
    state closed s' (l.on x fun name l => entries.foldl (fun l e => l.set name e.1 none) l) ∧
      ∀ g x, stands s g x → stands s' g x := by
  induction entries generalizing s l with
  | nil =>
    cases deleted
    refine ⟨?_, fun _ _ kept => kept⟩
    cases x <;> exact here
  | cons e entries ih =>
    rw [List.map_cons, Store.deleteAll] at deleted
    split at deleted
    · rename_i next first
      obtain ⟨there, keeps⟩ := follows.delete here usable first
      obtain ⟨last, later⟩ := ih there (keeps h x usable) deleted
      refine ⟨?_, fun g y kept => later g y (keeps g y kept)⟩
      cases x <;> exact last
    · cases deleted

theorem Reached.of_store {next : σ} {l : Ledger} {closed : Bool}
    (reached : Reached state stands labels s r) (here : state closed next l ∧ ∀ g x, stands s.store g x → stands next g x) :
    Reached state stands labels (s.withStore next) ⟨l, r.handles, closed⟩ :=
  ⟨here.1, reached.labels, fun label h given => here.2 h _ (reached.handles label h given)⟩

theorem Reached.withHandle {l : Ledger} {label : String} {h : Option η} {name : Option String}
    {next : σ} (reached : Reached state stands labels s r) (here : state r.closed next l)
    (keeps : ∀ g x, stands s.store g x → stands next g x)
    (given : ∀ g, h = some g → stands next g name) :
    Reached state stands labels ((s.withStore next).withHandle label h)
      { r with ledger := l, handles := (label, name) :: r.handles } := by
  refine ⟨here, reached.labels, fun other g found => ?_⟩
  rw [Labelled.handle?_withHandle] at found
  rw [Replay.stands_cons]
  split_ifs at found ⊢
  · exact given g found
  · exact keeps g _ (reached.handles other g found)

theorem onHandle {f : η → Except StoreFault (Reply × σ)} {label : String}
    (reached : Reached state stands labels s r) (done : onHandle s label f = .ok (reply, s'))
    (missing : r.after detaches op (.ok .noHandle) = r)
    (each : ∀ h reply next, stands s.store h (r.stands label) → f h = .ok (reply, next) →
      Reached state stands labels (s.withStore next) (r.after detaches op (.ok reply))) :
    Reached state stands labels s' (r.after detaches op (.ok reply)) := by
  unfold Store.onHandle at done
  cases given : s.handle? label with
  | none =>
    rw [given] at done
    cases done
    rw [missing]
    exact reached
  | some h =>
    rw [given] at done
    obtain ⟨⟨reply, next⟩, called, same⟩ := map_eq_ok_iff.mp done
    cases same
    exact each h reply next (reached.handles label h given) called

theorem attempt (follows : Follows a detaches state stands)
    (reached : Reached state stands labels s r) (plain : op.isPlain = true)
    (done : attempt a s op = .ok (reply, s')) :
    Reached state stands labels s' (r.after detaches op (.ok reply)) := by
  have idle (next : σ) (same : next = s.store) : Reached state stands labels (s.withStore next) r := by
    rw [same]
    exact reached
  cases op with
  | begin writable tx =>
    obtain ⟨fault, refused⟩ := follows.begin writable reached.state
    obtain ⟨_, begun, -⟩ := bind_eq_ok_iff.mp done
    rw [refused] at begun
    cases begun
  | bucket tx label name =>
    obtain ⟨id, -, done⟩ := bind_eq_ok_iff.mp done
    obtain ⟨h, found, same⟩ := bind_eq_ok_iff.mp done
    cases same
    refine reached.withHandle reached.state (fun _ _ kept => kept) fun g given => ?_
    subst given
    obtain ⟨named, usable⟩ := follows.bucket reached.state found
    rw [Option.map_some, named]
    exact usable
  | create tx label name =>
    obtain ⟨id, -, done⟩ := bind_eq_ok_iff.mp done
    obtain ⟨⟨h, next⟩, made, same⟩ := bind_eq_ok_iff.mp done
    cases same
    obtain ⟨here, usable, keeps⟩ := follows.create reached.state made
    refine reached.withHandle here keeps fun g given => ?_
    cases given
    exact usable
  | deleteBucket tx name =>
    obtain ⟨id, -, done⟩ := bind_eq_ok_iff.mp done
    obtain ⟨next, deleted, same⟩ := bind_eq_ok_iff.mp done
    cases same
    obtain ⟨here, keeps⟩ := follows.deleteBucket reached.state deleted
    refine ⟨here, reached.labels, fun label h given => ?_⟩
    rw [Replay.stands_deleteBucket]
    exact keeps h _ (reached.handles label h given)
  | names tx =>
    obtain ⟨id, -, done⟩ := bind_eq_ok_iff.mp done
    obtain ⟨names, -, same⟩ := bind_eq_ok_iff.mp done
    cases same
    exact reached
  | get label key | items label lead =>
    refine onHandle reached done rfl fun h reply next usable called => ?_
    obtain ⟨_, -, same⟩ := bind_eq_ok_iff.mp called
    cases same
    exact idle _ rfl
  | put label key value =>
    refine onHandle reached done rfl fun h reply next usable called => ?_
    obtain ⟨next, written, same⟩ := bind_eq_ok_iff.mp called
    cases same
    exact reached.of_store (follows.put reached.state usable written)
  | delete label key =>
    refine onHandle reached done rfl fun h reply next usable called => ?_
    obtain ⟨next, removed, same⟩ := bind_eq_ok_iff.mp called
    cases same
    exact reached.of_store (follows.delete reached.state usable removed)
  | itemsDeleting label lead =>
    refine onHandle reached done rfl fun h reply next usable called => ?_
    obtain ⟨entries, -, called⟩ := bind_eq_ok_iff.mp called
    obtain ⟨next, deleted, same⟩ := bind_eq_ok_iff.mp called
    cases same
    exact reached.of_store (follows.deleteAll reached.state usable deleted)
  | nextSequence label =>
    refine onHandle reached done rfl fun h reply next usable called => ?_
    obtain ⟨⟨n, next⟩, counted, same⟩ := bind_eq_ok_iff.mp called
    cases same
    exact reached.of_store (follows.nextSequence reached.state usable counted)
  | close =>
    cases done
    exact reached.of_store (follows.close reached.state)
  | setLock lock =>
    cases done
    exact reached.of_store (follows.setLock lock reached.state)
  | dump =>
    obtain ⟨_, -, same⟩ := bind_eq_ok_iff.mp done
    cases same
    exact reached
  | closed | path =>
    cases done
    exact reached
  | finish _ | abort _ | reopen | openOther _ => cases plain

theorem perform (follows : Follows a detaches state stands)
    (reached : Reached state stands labels s r) (plain : op.isPlain = true) :
    Reached state stands labels (perform a s op).2 (r.after detaches op (perform a s op).1) := by
  cases attempted : Store.attempt a s op with
  | error fault =>
    rw [perform_error plain attempted]
    cases op <;> exact reached
  | ok result =>
    rw [perform_ok plain attempted]
    exact follows.attempt reached plain attempted

/-- However long the block is, store and replay stay together. -/
theorem run (follows : Follows a detaches state stands) {ops : List Operation}
    (plain : ∀ op ∈ ops, op.isPlain = true) (reached : Reached state stands labels s r) :
    Reached state stands labels (after a s ops) (replay a detaches r s ops) := by
  induction ops generalizing s r with
  | nil => exact reached
  | cons op rest ih =>
    obtain ⟨first, others⟩ := List.forall_mem_cons.mp plain
    exact ih others (follows.perform reached first)

end Follows
end Cellstore.Store
