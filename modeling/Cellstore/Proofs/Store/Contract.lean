import Mathlib.Tactic.SplitIfs
import Cellstore.Proofs.Results
import Cellstore.Proofs.SortedMap
import Cellstore.Store.Script

/-! What every store does.
Here a store is its contents and the block that is running on them. An update works on a copy,
a handle is the name of a bucket, and nothing outlives its block. Both kinds of stores are
compared with this one. -/
namespace Cellstore.Store

/-- The running block of a store. A view has no copy. -/
structure Block where
  id : Nat
  copy : Option Contents

structure Contract where
  path : String
  contents : Contents
  closed : Bool
  block : Option Block
  /-- May they write? One entry for every block that was begun. -/
  begun : List Bool

namespace Contract

structure Handle where
  transaction : Nat
  name : String
  deriving DecidableEq

variable {α : Type}

def open_ (path : String) : Contract := ⟨path, .empty, false, none, []⟩

def begin (writable : Bool) (r : Contract) : Except StoreFault (Nat × Contract) :=
  if r.closed then .error (.closed r.path)
  else if r.block.isSome then .error .nested
  else .ok (r.begun.length, { r with
    block := some ⟨r.begun.length, if writable then some r.contents else none⟩
    begun := r.begun ++ [writable] })

/-- The end of a block. Only an update that is kept changes the contents. -/
def settle (b : Block) (keep : Bool) (r : Contract) : Contract :=
  { r with contents := if keep then b.copy.getD r.contents else r.contents, block := none }

def running (id : Nat) (r : Contract) : Except StoreFault Block :=
  match r.block with
  | some b => if b.id = id then .ok b else .error .finished
  | none => .error .finished

def finish (id : Nat) (keep : Bool) (r : Contract) : Except StoreFault Unit × Contract :=
  match r.running id with
  | .ok b => (.ok (), r.settle b keep)
  | .error _ => (.ok (), r)

def visible (id : Nat) (r : Contract) : Except StoreFault Contents :=
  (r.running id).map fun b => b.copy.getD r.contents

def writing (id : Nat) (r : Contract) : Except StoreFault Contents :=
  match r.running id with
  | .error fault => .error fault
  | .ok b => match b.copy with
    | some c => .ok c
    | none => .error .readOnly

def write (id : Nat) (c : Contents) (r : Contract) : Contract := { r with block := some ⟨id, some c⟩ }

def bucket (id : Nat) (name : String) (r : Contract) : Except StoreFault (Option Handle) :=
  (r.visible id).map fun c => if c.contains name then some ⟨id, name⟩ else none

def create (id : Nat) (name : String) (r : Contract) : Except StoreFault (Handle × Contract) :=
  if name = "" then .error .unnamedBucket
  else (r.writing id).map fun c =>
    (⟨id, name⟩, r.write id (c.insert name ((c.get? name).getD .empty)))

def deleteBucket (id : Nat) (name : String) (r : Contract) : Except StoreFault Contract :=
  match r.writing id with
  | .error fault => .error fault
  | .ok c => if c.contains name then .ok (r.write id (c.erase name)) else .error (.bucketNotFound name)

def names (id : Nat) (r : Contract) : Except StoreFault (List String) :=
  (r.visible id).map SortedMap.keys

def content (k : Handle) (r : Contract) : Except StoreFault Bucket :=
  (r.visible k.transaction).map fun c => (c.get? k.name).getD .empty

def change (k : Handle) (f : Bucket → α × Bucket) (r : Contract) :
    Except StoreFault (α × Contract) :=
  (r.writing k.transaction).map fun c =>
    ((f ((c.get? k.name).getD .empty)).1,
      r.write k.transaction (c.insert k.name (f ((c.get? k.name).getD .empty)).2))

def adapter : Adapter Contract Handle where
  describe r := r.path
  path := (·.path)
  isClosed := (·.closed)
  begin := begin
  finish := finish
  bucket := bucket
  create := create
  deleteBucket := deleteBucket
  names := names
  nameOf := (·.name)
  get k key r := (r.content k).map (·.get? key)
  items k lead r := (r.content k).map (·.items lead)
  put k key value r := (r.change k fun b => ((), b.put key value)).map (·.2)
  delete k key r := (r.change k fun b => ((), b.delete key)).map (·.2)
  nextSequence k := change k (Bucket.nextSequence .endless)
  close r := { r with closed := true }
  reopen r := (.ok (), { r with closed := false, block := none })
  dump r := (r.begin false).map fun _ => r.contents
  openOther _ r := (.ok (), r)
  setLock _ r := r

/-- A handle that can be used: its block is running and sees its bucket. -/
def Handle.Live (k : Handle) (r : Contract) : Prop :=
  ∃ b, r.block = some b ∧ b.id = k.transaction ∧
    (b.copy.getD r.contents).contains k.name = true

/-- A block that has ended and was a view. -/
def IsEndedView (id : Nat) (r : Contract) : Prop :=
  r.running id = .error .finished ∧ r.begun[id]? ≠ some true

variable {r : Contract} {id : Nat}

theorem begin_eq_ok {writable : Bool} {next : Contract} (begun : r.begin writable = .ok (id, next)) :
    r.block = none ∧ id = r.begun.length ∧ next = { r with
      block := some ⟨r.begun.length, if writable then some r.contents else none⟩
      begun := r.begun ++ [writable] } := by
  unfold begin at begun
  by_cases closed : r.closed = true
  · rw [if_pos closed] at begun
    cases begun
  by_cases busy : r.block.isSome = true
  · rw [if_neg closed, if_pos busy] at begun
    cases begun
  rw [if_neg closed, if_neg busy] at begun
  cases begun
  exact ⟨by simpa using busy, rfl, rfl⟩

theorem begin_of_idle (idle : r.block = none) (opened : r.closed = false) (writable : Bool) :
    r.begin writable = .ok (r.begun.length, { r with
      block := some ⟨r.begun.length, if writable then some r.contents else none⟩
      begun := r.begun ++ [writable] }) := by
  rw [begin, if_neg (by simp [opened]), if_neg (by simp [idle])]

theorem running_eq_ok_iff {b : Block} : r.running id = .ok b ↔ r.block = some b ∧ b.id = id := by
  unfold running
  cases r.block with
  | none => simp
  | some d =>
    simp only [Option.some.injEq]
    split_ifs with same
    · simp only [Except.ok.injEq]
      exact ⟨fun here => ⟨here, here ▸ same⟩, And.left⟩
    · refine ⟨fun refused => (nomatch refused), ?_⟩
      rintro ⟨rfl, number⟩
      exact absurd number same

theorem running_eq_error_iff :
    r.running id = .error .finished ↔ ∀ b, r.block = some b → b.id ≠ id := by
  unfold running
  cases r.block with
  | none => simp
  | some d =>
    simp only [Option.some.injEq, forall_eq']
    split_ifs with same
    · simp [same]
    · simp [same]

theorem block_of_writing {c : Contents} (writes : r.writing id = .ok c) :
    r.block = some ⟨id, some c⟩ := by
  unfold writing at writes
  cases runs : r.running id with
  | error fault =>
    rw [runs] at writes
    cases writes
  | ok b =>
    obtain ⟨block, rfl⟩ := running_eq_ok_iff.mp runs
    obtain ⟨number, copy⟩ := b
    rw [runs] at writes
    cases copy with
    | none => cases writes
    | some d =>
      cases writes
      exact block

theorem writing_write (c : Contents) (r : Contract) : (r.write id c).writing id = .ok c := by
  have runs : (r.write id c).running id = .ok ⟨id, some c⟩ := running_eq_ok_iff.mpr ⟨rfl, rfl⟩
  rw [writing, runs]

theorem write_of_writing {c : Contents} (writes : r.writing id = .ok c) : r.write id c = r := by
  rw [write, ← block_of_writing writes]

theorem not_isEndedView_of_writing {id : Nat} {c : Contents} {r : Contract}
    (writing : r.writing id = .ok c) : ¬ r.IsEndedView id := by
  rintro ⟨ended, _⟩
  rw [Contract.writing, ended] at writing
  cases writing

theorem visible_of_writing {c : Contents} (writes : r.writing id = .ok c) : r.visible id = .ok c := by
  rw [visible, running_eq_ok_iff.mpr ⟨block_of_writing writes, rfl⟩]
  rfl

theorem content_of_writing {k : Handle} {c : Contents} (writes : r.writing k.transaction = .ok c) :
    r.content k = .ok ((c.get? k.name).getD .empty) := by
  rw [content, visible_of_writing writes]
  rfl

theorem change_of_writing {k : Handle} {c : Contents} {b : Bucket}
    (writes : r.writing k.transaction = .ok c) (found : c.get? k.name = some b)
    (f : Bucket → α × Bucket) :
    r.change k f = .ok ((f b).1, r.write k.transaction (c.insert k.name (f b).2)) := by
  rw [change, writes]
  simp only [Except.map, found, Option.getD_some]

theorem change_congr {k : Handle} {f g : Bucket → α × Bucket}
    (same : ∀ b, r.content k = .ok b → f b = g b) : r.change k f = r.change k g := by
  unfold change
  cases writes : r.writing k.transaction with
  | error fault => rfl
  | ok c =>
    have here := same _ (content_of_writing writes)
    simp only [Except.map, here]

end Contract

/-- Two outcomes with the same fault, or with related results. -/
def SameOutcome {α β : Type} (R : α → β → Prop) : Except StoreFault α → Except StoreFault β → Prop
  | .ok x, .ok y => R x y
  | .error f, .error g => f = g
  | _, _ => False

theorem SameOutcome.mono {α β : Type} {R S : α → β → Prop} {x : Except StoreFault α}
    {y : Except StoreFault β} (h : SameOutcome R x y) (imp : ∀ a b, R a b → S a b) :
    SameOutcome S x y := by
  cases x <;> cases y
  · exact h
  · exact h.elim
  · exact h.elim
  · exact imp _ _ h

theorem SameOutcome.map {α β γ δ : Type} {R : α → β → Prop} {S : γ → δ → Prop}
    {x : Except StoreFault α} {y : Except StoreFault β} (h : SameOutcome R x y) {f : α → γ}
    {g : β → δ} (imp : ∀ a b, R a b → S (f a) (g b)) : SameOutcome S (x.map f) (y.map g) := by
  cases x <;> cases y
  · exact h
  · exact h.elim
  · exact h.elim
  · exact imp _ _ h

theorem SameOutcome.bind {α β γ δ : Type} {R : α → β → Prop} {S : γ → δ → Prop}
    {x : Except StoreFault α} {y : Except StoreFault β} (h : SameOutcome R x y)
    {f : α → Except StoreFault γ} {g : β → Except StoreFault δ}
    (imp : ∀ a b, R a b → SameOutcome S (f a) (g b)) : SameOutcome S (x >>= f) (y >>= g) := by
  cases x <;> cases y
  · exact h
  · exact h.elim
  · exact h.elim
  · exact imp _ _ h

theorem SameOutcome.ok {α β : Type} {R : α → β → Prop} {x : Except StoreFault α} {b : β}
    (h : SameOutcome R x (.ok b)) : ∃ a, x = .ok a ∧ R a b := by
  cases x with
  | error fault => exact h.elim
  | ok a => exact ⟨a, rfl, h⟩

theorem SameOutcome.error {α β : Type} {R : α → β → Prop} {x : Except StoreFault α}
    {fault : StoreFault} (h : SameOutcome R x (.error fault)) : x = .error fault := by
  cases x with
  | error other => exact congrArg Except.error h
  | ok a => exact h.elim

section
variable {τ : Type} (ended : τ → Prop) {transactions : List τ} {t u : τ} {i : Nat}

theorem ended_of_append (all : ∀ (i : Nat) t, transactions[i]? = some t → ended t)
    (found : (transactions ++ [u])[i]? = some t) (apart : transactions.length ≠ i) : ended t := by
  rcases Nat.lt_or_gt_of_ne apart.symm with older | beyond
  · rw [List.getElem?_append_left older] at found
    exact all i t found
  · have outside : (transactions ++ [u]).length ≤ i := by
      rw [List.length_append, List.length_singleton]
      omega
    rw [List.getElem?_eq_none outside] at found
    cases found

theorem ended_of_set {n : Nat}
    (others : ∀ (i : Nat) t, transactions[i]? = some t → n ≠ i → ended t) (last : ended u)
    (found : (transactions.set n u)[i]? = some t) : ended t := by
  by_cases here : n = i
  · subst here
    rw [List.getElem?_set_self'] at found
    cases there : transactions[n]? with
    | none =>
      rw [there] at found
      cases found
    | some older =>
      rw [there] at found
      cases found
      exact last
  · rw [List.getElem?_set_ne here] at found
    exact others i t found here

end

/-- How one kind of stores matches the contract: which stores agree, and which handles stand for
the same bucket and can still be used. -/
structure Matching (σ η : Type) where
  state : σ → Contract → Prop
  handle : η → Contract.Handle → σ → Contract → Prop

/-- After a step the stores agree, and handles can still be used unless the step removed their
bucket. -/
structure Matching.Step {σ η : Type} (m : Matching σ η) (s : σ) (r : Contract) (s' : σ)
    (r' : Contract) (removed : Option String) : Prop where
  state : m.state s' r'
  handle : ∀ h k, removed ≠ some k.name → m.handle h k s r → m.handle h k s' r'

theorem Matching.Step.refl {σ η : Type} {m : Matching σ η} {s : σ} {r : Contract}
    (state : m.state s r) : m.Step s r s r none :=
  ⟨state, fun _ _ _ usable => usable⟩

theorem Matching.Step.trans {σ η : Type} {m : Matching σ η} {s s' s'' : σ} {r r' r'' : Contract}
    (first : m.Step s r s' r' none) (second : m.Step s' r' s'' r'' none) :
    m.Step s r s'' r'' none :=
  ⟨second.state, fun h k kept usable => second.handle h k kept (first.handle h k kept usable)⟩

/-- A kind of stores that does what every store does, with counters of its own kind. -/
structure Simulation {σ η : Type} (a : Adapter σ η) (m : Matching σ η) (counting : Counting) :
    Prop where
  live {h k s r} : m.state s r → m.handle h k s r → k.Live r
  named {h k s r} : m.handle h k s r → a.nameOf h = k.name
  begin {s r} (writable : Bool) : m.state s r →
    SameOutcome (fun x y => x.1 = y.1 ∧ m.state x.2 y.2) (a.begin writable s) (r.begin writable)
  finish {s r} {b : Block} (keep : Bool) : m.state s r → r.block = some b →
    ∃ s', a.finish b.id keep s = (.ok (), s') ∧ m.state s' (r.settle b keep)
  bucket {s r} (id : Nat) (name : String) : m.state s r →
    SameOutcome (Option.Rel fun h k => m.handle h k s r) (a.bucket id name s) (r.bucket id name)
  names {s r} (id : Nat) : m.state s r → a.names id s = r.names id
  create {s r} {id : Nat} (name : String) : m.state s r → (name ≠ "" → ¬ r.IsEndedView id) →
    SameOutcome (fun x y => m.handle x.1 y.1 x.2 y.2 ∧ m.Step s r x.2 y.2 none)
      (a.create id name s) (r.create id name)
  deleteBucket {s r} {id : Nat} (name : String) : m.state s r → ¬ r.IsEndedView id →
    SameOutcome (fun s' r' => m.Step s r s' r' (some name))
      (a.deleteBucket id name s) (r.deleteBucket id name)
  get {s r h k} (key : Bytes) : m.state s r → m.handle h k s r →
    a.get h key s = (r.content k).map (·.get? key)
  items {s r h k} (lead : Bytes) : m.state s r → m.handle h k s r →
    a.items h lead s = (r.content k).map (·.items lead)
  put {s r h k} (key value : Bytes) : m.state s r → m.handle h k s r →
    SameOutcome (fun s' r' => m.Step s r s' r' none)
      (a.put h key value s) ((r.change k fun b => ((), b.put key value)).map (·.2))
  delete {s r h k} (key : Bytes) : m.state s r → m.handle h k s r →
    SameOutcome (fun s' r' => m.Step s r s' r' none)
      (a.delete h key s) ((r.change k fun b => ((), b.delete key)).map (·.2))
  nextSequence {s r h k} : m.state s r → m.handle h k s r →
    SameOutcome (fun x y => x.1 = y.1 ∧ m.Step s r x.2 y.2 none)
      (a.nextSequence h s) (r.change k (Bucket.nextSequence counting))
  close {s r} : m.state s r → r.block = none → m.state (a.close s) { r with closed := true }
  reopen {s r} : m.state s r → r.block = none →
    ∃ s', a.reopen s = (.ok (), s') ∧ m.state s' { r with closed := false, block := none }
  closed {s r} : m.state s r → a.isClosed s = r.closed
  dump {s r} : m.state s r → a.dump s = (r.begin false).map fun _ => r.contents

/-- How a kind of stores refuses to create and delete buckets through an ended view. -/
structure RefusesEndedViews {σ η : Type} (a : Adapter σ η) (m : Matching σ η) (fault : StoreFault) :
    Prop where
  create {s r} {id : Nat} {name : String} : m.state s r → r.IsEndedView id → name ≠ "" →
    a.create id name s = .error fault
  deleteBucket {s r} {id : Nat} (name : String) : m.state s r → r.IsEndedView id →
    a.deleteBucket id name s = .error fault

end Cellstore.Store
