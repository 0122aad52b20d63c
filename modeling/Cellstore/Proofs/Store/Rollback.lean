import Cellstore.Proofs.Store.Blocks
import Cellstore.Proofs.Store.FileBlock
import Cellstore.Proofs.Store.MemoryBlock

/-! What a failure takes back.
The calls of a block reach only what belongs to the running transaction. So a block that fails, or
whose commit is refused, leaves the store as it found it, whatever locks others take and release
between the calls. -/
namespace Cellstore.Store

variable {σ η α β : Type}

/-- A store that others use as well. Before each call that changes it they may take or release a
lock: `coming` says which lock they hold from then on. -/
structure Shared (σ : Type) where
  store : σ
  coming : Nat → File.Lock

namespace Shared

/-- The store as the next call finds it. -/
def found (a : Adapter σ η) (s : Shared σ) : σ := a.setLock (s.coming 0) s.store

def next (s : Shared σ) (store : σ) : Shared σ := ⟨store, fun n => s.coming (n + 1)⟩

end Shared

def Adapter.shared (a : Adapter σ η) : Adapter (Shared σ) η where
  describe s := a.describe s.store
  path s := a.path s.store
  isClosed s := a.isClosed s.store
  begin writable s := (a.begin writable (s.found a)).map fun r => (r.1, s.next r.2)
  finish id keep s := ((a.finish id keep (s.found a)).1, s.next (a.finish id keep (s.found a)).2)
  bucket id name s := a.bucket id name s.store
  create id name s := (a.create id name (s.found a)).map fun r => (r.1, s.next r.2)
  deleteBucket id name s := (a.deleteBucket id name (s.found a)).map s.next
  names id s := a.names id s.store
  nameOf := a.nameOf
  get h key s := a.get h key s.store
  items h lead s := a.items h lead s.store
  put h key value s := (a.put h key value (s.found a)).map s.next
  delete h key s := (a.delete h key (s.found a)).map s.next
  nextSequence h s := (a.nextSequence h (s.found a)).map fun r => (r.1, s.next r.2)
  close s := s.next (a.close (s.found a))
  reopen s := ((a.reopen (s.found a)).1, s.next (a.reopen (s.found a)).2)
  dump s := a.dump s.store
  openOther path s := ((a.openOther path s.store).1, ⟨(a.openOther path s.store).2, s.coming⟩)
  setLock lock s := ⟨a.setLock lock s.store, fun _ => lock⟩

/-- The calls of a running block that change the store keep a property of it. -/
structure Preserves (a : Adapter σ η) (P : σ → Prop) : Prop where
  create : ∀ {id name s g s'}, P s → a.create id name s = .ok (g, s') → P s'
  deleteBucket : ∀ {id name s s'}, P s → a.deleteBucket id name s = .ok s' → P s'
  put : ∀ {g key value s s'}, P s → a.put g key value s = .ok s' → P s'
  delete : ∀ {g key s s'}, P s → a.delete g key s = .ok s' → P s'
  nextSequence : ∀ {g n s s'}, P s → a.nextSequence g s = .ok (n, s') → P s'

theorem Preserves.shared {a : Adapter σ η} {P : σ → Prop} (kept : Preserves a P)
    (locks : ∀ {lock s}, P s → P (a.setLock lock s)) :
    Preserves a.shared fun s => P s.store where
  create h made := by
    obtain ⟨⟨g, s'⟩, called, same⟩ := map_eq_ok_iff.mp made
    cases same
    exact kept.create (locks h) called
  deleteBucket h deleted := by
    obtain ⟨s', called, rfl⟩ := map_eq_ok_iff.mp deleted
    exact kept.deleteBucket (locks h) called
  put h written := by
    obtain ⟨s', called, rfl⟩ := map_eq_ok_iff.mp written
    exact kept.put (locks h) called
  delete h removed := by
    obtain ⟨s', called, rfl⟩ := map_eq_ok_iff.mp removed
    exact kept.delete (locks h) called
  nextSequence h counted := by
    obtain ⟨⟨n, s'⟩, called, same⟩ := map_eq_ok_iff.mp counted
    cases same
    exact kept.nextSequence (locks h) called

namespace Calls

/-- Whether the calls succeed or fail, they keep a property of the store. -/
def Keeps (P : σ → Prop) (calls : Calls σ α) : Prop := ∀ s, P s → P (calls s).2

namespace Keeps

variable {P : σ → Prop}

theorem pure (x : α) : Keeps P (Pure.pure x : Calls σ α) := fun _ h => h

theorem throw (failure : Failure) : Keeps P (throw failure : Calls σ α) := fun _ h => h

theorem ofExcept (x : Except Failure α) : Keeps P (ofExcept x : Calls σ α) := by
  cases x with
  | ok x => exact pure x
  | error failure => exact throw failure

theorem bind {calls : Calls σ α} {next : α → Calls σ β} (first : Keeps P calls)
    (rest : ∀ x, Keeps P (next x)) : Keeps P (calls >>= next) := by
  intro s h
  have here := first s h
  cases result : calls s with
  | mk outcome s' =>
    rw [result] at here
    cases outcome with
    | ok x =>
      rw [bind_of_ok result]
      exact rest x s' here
    | error failure =>
      rw [bind_of_error result]
      exact here

theorem call {f : σ → Except StoreFault (α × σ)}
    (kept : ∀ {s x s'}, P s → f s = .ok (x, s') → P s') : Keeps P (call f) := by
  intro s h
  cases result : f s with
  | ok r =>
    rw [call_of_ok result]
    exact kept h result
  | error fault =>
    rw [call_of_error result]
    exact h

theorem read (f : σ → Except StoreFault α) : Keeps P (read f) := by
  refine call fun h done => ?_
  obtain ⟨x, -, same⟩ := map_eq_ok_iff.mp done
  cases same
  exact h

theorem write {f : σ → Except StoreFault σ} (kept : ∀ {s s'}, P s → f s = .ok s' → P s') :
    Keeps P (write f) := by
  refine call fun h done => ?_
  obtain ⟨s', written, same⟩ := map_eq_ok_iff.mp done
  cases same
  exact kept h written

theorem forM {calls : α → Calls σ Unit} (each : ∀ x, Keeps P (calls x)) (xs : List α) :
    Keeps P (xs.forM calls) := by
  induction xs with
  | nil => exact pure ()
  | cons x xs ih => exact (each x).bind fun _ => ih

end Keeps

variable {a : Adapter σ η} {P : σ → Prop}

theorem keeps_defineColumn [Json.Room] (kept : Preserves a P) (g : η) (c : ColumnDefinition) :
    Keeps P (defineColumn a g c) := by
  have order : Keeps P (currentOrder a g) := by
    refine (Keeps.read _).bind fun entry => ?_
    split
    · exact .pure _
    · exact .throw _
    · exact (Keeps.read _).bind fun _ => .ofExcept _
  exact order.bind fun _ => (Keeps.write kept.put).bind fun _ => .write kept.put

theorem keeps_headers [Json.Room] (g : η) (names : List String) : Keeps P (headers a g names) := by
  unfold headers
  split
  · refine Keeps.bind ?_ fun _ => .pure _
    exact (Keeps.read _).bind fun _ => (Keeps.ofExcept _).bind fun _ =>
      (Keeps.read _).bind fun _ => .ofExcept _
  · exact .pure _

theorem keeps_putCell (kept : Preserves a P) (g : η) (row : Int) (column value : String) :
    Keeps P (putCell a g row column value) := by
  unfold putCell
  split
  · exact .write kept.put
  · exact .throw _

theorem keeps_deleteRow (kept : Preserves a P) (g : η) (r : Row) : Keeps P (deleteRow a g r) :=
  .forM (fun _ => .write kept.delete) r.keys

theorem keeps_matching (g : η) (filter : Filter) : Keeps P (matching a g filter) :=
  (Keeps.read _).bind fun _ => .pure _

theorem keeps_tableOf (id : Nat) (table : String) : Keeps P (tableOf a id table) := by
  refine (Keeps.read _).bind fun g => ?_
  cases g with
  | some g => exact .pure g
  | none => exact .throw _

/-- A block makes no other calls than these. -/
theorem keeps_block [Json.Room] (kept : Preserves a P) (id : Nat) (c : Command) :
    Keeps P (block a id c) := by
  cases c with
  | createDatabase name | useDatabase name => exact .throw _
  | createTable table columns =>
    exact (Keeps.call kept.create).bind fun g =>
      (Keeps.forM (keeps_defineColumn kept g) columns).bind fun _ => .pure _
  | insert table columns values sameLength =>
    exact (keeps_tableOf id table).bind fun g => (Keeps.call kept.nextSequence).bind fun row =>
      (Keeps.forM (fun (c : String × String) => keeps_putCell kept g row c.1 c.2) _).bind
        fun _ => .pure _
  | select table names filter =>
    exact (keeps_tableOf id table).bind fun g => (keeps_headers g names).bind fun _ =>
      (keeps_matching g filter).bind fun _ => .pure _
  | update table column value filter =>
    exact (keeps_tableOf id table).bind fun g => (keeps_matching g filter).bind fun rows =>
      (Keeps.forM (fun r => keeps_putCell kept g r.id column value) rows).bind fun _ => .pure _
  | delete table filter =>
    exact (keeps_tableOf id table).bind fun g => (keeps_matching g filter).bind fun rows =>
      (Keeps.forM (keeps_deleteRow kept g) rows).bind fun _ => .pure _
  | dropTable table => exact (Keeps.write kept.deleteBucket).bind fun _ => .pure _

/-- A command works on the store that its session has open. -/
def inSession [Json.Room] (a : Adapter σ η) (c : Command) (s : Session σ) :
    Except Failure Outcome × Session σ :=
  match s.active with
  | none => (.error .noDatabase, s)
  | some (name, store) =>
    ((execute a c store).1, { s with active := some (name, (execute a c store).2) })

/-- A transaction that fails was not begun, or its block failed, or its end did. -/
theorem transaction_of_error {writable : Bool} {body : Nat → Calls σ α} {s : σ} {f : Failure}
    (failed : (transaction a writable body s).1 = .error f) :
    (∃ fault, a.begin writable s = .error fault) ∧ (transaction a writable body s).2 = s ∨
    ∃ id start, a.begin writable s = .ok (id, start) ∧ ∃ keep,
      (keep = false ∨ ∃ fault, (a.finish id keep (body id start).2).1 = .error fault) ∧
      (transaction a writable body s).2 = (a.finish id keep (body id start).2).2 := by
  simp only [transaction, ExceptT.mk] at failed ⊢
  cases begun : a.begin writable s with
  | error fault => exact Or.inl ⟨⟨fault, rfl⟩, rfl⟩
  | ok r =>
    obtain ⟨id, start⟩ := r
    refine Or.inr ⟨id, start, rfl, ?_⟩
    simp only [begun] at failed ⊢
    cases result : body id start with
    | mk outcome s' =>
      simp only [result] at failed ⊢
      cases outcome with
      | error failure => exact ⟨false, Or.inl rfl, rfl⟩
      | ok x =>
        refine ⟨true, Or.inr ?_, rfl⟩
        dsimp only at failed ⊢
        cases ended : (a.finish id true s').1 with
        | error fault => exact ⟨fault, rfl⟩
        | ok done =>
          rw [ended] at failed
          cases failed

end Calls

/-- How a kind of store takes back what a failing block has done. A store is quiet between two
blocks, and untouched if nothing of the block is left in it. -/
structure Undoes (a : Adapter σ η) (IsQuiet : σ → Prop) (Untouched : σ → σ → Prop) : Prop where
  same : ∀ s, Untouched s s
  quiet : ∀ {s s'}, IsQuiet s → Untouched s s' → IsQuiet s'
  closed : ∀ {s s'}, Untouched s s' → a.isClosed s' = a.isClosed s
  begins : ∀ {s}, IsQuiet s → a.isClosed s = false → ∀ writable,
    ∃ id start, a.begin writable (a.setLock .none s) = .ok (id, start)
  block : ∀ {writable s id start}, IsQuiet s → a.begin writable s = .ok (id, start) →
    ∃ P : σ → Prop, Preserves a P ∧ P start ∧ ∀ {s' keep}, P s' →
      (keep = false ∨ ∃ fault, (a.finish id keep s').1 = .error fault) →
      Untouched s (a.finish id keep s').2

/-- Whatever makes a command fail, its session keeps the database, and the store of the database is
untouched and takes the next transaction as soon as nobody else holds a lock. -/
def LeavesNoTrace [Json.Room] (a : Adapter σ η) (IsQuiet : σ → Prop) (Untouched : σ → σ → Prop)
    (c : Command) : Prop :=
  ∀ (session : Session σ) (f : Failure), (Calls.inSession a c session).1 = .error f →
    (Calls.inSession a c session).2.databaseName = session.databaseName ∧
    ∀ name store, session.active = some (name, store) → IsQuiet store →
      ∃ later, (Calls.inSession a c session).2 = { session with active := some (name, later) } ∧
        Untouched store later ∧ IsQuiet later ∧ (a.isClosed store = false → ∀ writable,
          ∃ id start, a.begin writable (a.setLock .none later) = .ok (id, start))

namespace Undoes
open Calls

variable {a : Adapter σ η} {IsQuiet : σ → Prop} {Untouched : σ → σ → Prop} {c : Command} {s : σ}
  {f : Failure}

theorem execute [Json.Room] (undoes : Undoes a IsQuiet Untouched) (quiet : IsQuiet s)
    (failed : (execute a c s).1 = .error f) : Untouched s (Calls.execute a c s).2 := by
  obtain ⟨-, left⟩ | ⟨id, start, begun, keep, refused, left⟩ := transaction_of_error failed
  · exact left.symm ▸ undoes.same s
  · obtain ⟨P, kept, inside, ends⟩ := undoes.block quiet begun
    exact left.symm ▸ ends (keeps_block kept id c start inside) refused

theorem leavesNoTrace [Json.Room] (undoes : Undoes a IsQuiet Untouched) (c : Command) :
    LeavesNoTrace a IsQuiet Untouched c := by
  intro session f failed
  unfold inSession at failed ⊢
  cases active : session.active with
  | none => exact ⟨rfl, nofun⟩
  | some entry =>
    obtain ⟨name, store⟩ := entry
    simp only [active] at failed ⊢
    refine ⟨by simp only [Session.databaseName, active, Option.map_some], ?_⟩
    rintro _ _ ⟨⟩ quiet
    have same := undoes.execute quiet failed
    have later := undoes.quiet quiet same
    exact ⟨_, rfl, same, later, fun opened =>
      undoes.begins later ((undoes.closed same).trans opened)⟩

end Undoes

namespace File

structure IsQuiet (s : State) : Prop where
  idle : s.busy = false
  nothing : s.working = none
  noJournal : s.hasJournal = false
  ended : ∀ t ∈ s.transactions, t.active = false

/-- Apart from the lock that others hold, and from transactions that have ended, it is the same
store. -/
def Untouched (s s' : State) : Prop := ∃ lock ended,
  s' = { s with lock := lock, transactions := s.transactions ++ ended } ∧ ∀ t ∈ ended, t.active = false

/-- A store inside the block of a transaction that was begun on `start`. -/
def IsWithin (start : State) (writable : Bool) (s : State) : Prop := ∃ working hasJournal lock,
  s = { start with
    busy := true
    working := working
    hasJournal := hasJournal
    lock := lock
    transactions := start.transactions ++ [⟨start.opening, writable, true⟩] }

variable {start s s' : State} {writable : Bool} {id : Nat}

theorem Untouched.isQuiet (same : Untouched s s') (quiet : IsQuiet s) : IsQuiet s' := by
  obtain ⟨lock, ended, rfl, inactive⟩ := same
  exact ⟨quiet.idle, quiet.nothing, quiet.noJournal,
    List.forall_mem_append.mpr ⟨quiet.ended, inactive⟩⟩

theorem isWithin_begin {locked : File.Lock} {next : State}
    (begun : begin writable { s with lock := locked } = .ok (id, next)) :
    s.closed = false ∧ id = s.transactions.length ∧ IsWithin s writable next := by
  obtain ⟨opened, rfl, rfl⟩ := begin_inv begun
  exact ⟨opened, rfl, _, _, _, rfl⟩

theorem preserves_isWithin (start : State) (writable : Bool) :
    Preserves fileAdapter (IsWithin start writable) := by
  have write {s : State} (t : Tables) (h : IsWithin start writable s) :
      IsWithin start writable (write t s) := by
    obtain ⟨working, hasJournal, lock, rfl⟩ := h
    exact ⟨_, _, _, rfl⟩
  constructor
  · intro id name s g s' h made
    obtain ⟨t, -, -, -, rfl⟩ := create_inv made
    split_ifs
    · exact h
    · exact write _ h
  · intro id name s s' h deleted
    obtain ⟨_, -, deleted⟩ := bind_eq_ok_iff.mp deleted
    obtain ⟨t, -, deleted⟩ := bind_eq_ok_iff.mp deleted
    split_ifs at deleted
    cases deleted
    exact write _ h
  · intro g key value s s' h written
    obtain ⟨_, -, written⟩ := bind_eq_ok_iff.mp written
    obtain ⟨t, -, written⟩ := bind_eq_ok_iff.mp written
    cases written
    exact write _ h
  · intro g key s s' h removed
    obtain ⟨_, -, removed⟩ := bind_eq_ok_iff.mp removed
    obtain ⟨t, -, removed⟩ := bind_eq_ok_iff.mp removed
    split_ifs at removed <;> cases removed
    · exact write _ h
    · exact h
  · intro g n s s' h counted
    obtain ⟨_, -, counted⟩ := bind_eq_ok_iff.mp counted
    obtain ⟨t, -, counted⟩ := bind_eq_ok_iff.mp counted
    split at counted <;> cases counted
    exact write _ h

theorem IsWithin.setLock (h : IsWithin start writable s) (lock : Lock) :
    IsWithin start writable { s with lock := lock } := by
  obtain ⟨working, hasJournal, _, rfl⟩ := h
  exact ⟨working, hasJournal, lock, rfl⟩

/-- An end that keeps nothing, or that others prevent, gives the store back. -/
theorem IsWithin.finish (h : IsWithin start writable s) (quiet : IsQuiet start)
    (opened : start.closed = false) {keep : Bool}
    (refused : keep = false ∨ ∃ fault, (finish start.transactions.length keep s).1 = .error fault) :
    Untouched start (finish start.transactions.length keep s).2 := by
  obtain ⟨working, hasJournal, lock, rfl⟩ := h
  refine ⟨lock, [⟨start.opening, writable, false⟩], ?_, by simp⟩
  unfold File.finish at refused ⊢
  simp only [List.getElem?_concat_length, List.set_append_right _ _ (Nat.le_refl _), Nat.sub_self,
    List.set_cons_zero, ne_eq, not_true_eq_false, if_false, opened, Bool.false_eq_true] at refused ⊢
  rw [quiet.idle, quiet.nothing, quiet.noJournal]
  -- A commit comes through only if it is wanted and nobody holds a lock.
  split_ifs at refused ⊢ with kept free
  · rcases refused with rfl | ⟨fault, refused⟩
    · exact absurd kept.2 Bool.false_ne_true
    · cases refused
  · rfl
  · rfl

theorem begin_of_quiet (quiet : IsQuiet s) (opened : s.closed = false) (writable : Bool) :
    ∃ id start, begin writable { s with lock := .none } = .ok (id, start) := by
  unfold File.begin
  simp only [opened, quiet.idle, Bool.false_eq_true, if_false, reduceCtorEq, or_self, and_false]
  exact ⟨_, _, rfl⟩

/-- A store in a file undoes a block under any locks of others. -/
theorem undoes : Undoes fileAdapter.shared (fun s => IsQuiet s.store)
    fun s s' => Untouched s.store s'.store where
  same s := ⟨s.store.lock, [], by rw [List.append_nil], nofun⟩
  quiet quiet same := same.isQuiet quiet
  closed same := by
    obtain ⟨lock, ended, same, -⟩ := same
    show State.closed _ = State.closed _
    rw [same]
  begins {s} quiet opened writable := by
    obtain ⟨id, start, begun⟩ := begin_of_quiet quiet opened writable
    exact ⟨id, _, map_eq_ok_iff.mpr ⟨(id, start), begun, rfl⟩⟩
  block {writable s id start} quiet begun := by
    obtain ⟨⟨id, t⟩, began, same⟩ := map_eq_ok_iff.mp begun
    cases same
    obtain ⟨opened, rfl, inside⟩ := isWithin_begin began
    refine ⟨_, (preserves_isWithin s.store writable).shared fun h => h.setLock _, inside, ?_⟩
    intro s' keep within refused
    exact (within.setLock _).finish quiet opened refused

end File

namespace Memory

structure IsQuiet (s : State) : Prop where
  idle : s.busy = false
  ended : ∀ t ∈ s.transactions, t.active = false

/-- Apart from transactions that have ended, it is the same store. -/
def Untouched (s s' : State) : Prop := ∃ ended,
  s' = { s with transactions := s.transactions ++ ended } ∧ ∀ t ∈ ended, t.active = false

/-- A store inside the block of a transaction that was begun on `start`. -/
def IsWithin (start s : State) : Prop := ∃ t,
  s = { start with busy := true, transactions := start.transactions ++ [t] } ∧
    t.opening = start.opening

variable {start s s' : State}

theorem IsWithin.setWorking (h : IsWithin start s) (quiet : IsQuiet start) {j : Nat}
    {t : Transaction} {w : Working} (writes : writing j s = .ok (t, w)) (w' : Working) :
    IsWithin start (setWorking j t w' s) := by
  obtain ⟨u, rfl, opening⟩ := h
  obtain ⟨found, active⟩ := transaction_of_running (running_of_writing writes).1
  -- Only the last transaction can still be active: the store was quiet when it began.
  by_cases older : j < start.transactions.length
  · rw [List.getElem?_append_left older] at found
    rw [quiet.ended t (List.mem_of_getElem? found)] at active
    cases active
  · have inside := (List.getElem?_eq_some_iff.mp found).1
    rw [List.length_append, List.length_singleton] at inside
    obtain rfl : j = start.transactions.length := by omega
    rw [List.getElem?_concat_length] at found
    cases found
    refine ⟨{ t with working := some w' }, ?_, opening⟩
    simp only [Memory.setWorking, List.set_append_right _ _ (Nat.le_refl _), Nat.sub_self,
      List.set_cons_zero]

theorem preserves_isWithin (quiet : IsQuiet start) : Preserves memoryAdapter (IsWithin start) := by
  have change {α : Type} {g : Handle} {f : Bucket → α × Bucket} {x : α} {s s' : State}
      (h : IsWithin start s) (changed : change g f s = .ok (x, s')) : IsWithin start s' := by
    obtain ⟨t, k, b, writes, -, -, rfl⟩ := change_inv changed
    cases g.target with
    | snapshot b => exact h
    | number n => exact h.setWorking quiet writes _
  constructor
  · intro id name s g s' h made
    obtain ⟨t, w, writes, -, ⟨_, -, -, rfl⟩ | ⟨-, -, rfl⟩⟩ := create_inv made
    · exact h
    · exact h.setWorking quiet writes _
  · intro id name s s' h deleted
    obtain ⟨⟨t, w⟩, writes, deleted⟩ := bind_eq_ok_iff.mp deleted
    dsimp only at deleted
    split_ifs at deleted
    cases deleted
    exact h.setWorking quiet writes _
  · intro g key value s s' h written
    obtain ⟨⟨_, _⟩, changed, rfl⟩ := map_eq_ok_iff.mp written
    exact change h changed
  · intro g key s s' h removed
    obtain ⟨⟨_, _⟩, changed, rfl⟩ := map_eq_ok_iff.mp removed
    exact change h changed
  · intro g n s s' h counted
    have counted : Memory.change g (Bucket.nextSequence .endless) s = .ok (n, s') := counted
    exact change h counted

theorem IsWithin.finish (h : IsWithin start s) (quiet : IsQuiet start) :
    Untouched start (finish start.transactions.length false s).2 := by
  obtain ⟨t, rfl, opening⟩ := h
  refine ⟨[{ t with active := false }], ?_, by simp⟩
  unfold Memory.finish
  rw [quiet.idle]
  simp only [List.getElem?_concat_length, List.set_append_right _ _ (Nat.le_refl _), Nat.sub_self,
    List.set_cons_zero, opening, bne_self_eq_false, Bool.and_false, Bool.false_eq_true, if_false]
  cases t.working <;> rfl

theorem finish_eq_ok (id : Nat) (keep : Bool) (s : State) : (finish id keep s).1 = .ok () := by
  unfold Memory.finish
  split <;> rfl

theorem undoes : Undoes memoryAdapter IsQuiet Untouched where
  same s := ⟨[], by rw [List.append_nil], nofun⟩
  quiet := by
    rintro s _ quiet ⟨ended, rfl, inactive⟩
    exact ⟨quiet.idle, List.forall_mem_append.mpr ⟨quiet.ended, inactive⟩⟩
  closed := by
    rintro s _ ⟨ended, rfl, -⟩
    rfl
  begins {s} quiet opened writable := by
    show ∃ id start, begin writable s = .ok (id, start)
    have opened : s.closed = false := opened
    unfold Memory.begin
    simp only [opened, quiet.idle, Bool.false_eq_true, if_false]
    exact ⟨_, _, rfl⟩
  block {writable s id start} quiet begun := by
    obtain ⟨rfl, rfl⟩ := begin_inv begun
    refine ⟨_, preserves_isWithin quiet, ⟨_, rfl, rfl⟩, ?_⟩
    rintro s' keep within (rfl | ⟨fault, refused⟩)
    · exact within.finish quiet
    · cases (finish_eq_ok ..).symm.trans refused

end Memory
end Cellstore.Store
