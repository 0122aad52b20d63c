import Cellstore.Proofs.Store.Calls

/-! Call by call a block does to the store what its command does to the contents.
Calls that read give what the bucket gives, and calls that write change its bucket in the copy of
the update. If one of them fails the copy is lost, whatever was written to it. -/
namespace Cellstore.Store.Calls
open Text.Utf8 (encode decode)

variable {σ η α β : Type} {a : Adapter σ η} {m : Matching σ η} {counting : Counting} {g : η}
  {k : Contract.Handle}

theorem bind_of_ok {calls : Calls σ α} {next : α → Calls σ β} {s s' : σ} {x : α}
    (done : calls s = (.ok x, s')) : (calls >>= next) s = next x s' := by
  simp only [bind, ExceptT.bind, ExceptT.mk, StateT.bind, done]
  rfl

theorem bind_of_error {calls : Calls σ α} {next : α → Calls σ β} {s s' : σ} {failure : Failure}
    (failed : calls s = (.error failure, s')) : (calls >>= next) s = (.error failure, s') := by
  simp only [bind, ExceptT.bind, ExceptT.mk, StateT.bind, failed]
  rfl

theorem call_of_ok {f : σ → Except StoreFault (α × σ)} {s s' : σ} {x : α}
    (done : f s = .ok (x, s')) : call f s = (.ok x, s') := by
  unfold call
  simp only [ExceptT.mk, done]

theorem call_of_error {f : σ → Except StoreFault (α × σ)} {s : σ} {fault : StoreFault}
    (failed : f s = .error fault) : call f s = (.error (.ofStore fault), s) := by
  unfold call
  simp only [ExceptT.mk, failed]

theorem read_of_ok {f : σ → Except StoreFault α} {s : σ} {x : α} (done : f s = .ok x) :
    read f s = (.ok x, s) := by
  apply call_of_ok
  rw [done]
  rfl

theorem write_of_ok {f : σ → Except StoreFault σ} {s s' : σ} (done : f s = .ok s') :
    write f s = (.ok (), s') := by
  apply call_of_ok
  rw [done]
  rfl

theorem write_of_error {f : σ → Except StoreFault σ} {s : σ} {fault : StoreFault}
    (failed : f s = .error fault) : write f s = (.error (.ofStore fault), s) := by
  apply call_of_error
  rw [failed]
  rfl

/-- Calls that only read one bucket. -/
def Reads (m : Matching σ η) (g : η) (k : Contract.Handle) (calls : Calls σ α)
    (f : Bucket → Except Failure α) : Prop :=
  ∀ s r b, m.state s r → m.handle g k s r → r.content k = .ok b → calls s = (f b, s)

/-- Calls that change one bucket of an update. If one of them fails, the block goes on with
whatever was written until then. -/
def Writes (m : Matching σ η) (g : η) (k : Contract.Handle) (calls : Calls σ α)
    (f : Bucket → Except Failure (α × Bucket)) : Prop :=
  ∀ s r c b, m.state s r → m.handle g k s r → r.writing k.transaction = .ok c →
    c.get? k.name = some b →
    (∀ x d, f b = .ok (x, d) → ∃ s', calls s = (.ok x, s') ∧
      m.Step s r s' (r.write k.transaction (c.insert k.name d)) none) ∧
    ∀ failure, f b = .error failure → ∃ s' e, calls s = (.error failure, s') ∧
      m.state s' (r.write k.transaction e)

theorem Reads.bind {calls : Calls σ α} {f : Bucket → Except Failure α} {next : α → Calls σ β}
    {h : α → Bucket → Except Failure β} (first : Reads m g k calls f)
    (rest : ∀ x, Reads m g k (next x) (h x)) :
    Reads m g k (calls >>= next) fun b => f b >>= fun x => h x b := by
  intro s r b state usable content
  have here := first s r b state usable content
  cases read : f b with
  | error failure =>
    rw [read] at here
    rw [bind_of_error here]
    simp only [read]
    rfl
  | ok x =>
    rw [read] at here
    rw [bind_of_ok here, rest x s r b state usable content]
    simp only [read]
    rfl

theorem Reads.ofExcept (x : Except Failure α) : Reads m g k (ofExcept x) fun _ => x := by
  intro s r b _ _ _
  cases x <;> rfl

theorem Reads.congr {calls : Calls σ α} {f h : Bucket → Except Failure α}
    (reads : Reads m g k calls f) (same : ∀ b, f b = h b) : Reads m g k calls h :=
  funext same ▸ reads

theorem Reads.get (sim : Simulation a m counting) (key : Bytes) :
    Reads m g k (read (a.get g key)) fun b => .ok (b.get? key) := by
  intro s r b state usable content
  apply read_of_ok
  rw [sim.get key state usable, content]
  rfl

theorem Reads.items (sim : Simulation a m counting) (lead : Bytes) :
    Reads m g k (read (a.items g lead)) fun b => .ok (b.items lead) := by
  intro s r b state usable content
  apply read_of_ok
  rw [sim.items lead state usable, content]
  rfl

theorem Reads.writes {calls : Calls σ α} {f : Bucket → Except Failure α}
    (reads : Reads m g k calls f) : Writes m g k calls fun b => (f b).map fun x => (x, b) := by
  intro s r c b state usable writing found
  have content : r.content k = .ok b := by
    rw [Contract.content_of_writing writing, found, Option.getD_some]
  have here := reads s r b state usable content
  refine ⟨fun x d done => ?_, fun failure failed => ?_⟩
  · obtain ⟨y, read, same⟩ := map_eq_ok_iff.mp done
    cases same
    rw [SortedMap.insert_of_get? found, Contract.write_of_writing writing]
    exact ⟨s, read ▸ here, .refl state⟩
  · refine ⟨s, c, ?_, ?_⟩
    · dsimp only at failed
      cases read : f b with
      | error other =>
        rw [read] at failed here
        cases failed
        exact here
      | ok x =>
        rw [read] at failed
        cases failed
    · rw [Contract.write_of_writing writing]
      exact state

theorem Writes.bind {calls : Calls σ α} {f : Bucket → Except Failure (α × Bucket)}
    {next : α → Calls σ β} {h : α → Bucket → Except Failure (β × Bucket)}
    (first : Writes m g k calls f) (rest : ∀ x, Writes m g k (next x) (h x)) :
    Writes m g k (calls >>= next) fun b => f b >>= fun y => h y.1 y.2 := by
  intro s r c b state usable writing found
  obtain ⟨done, failed⟩ := first s r c b state usable writing found
  cases read : f b with
  | error failure =>
    obtain ⟨s', e, calls, state'⟩ := failed failure read
    refine ⟨fun x d done => ?_, fun other fails => ?_⟩
    · simp only [read] at done
      cases done
    · simp only [read] at fails
      cases fails
      exact ⟨s', e, bind_of_error calls, state'⟩
  | ok y =>
    obtain ⟨s', calls, step⟩ := done y.1 y.2 read
    have again := rest y.1 s' _ _ y.2 step.state (step.handle g k nofun usable)
      (Contract.writing_write _ r) (SortedMap.get?_insert_self ..)
    simp only [SortedMap.insert_insert] at again
    simp only [read]
    rw [bind_of_ok calls]
    refine ⟨fun x d done => ?_, again.2⟩
    obtain ⟨s'', calls', step'⟩ := again.1 x d done
    exact ⟨s'', calls', step.trans step'⟩

theorem Writes.congr {calls : Calls σ α} {f h : Bucket → Except Failure (α × Bucket)}
    (writes : Writes m g k calls f) (same : ∀ b, f b = h b) : Writes m g k calls h :=
  funext same ▸ writes

theorem Writes.returning {calls : Calls σ PUnit} {f : Bucket → Except Failure Bucket}
    (writes : Writes m g k calls fun b => (f b).map fun d => ((), d)) (x : α) :
    Writes m g k (do calls; return x) fun b => (f b).map fun d => (x, d) := by
  refine (writes.bind fun _ => (Reads.ofExcept (.ok x)).writes).congr fun b => ?_
  cases f b <;> rfl

theorem Writes.before {calls : Calls σ α} {f : Bucket → α × Bucket} {next : α → Calls σ β}
    {h : α → Bucket → Except Failure (β × Bucket)} (first : Writes m g k calls fun b => .ok (f b))
    (rest : ∀ x, Writes m g k (next x) (h x)) :
    Writes m g k (calls >>= next) fun b => h (f b).1 (f b).2 :=
  first.bind rest

private theorem Writes.of_change {calls : Calls σ α} {f : Bucket → α × Bucket}
    (changes : ∀ s r, m.state s r → m.handle g k s r → ∀ c x d, r.writing k.transaction = .ok c →
      r.change k f = .ok (x, d) → ∃ s', calls s = (.ok x, s') ∧ m.Step s r s' d none) :
    Writes m g k calls fun b => .ok (f b) := by
  intro s r c b state usable writing found
  have changed : r.change k f = .ok ((f b).1, r.write k.transaction (c.insert k.name (f b).2)) := by
    rw [Contract.change, writing]
    simp only [Except.map, found, Option.getD_some]
  refine ⟨fun x d done => ?_, fun failure failed => (by cases failed)⟩
  rw [Except.ok.inj done] at changed
  exact changes s r state usable c _ _ writing changed

private theorem Writes.of_edit {edit : σ → Except StoreFault σ} {f : Bucket → Bucket}
    (same : ∀ s r, m.state s r → m.handle g k s r →
      SameOutcome (fun s' r' => m.Step s r s' r' none) (edit s)
        ((r.change k fun b => ((), f b)).map (·.2))) :
    Writes m g k (write edit) fun b => .ok ((), f b) := by
  refine of_change fun s r state usable c x d _ changed => ?_
  have edited := same s r state usable
  rw [changed] at edited
  obtain ⟨s', here, step⟩ := edited.ok
  exact ⟨s', write_of_ok here, step⟩

theorem Writes.put (sim : Simulation a m counting) (key value : Bytes) :
    Writes m g k (write (a.put g key value)) fun b => .ok ((), b.put key value) :=
  of_edit fun _ _ state usable => sim.put key value state usable

theorem Writes.delete (sim : Simulation a m counting) (key : Bytes) :
    Writes m g k (write (a.delete g key)) fun b => .ok ((), b.delete key) :=
  of_edit fun _ _ state usable => sim.delete key state usable

theorem Writes.nextSequence (sim : Simulation a m counting) :
    Writes m g k (call (a.nextSequence g)) fun b => .ok (b.nextSequence counting) := by
  refine of_change fun s r state usable c x d _ changed => ?_
  have same := sim.nextSequence state usable
  rw [changed] at same
  obtain ⟨next, here, rfl, step⟩ := same.ok
  exact ⟨next.2, call_of_ok here, step⟩

theorem Writes.throw (failure : Failure) :
    Writes m g k (throw failure : Calls σ α) fun _ => .error failure :=
  (Reads.ofExcept (.error failure)).writes

theorem Writes.forM {xs : List β} {each : β → Calls σ PUnit} {f : Bucket → β → Except Failure Bucket}
    (writes : ∀ x, Writes m g k (each x) fun b => (f b x).map fun b => ((), b)) :
    Writes m g k (xs.forM each) fun b => (xs.foldlM f b).map fun b => ((), b) := by
  induction xs with
  | nil => exact (Reads.ofExcept (.ok ())).writes
  | cons x xs ih =>
    refine ((writes x).bind fun _ => ih).congr fun b => ?_
    rw [List.foldlM_cons]
    cases f b x <;> rfl

/-- The calls of an update do to its copy what `f` does to contents. -/
def Updates (m : Matching σ η) (body : Nat → Calls σ α)
    (f : Contents → Except Failure (α × Contents)) : Prop :=
  ∀ s r id c, m.state s r → r.writing id = .ok c →
    (∀ x d, f c = .ok (x, d) → ∃ s', body id s = (.ok x, s') ∧ m.state s' (r.write id d)) ∧
    ∀ failure, f c = .error failure → ∃ s' e, body id s = (.error failure, s') ∧
      m.state s' (r.write id e)

theorem Updates.congr {body : Nat → Calls σ α} {f h : Contents → Except Failure (α × Contents)}
    (updates : Updates m body f) (same : ∀ c, f c = h c) : Updates m body h :=
  funext same ▸ updates

/-- The calls of a view give what `f` gives of contents. -/
def Views (m : Matching σ η) (body : Nat → Calls σ α) (f : Contents → Except Failure α) : Prop :=
  ∀ s r id c, m.state s r → r.visible id = .ok c → body id s = (f c, s)

theorem tableOf_spec (sim : Simulation a m counting) {s : σ} {r : Contract} {id : Nat} {c : Contents}
    (state : m.state s r) (visible : r.visible id = .ok c) (table : String) :
    (c.get? table = none ∧ tableOf a id table s = (.error (.noTable table), s)) ∨
    ∃ b h, c.get? table = some b ∧ m.handle h ⟨id, table⟩ s r ∧ tableOf a id table s = (.ok h, s) := by
  have same := sim.bucket id table state
  unfold Contract.bucket at same
  rw [visible] at same
  obtain ⟨given, here, matched⟩ := same.ok
  unfold tableOf
  rw [bind_of_ok (read_of_ok here)]
  simp only [SortedMap.contains] at matched
  cases there : c.get? table with
  | none =>
    simp only [there, Option.isSome_none, Bool.false_eq_true, if_false] at matched
    cases matched
    exact Or.inl ⟨rfl, rfl⟩
  | some b =>
    simp only [there, Option.isSome_some, if_true] at matched
    cases matched with
    | some usable => exact Or.inr ⟨b, _, rfl, usable, rfl⟩

theorem updates_table (sim : Simulation a m counting) {table : String} {rest : η → Calls σ α}
    {f : Bucket → Except Failure (α × Bucket)}
    (writes : ∀ g id, Writes m g ⟨id, table⟩ (rest g) f) :
    Updates m (fun id => tableOf a id table >>= rest) fun c =>
      match Execution.tableOf c table with
      | .error failure => .error failure
      | .ok b => (f b).map fun y => (y.1, c.insert table y.2) := by
  intro s r id c state writing
  unfold Execution.tableOf
  rcases tableOf_spec sim state (Contract.visible_of_writing writing) table with
    ⟨missing, failed⟩ | ⟨b, g, found, usable, done⟩
  · simp only [missing]
    refine ⟨fun x d done => (by cases done), fun failure same => ?_⟩
    cases same
    refine ⟨s, c, bind_of_error failed, ?_⟩
    rw [Contract.write_of_writing writing]
    exact state
  · obtain ⟨succeeds, fails⟩ := writes g id s r c b state usable writing found
    simp only [found, bind_of_ok done]
    refine ⟨fun x d same => ?_, fun failure same => ?_⟩
    · obtain ⟨y, result, same⟩ := map_eq_ok_iff.mp same
      cases same
      obtain ⟨s', calls, step⟩ := succeeds y.1 y.2 result
      exact ⟨s', calls, step.state⟩
    · refine fails failure ?_
      cases result : f b with
      | error other =>
        rw [result] at same
        cases same
        rfl
      | ok y =>
        rw [result] at same
        cases same

def Holds (m : Matching σ η) (s : σ) (c : Contents) : Prop :=
  ∃ r, m.state s r ∧ r.block = none ∧ r.closed = false ∧ r.contents = c

namespace Holds

variable {s : σ} {c : Contents}

private theorem begun (sim : Simulation a m counting) (holds : Holds m s c) (writable : Bool) :
    ∃ id s' r, a.begin writable s = .ok (id, s') ∧ m.state s' r ∧ r.closed = false ∧
      r.contents = c ∧ r.block = some ⟨id, if writable then some c else none⟩ := by
  obtain ⟨r, state, idle, opened, rfl⟩ := holds
  have same := sim.begin writable state
  rw [Contract.begin_of_idle idle opened] at same
  obtain ⟨next, here, number, state'⟩ := same.ok
  exact ⟨next.1, next.2, _, here, state', opened, rfl, by rw [number]⟩

theorem begin (sim : Simulation a m counting) (holds : Holds m s c) (writable : Bool) :
    ∃ id s', a.begin writable s = .ok (id, s') := by
  obtain ⟨id, s', _, begun, _⟩ := holds.begun sim writable
  exact ⟨id, s', begun⟩

theorem dump (sim : Simulation a m counting) (holds : Holds m s c) : a.dump s = .ok c := by
  obtain ⟨r, state, idle, opened, rfl⟩ := holds
  rw [sim.dump state, Contract.begin_of_idle idle opened]
  rfl

private theorem finished (sim : Simulation a m counting) {r : Contract} {b : Block} (keep : Bool)
    (state : m.state s r) (block : r.block = some b) (opened : r.closed = false) :
    ∃ s', a.finish b.id keep s = (.ok (), s') ∧ Holds m s' (r.settle b keep).contents := by
  obtain ⟨s', ends, state'⟩ := sim.finish keep state block
  exact ⟨s', ends, _, state', rfl, opened, rfl⟩

/-- An update is kept as a whole, or nothing of it is. -/
theorem transaction_update (sim : Simulation a m counting) (holds : Holds m s c)
    {body : Nat → Calls σ α} {f : Contents → Except Failure (α × Contents)}
    (updates : Updates m body f) :
    (∀ x d, f c = .ok (x, d) → ∃ s', transaction a true body s = (.ok x, s') ∧ Holds m s' d) ∧
    ∀ failure, f c = .error failure →
      ∃ s', transaction a true body s = (.error failure, s') ∧ Holds m s' c := by
  obtain ⟨id, begun, r, begins, state, opened, rfl, block⟩ := holds.begun sim true
  have writing : r.writing id = .ok r.contents := by
    rw [Contract.writing, Contract.running_eq_ok_iff.mpr ⟨block, rfl⟩]
    rfl
  obtain ⟨succeeds, fails⟩ := updates begun r id r.contents state writing
  refine ⟨fun x d done => ?_, fun failure failed => ?_⟩
  · obtain ⟨written, calls, state'⟩ := succeeds x d done
    obtain ⟨s', ends, holds'⟩ := finished sim true state' rfl opened
    refine ⟨s', ?_, holds'⟩
    unfold transaction
    simp only [ExceptT.mk, begins, calls, ends]
    rfl
  · obtain ⟨written, e, calls, state'⟩ := fails failure failed
    obtain ⟨s', ends, holds'⟩ := finished sim false state' rfl opened
    refine ⟨s', ?_, holds'⟩
    unfold transaction
    simp only [ExceptT.mk, begins, calls, ends]

theorem transaction_view (sim : Simulation a m counting) (holds : Holds m s c)
    {body : Nat → Calls σ α} {f : Contents → Except Failure α} (views : Views m body f) :
    ∃ s', transaction a false body s = (f c, s') ∧ Holds m s' c := by
  obtain ⟨id, begun, r, begins, state, opened, rfl, block⟩ := holds.begun sim false
  have visible : r.visible id = .ok r.contents := by
    rw [Contract.visible, Contract.running_eq_ok_iff.mpr ⟨block, rfl⟩]
    rfl
  have calls := views begun r id r.contents state visible
  have ends (keep : Bool) :
      ∃ s', a.finish id keep begun = (.ok (), s') ∧ Holds m s' r.contents := by
    obtain ⟨s', ends, holds'⟩ := finished sim keep state block opened
    refine ⟨s', ends, ?_⟩
    cases keep <;> exact holds'
  cases result : f r.contents with
  | error failure =>
    obtain ⟨s', ends, holds'⟩ := ends false
    refine ⟨s', ?_, holds'⟩
    rw [result] at calls
    unfold transaction
    simp only [ExceptT.mk, begins, calls, ends]
  | ok x =>
    obtain ⟨s', ends, holds'⟩ := ends true
    refine ⟨s', ?_, holds'⟩
    rw [result] at calls
    unfold transaction
    simp only [ExceptT.mk, begins, calls, ends]
    rfl

end Holds
end Cellstore.Store.Calls
