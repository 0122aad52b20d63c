import Cellstore.Proofs.Agreement
import Cellstore.Proofs.Fate

/-! Row ids along a run.
Between the statement that creates a table and the one that drops it, the successful insertions into
it are numbered from one. Whatever else happens meanwhile, no number is skipped and none is given
out twice. -/
namespace Cellstore
open Session (IsDatabaseName)
open Statement (parse)

inductive Event where
  | statement (text : String)
  | close
  /-- The engine is closed, and a new one begins on its storage. -/
  | reopen

namespace Engine

def take [Json.Room] (e : Engine) : Event → Engine
  | .statement text => (e.execute text).2
  | .close => e.close.2
  | .reopen => .new e.workspace.location e.close.2.workspace.storage

def after [Json.Room] (e : Engine) : List Event → Engine
  | [] => e
  | event :: rest => (e.take event).after rest

/-- The events of a run, each with the engine before it. -/
def history [Json.Room] (e : Engine) : List Event → List (Engine × Event)
  | [] => []
  | event :: rest => (e, event) :: (e.take event).history rest

/-- The event is a statement with this outcome, while this database is the active one. -/
def Answers [Json.Room] (e : Engine) (database : String) (outcome : Outcome) : Event → Prop
  | .statement text => e.databaseName = some database ∧ (e.execute text).1 = .ok (.ok outcome)
  | _ => False

instance [Json.Room] (e : Engine) (database : String) (outcome : Outcome) :
    DecidablePred (e.Answers database outcome)
  | .statement _ => inferInstanceAs (Decidable (_ ∧ _))
  | .close | .reopen => inferInstanceAs (Decidable False)

def insertions [Json.Room] (e : Engine) (database table : String) (events : List Event) : Nat :=
  (e.history events).countP fun x => x.1.Answers database (.inserted table) x.2

/-- The table has been given the row ids up to a number, and goes on with the next: the next
successful insertion writes its cells under it, a statement that fails changes nothing, and no other
event but the end of the table brings an id that was not there. -/
structure Numbers [Json.Room] (e : Engine) (database table : String) (k : Nat)
    (b : Bucket) : Prop where
  there : e.workspace.bucket? database table = some b
  given : ∀ id, b.HasRow id → 0 < id ∧ id ≤ k
  insertion : ∀ text, e.Answers database (.inserted table) (.statement text) →
    ∃ columns values sameLength b',
      parse text = .ok (.insert table columns values sameLength) ∧
      (e.execute text).2.workspace.bucket? database table = some b' ∧
      AddsRow b (k + 1) (columns.zip values) b'
  failure : ∀ text, (∀ outcome, (e.execute text).1 ≠ .ok (.ok outcome)) →
    (e.execute text).2.workspace.bucket? database table = some b
  other : ∀ event, ¬ e.Answers database (.inserted table) event →
    ¬ e.Answers database (.tableDropped table) event →
    ∃ b', (e.take event).workspace.bucket? database table = some b' ∧
      ∀ id, b'.HasRow id → b.HasRow id

private theorem next_of_room {backend : Backend} {n : Nat} (room : backend = .file → n < 2 ^ 63) :
    backend.counting.next n = n + 1 := by
  cases backend with
  | memory => rfl
  | file =>
    have below : (n : Int) < 0x8000000000000000 := by
      have := room rfl
      omega
    exact Counting.next_of_lt below

theorem conclude_ok_iff {e : Engine} {label : Label} {span : Span} {answer : Except Failure Outcome}
    {outcome : Outcome} :
    (e.conclude label span answer).1 = .ok (.ok outcome) ↔ answer = .ok outcome := by
  unfold conclude
  split
  · simp
  · split <;> simp

variable {e : Engine}

theorem execute_of_parse [Json.Room] {text : String} {c : Command} (read : parse text = .ok c) :
    (e.execute text).2.workspace = (Execution.execute e.workspace (.command c)).2 ∧
      ∀ outcome, (e.execute text).1 = .ok (.ok outcome) ↔
        (Execution.execute e.workspace (.command c)).1 = .ok outcome := by
  unfold execute
  simp only [read]
  exact ⟨workspace_conclude .., fun outcome => conclude_ok_iff⟩

theorem execute_of_refused [Json.Room] {text : String} {fault : Statement.Fault}
    (refused : parse text = .error fault) : (e.execute text).2.workspace = e.workspace ∧
      ∀ outcome, (e.execute text).1 ≠ .ok (.ok outcome) := by
  unfold execute
  simp only [refused]
  refine ⟨workspace_conclude .., fun outcome answered => ?_⟩
  cases conclude_ok_iff.mp answered

private theorem workspace_close (h : e.workspace.IsPlaced) :
    e.close.2.workspace = { e.workspace with session := { e.workspace.session with active := none } } := by
  unfold close Workspace.close
  rw [h.close_eq]

theorem isPlaced_new {l : Location} {s : Storage} (sound : l.IsSound s.backend)
    (laid : ∀ place, Laid (s.contents place)) : (Engine.new l s).workspace.IsPlaced where
  laid := ⟨laid, nofun⟩
  sound := sound
  active := nofun

theorem take_stays [Json.Room] (h : e.workspace.IsPlaced) (event : Event) :
    e.workspace.StaysPlaced (e.take event).workspace := by
  cases event with
  | statement text =>
    cases read : parse text with
    | error fault =>
      rw [take, (execute_of_refused read).1]
      exact h.refl
    | ok c =>
      rw [take, (execute_of_parse read).1]
      exact (h.execute ((Statement.parse_spec text).1 c read)).stays
  | close =>
    rw [take, workspace_close h]
    exact ⟨⟨⟨h.laid.contents, nofun⟩, h.sound, nofun⟩, rfl, rfl⟩
  | reopen =>
    rw [take, workspace_close h]
    exact ⟨isPlaced_new h.sound h.laid.contents, rfl, rfl⟩

theorem after_stays [Json.Room] (h : e.workspace.IsPlaced) (events : List Event) :
    e.workspace.StaysPlaced (e.after events).workspace := by
  induction events generalizing e with
  | nil => exact h.refl
  | cons event rest ih =>
    have first := take_stays h event
    exact first.trans (ih first.placed)

section
variable {database table : String} {b : Bucket} {k : Nat}

/-- An event leaves the bucket of a table alone, or it is a command with the table's database as the
active one. -/
theorem take_cases [Json.Room] (h : e.workspace.IsPlaced) (named : IsDatabaseName database)
    (found : e.workspace.bucket? database table = some b)
    (counts : e.workspace.storage.backend.counting.next b.sequence = b.sequence + 1) (event : Event) :
    ((e.take event).workspace.bucket? database table = some b ∧
      ∀ outcome, ¬ e.Answers database outcome event) ∨
    ∃ text c, event = .statement text ∧ parse text = .ok c ∧ e.databaseName = some database ∧
      Fate table b c (Execution.execute e.workspace (.command c)).1
        ((e.take event).workspace.bucket? database table) := by
  cases event with
  | statement text =>
    cases read : parse text with
    | error fault =>
      obtain ⟨same, refused⟩ := execute_of_refused (e := e) read
      left
      rw [take, same]
      exact ⟨found, fun outcome answered => refused outcome answered.2⟩
    | ok c =>
      have decides := h.execute ((Statement.parse_spec text).1 c read)
      rw [take, (execute_of_parse read).1]
      by_cases active : e.databaseName = some database
      · exact .inr ⟨text, c, rfl, read, active, decides.here database table b active found counts⟩
      · left
        rw [decides.elsewhere database named active table]
        exact ⟨found, fun outcome answered => active answered.1⟩
  | close =>
    left
    rw [take, workspace_close h]
    exact ⟨found, nofun⟩
  | reopen =>
    left
    rw [take, workspace_close h]
    exact ⟨found, nofun⟩

theorem take_insertion [Json.Room] (h : e.workspace.IsPlaced) (named : IsDatabaseName database)
    (found : e.workspace.bucket? database table = some b)
    (counts : e.workspace.storage.backend.counting.next b.sequence = b.sequence + 1) {event : Event}
    (answered : e.Answers database (.inserted table) event) :
    ∃ text columns values sameLength b', event = .statement text ∧
      parse text = .ok (.insert table columns values sameLength) ∧
      (e.take event).workspace.bucket? database table = some b' ∧ b'.sequence = b.sequence + 1 ∧
      AddsRow b (b.sequence + 1).toNat (columns.zip values) b' := by
  rcases take_cases h named found counts event with ⟨-, silent⟩ | ⟨text, c, rfl, read, active, fate⟩
  · exact absurd answered (silent _)
  · rw [((execute_of_parse read).2 _).mp answered.2] at fate
    generalize (e.take (.statement text)).workspace.bucket? database table = bucket at fate
    cases fate with
    | kept insertion => exact absurd rfl insertion
    | inserted insertion drawn adds =>
      subst insertion
      exact ⟨text, _, _, _, _, rfl, read, rfl, drawn, adds⟩

theorem take_other [Json.Room] (h : e.workspace.IsPlaced) (named : IsDatabaseName database)
    (found : e.workspace.bucket? database table = some b)
    (counts : e.workspace.storage.backend.counting.next b.sequence = b.sequence + 1) {event : Event}
    (insertion : ¬ e.Answers database (.inserted table) event)
    (drop : ¬ e.Answers database (.tableDropped table) event) :
    ∃ b', (e.take event).workspace.bucket? database table = some b' ∧ AddsNoRow b b' := by
  rcases take_cases h named found counts event with ⟨same, -⟩ | ⟨text, c, rfl, read, active, fate⟩
  · exact ⟨b, same, .refl b⟩
  · have silent {outcome : Outcome} (other : ¬ e.Answers database outcome (.statement text)) :
        (Execution.execute e.workspace (.command c)).1 ≠ .ok outcome := fun answered =>
      other ⟨active, ((execute_of_parse read).2 outcome).mpr answered⟩
    have noInsertion := silent insertion
    have noDrop := silent drop
    generalize (Execution.execute e.workspace (.command c)).1 = answer at fate noInsertion noDrop
    generalize (e.take (.statement text)).workspace.bucket? database table = bucket at fate
    cases fate with
    | failed => exact ⟨b, rfl, .refl b⟩
    | kept _ _ adds => exact ⟨_, rfl, adds⟩
    | inserted => exact absurd rfl noInsertion
    | dropped => exact absurd rfl noDrop

theorem take_failure [Json.Room] (h : e.workspace.IsPlaced) (named : IsDatabaseName database)
    (found : e.workspace.bucket? database table = some b)
    (counts : e.workspace.storage.backend.counting.next b.sequence = b.sequence + 1) {text : String}
    (failed : ∀ outcome, (e.execute text).1 ≠ .ok (.ok outcome)) :
    (e.execute text).2.workspace.bucket? database table = some b := by
  rcases take_cases h named found counts (.statement text) with
    ⟨same, -⟩ | ⟨_, c, ⟨⟩, read, -, fate⟩
  · exact same
  · have silent (outcome : Outcome) :
        (Execution.execute e.workspace (.command c)).1 ≠ .ok outcome := fun answered =>
      failed outcome (((execute_of_parse read).2 outcome).mpr answered)
    rw [take] at fate
    generalize (Execution.execute e.workspace (.command c)).1 = answer at fate silent
    generalize (e.execute text).2.workspace.bucket? database table = bucket at fate ⊢
    cases fate with
    | failed => rfl
    | kept | inserted | dropped => exact absurd rfl (silent _)

theorem numbers_of_sequence [Json.Room] (h : e.workspace.IsPlaced) (named : IsDatabaseName database)
    (found : e.workspace.bucket? database table = some b) (sequence : b.sequence = k)
    (counts : e.workspace.storage.backend.counting.next b.sequence = b.sequence + 1) :
    e.Numbers database table k b where
  there := found
  given := by
    intro id there
    obtain ⟨columns, -, built⟩ := h.laid.contents _ table b found
    obtain ⟨positive, bound⟩ := built.of_hasRow there
    omega
  insertion := by
    intro text answered
    obtain ⟨_, columns, values, sameLength, b', ⟨⟩, read, there, -, adds⟩ :=
      take_insertion h named found counts answered
    have next : (b.sequence + 1).toNat = k + 1 := by omega
    rw [next] at adds
    exact ⟨columns, values, sameLength, b', read, there, adds⟩
  failure := fun text failed => take_failure h named found counts failed
  other := by
    intro event insertion drop
    obtain ⟨b', there, adds⟩ := take_other h named found counts insertion drop
    exact ⟨b', there, adds.rows⟩

theorem sequence_after [Json.Room] (h : e.workspace.IsPlaced) (named : IsDatabaseName database)
    (found : e.workspace.bucket? database table = some b) (sequence : b.sequence = k)
    {events : List Event}
    (kept : ∀ x ∈ e.history events, ¬ x.1.Answers database (.tableDropped table) x.2)
    (few : e.workspace.storage.backend = .file → k + e.insertions database table events < 2 ^ 63) :
    ∃ b', (e.after events).workspace.bucket? database table = some b' ∧
      b'.sequence = (k + e.insertions database table events : Nat) := by
  induction events generalizing e b k with
  | nil => exact ⟨b, found, sequence⟩
  | cons event rest ih =>
    obtain ⟨here, later⟩ := List.forall_mem_cons.mp kept
    have stays := take_stays h event
    have split : e.insertions database table (event :: rest) =
        (e.take event).insertions database table rest +
          if e.Answers database (.inserted table) event then 1 else 0 := by
      simp only [insertions, history, List.countP_cons, decide_eq_true_eq]
    have counts : e.workspace.storage.backend.counting.next b.sequence = b.sequence + 1 := by
      rw [sequence]
      refine next_of_room fun file => ?_
      have room := few file
      omega
    -- An event counts one further, or leaves one insertion more to the rest.
    have step : ∃ b' k', (e.take event).workspace.bucket? database table = some b' ∧
        b'.sequence = (k' : Nat) ∧
        k' + (e.take event).insertions database table rest =
          k + e.insertions database table (event :: rest) := by
      by_cases inserts : e.Answers database (.inserted table) event
      · obtain ⟨_, _, _, _, b', -, -, there, drawn, -⟩ := take_insertion h named found counts inserts
        refine ⟨b', k + 1, there, by omega, ?_⟩
        rw [split, if_pos inserts]
        omega
      · obtain ⟨b', there, adds⟩ := take_other h named found counts inserts here
        refine ⟨b', k, there, adds.sequence.trans sequence, ?_⟩
        rw [split, if_neg inserts]
        omega
    obtain ⟨b', k', there, counted, total⟩ := step
    have room : (e.take event).workspace.storage.backend = .file →
        k' + (e.take event).insertions database table rest < 2 ^ 63 := by
      rw [stays.backend, total]
      exact few
    rw [← total]
    exact ih stays.placed there counted later room

theorem take_creation [Json.Room] (h : e.workspace.IsPlaced)
    (absent : e.workspace.bucket? database table = none) {event : Event}
    (created : e.Answers database (.tableCreated table) event) :
    IsDatabaseName database ∧
      ∃ b, (e.take event).workspace.bucket? database table = some b ∧ b.sequence = 0 := by
  cases event with
  | statement text =>
    obtain ⟨active, answered⟩ := created
    obtain ⟨⟨_, store⟩, entry, rfl⟩ := Option.map_eq_some_iff.mp active
    refine ⟨(h.active _ store entry).1, ?_⟩
    cases read : parse text with
    | error fault => exact absurd answered ((execute_of_refused read).2 _)
    | ok c =>
      obtain ⟨after, same⟩ := execute_of_parse (e := e) read
      rw [take, after]
      exact h.creates active absent ((same _).mp answered)
  | close | reopen => exact created.elim

end

/-- In every run from nothing: while a table that it created has not been dropped, the row ids are
the numbers of the successful insertions into it. -/
theorem insertions_number_rows [Json.Room] {l : Location} {s : Storage}
    (sound : l.IsSound s.backend) (fresh : ∀ place, s.contents place = .empty)
    {earlier : List Event} (reached : e = (Engine.new l s).after earlier)
    {database table : String} (absent : e.workspace.bucket? database table = none)
    {creation : Event} (created : e.Answers database (.tableCreated table) creation)
    {later : List Event}
    (kept : ∀ x ∈ (e.take creation).history later, ¬ x.1.Answers database (.tableDropped table) x.2)
    (few : s.backend = .file → (e.take creation).insertions database table later < 2 ^ 63) :
    ∃ b, ((e.take creation).after later).Numbers database table
      ((e.take creation).insertions database table later) b := by
  have laid : ∀ place, Laid (s.contents place) := fun place => fresh place ▸ laid_empty
  have before := after_stays (isPlaced_new sound laid) earlier
  rw [← reached] at before
  obtain ⟨named, b, there, zero⟩ := take_creation before.placed absent created
  have made := before.trans (take_stays before.placed creation)
  have all := made.trans (after_stays made.placed later)
  obtain ⟨last, found, sequence⟩ := sequence_after made.placed named there zero kept fun file => by
    rw [Nat.zero_add]
    exact few (made.backend.symm.trans file)
  rw [Nat.zero_add] at sequence
  refine ⟨last, numbers_of_sequence all.placed named found sequence ?_⟩
  rw [sequence]
  exact next_of_room fun file => few (all.backend.symm.trans file)

/-- A row is deleted and the engine is closed between two insertions. -/
theorem insertions_number_rows_goods :
    let l : Location := ⟨Path.ofText "data", ".db"⟩
    let e := (Engine.new l (.empty .memory)).after [.statement "USE shop"]
    let creation : Event := .statement "CREATE TABLE goods (a)"
    let later : List Event := [.statement "INSERT INTO goods (a) VALUES (1)",
      .statement "DELETE FROM goods WHERE a = 1", .reopen, .statement "USE shop",
      .statement "INSERT INTO goods (a) VALUES (1)"]
    l.IsSound .memory ∧ e.workspace.bucket? "shop" "goods" = none ∧
      e.Answers "shop" (.tableCreated "goods") creation ∧
      (∀ x ∈ (e.take creation).history later, ¬ x.1.Answers "shop" (.tableDropped "goods") x.2) ∧
      (e.take creation).insertions "shop" "goods" later = 2 ∧
      ∃ b, ((e.take creation).after later).Numbers "shop" "goods" 2 b := by
  intro l e creation later
  have sound : l.IsSound .memory := ⟨by decide, by rintro ⟨⟩⟩
  obtain ⟨absent, created, kept, two⟩ : (e.workspace.bucket? "shop" "goods").isNone = true ∧
      e.Answers "shop" (.tableCreated "goods") creation ∧
      (∀ x ∈ (e.take creation).history later, ¬ x.1.Answers "shop" (.tableDropped "goods") x.2) ∧
      (e.take creation).insertions "shop" "goods" later = 2 := by decide +kernel
  have absent := Option.isNone_iff_eq_none.mp absent
  refine ⟨sound, absent, created, kept, two, ?_⟩
  rw [← two]
  exact insertions_number_rows sound (fun _ => rfl) rfl absent created kept (by rintro ⟨⟩)

end Engine
end Cellstore
