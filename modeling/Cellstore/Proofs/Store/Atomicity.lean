import Cellstore.Proofs.Store.Commands
import Cellstore.Proofs.Store.File
import Cellstore.Proofs.Store.Memory
import Cellstore.Proofs.Store.Rollback
import Cellstore.Proofs.Workspace

/-! A command that fails leaves no trace.
The workspace stays as it was. In the store itself, where the calls before the failing one have
written, the end of the block takes all of it back, and the next block can begin. -/
namespace Cellstore

namespace Workspace

variable {α : Type} {w : Workspace}

private theorem begin_cases (store : OpenStore) :
    store.IsIdle ∨ ∃ fault, begin store = .error fault := by
  cases begun : begin store with
  | error fault => exact Or.inr ⟨fault, rfl⟩
  | ok next => exact Or.inl (idle_of_begin begun)

theorem snd_view (body : Contents → Except Failure α) : (w.view body).2 = w := by
  cases active : w.session.active with
  | none => simp only [view, Workspace.active, active]
  | some entry =>
    obtain ⟨name, store⟩ := entry
    rcases begin_cases store with idle | ⟨fault, refused⟩
    · rw [view_of_idle active idle]
    · simp only [view, Workspace.active, active, refused]

theorem snd_update_of_error {body : Contents → Except Failure (α × Contents)} {f : Failure}
    (failed : (w.update body).1 = .error f) : (w.update body).2 = w := by
  cases active : w.session.active with
  | none => simp only [update, Workspace.active, active]
  | some entry =>
    obtain ⟨name, store⟩ := entry
    rcases begin_cases store with idle | ⟨fault, refused⟩
    · rw [update_of_idle active idle] at failed ⊢
      cases result : body (w.storage.contents store.place) with
      | error failure => rfl
      | ok next =>
        rw [result] at failed
        cases failed
    · simp only [update, Workspace.active, active, refused]

end Workspace

namespace Execution
open Store.Calls

variable {w : Workspace} {c : Command} {f : Failure}

theorem snd_execute_of_error [Json.Room] (needs : c.requiresDatabase = true)
    (failed : (execute w (.command c)).1 = .error f) : (execute w (.command c)).2 = w := by
  unfold execute at failed ⊢
  split_ifs at failed ⊢
  · rfl
  · cases c with
    | createDatabase name | useDatabase name => cases needs
    | select table columns filter => exact Workspace.snd_view _
    | _ => exact Workspace.snd_update_of_error failed

/-- On an idle store a command fails as it fails on the contents. -/
theorem onContents_of_error [Json.Room] {name : String} {store : OpenStore}
    (needs : c.requiresDatabase = true) (active : w.session.active = some (name, store))
    (idle : store.IsIdle) (failed : (execute w (.command c)).1 = .error f) :
    onContents w.storage.backend.counting c (w.storage.contents store.place) = .error f := by
  have update {body : Contents → Except Failure (Outcome × Contents)}
      (failed : (w.update body).1 = .error f) :
      body (w.storage.contents store.place) = .error f := by
    rw [Workspace.update_of_idle active idle] at failed
    cases result : body (w.storage.contents store.place) with
    | error failure =>
      rw [result] at failed
      cases failed
      rfl
    | ok next =>
      rw [result] at failed
      cases failed
  have there : ¬ ((Request.command c).requiresDatabase = true ∧
      w.session.active.isNone = true) := by simp [active]
  unfold execute at failed
  rw [if_neg there] at failed
  cases c with
  | createDatabase name | useDatabase name => cases needs
  | select table columns filter =>
    have result : (w.view (select table columns filter)).1 = .error f := failed
    rw [Workspace.view_of_idle active idle] at result
    dsimp only at result
    unfold onContents
    dsimp only
    rw [result]
    rfl
  | _ => exact update failed

end Execution

namespace Store.Calls

variable {σ η : Type}

/-- Run call by call on any idle store with these contents, the command fails, and leaves an idle
store with the same contents. -/
def TakesBack [Json.Room] (a : Adapter σ η) (m : Matching σ η) (c : Command) (f : Failure)
    (contents : Contents) : Prop :=
  ∀ s, Holds m s contents → ∃ s', Calls.execute a c s = (.error f, s') ∧ Holds m s' contents ∧
    a.dump s' = .ok contents ∧ ∀ writable, ∃ id begun, a.begin writable s' = .ok (id, begun)

theorem takesBack [Json.Room] {a : Adapter σ η} {m : Matching σ η} {counting : Counting}
    (sim : Simulation a m counting) {c : Command} {f : Failure} {contents : Contents}
    (needs : c.requiresDatabase = true) (failed : onContents counting c contents = .error f) :
    TakesBack a m c f contents := by
  intro s holds
  obtain ⟨s', calls, holds'⟩ := (holds.execute sim c needs).2 f failed
  exact ⟨s', calls, holds', holds'.dump sim, holds'.begin sim⟩

theorem holds_memory (path : String) (c : Contents) :
    Holds Memory.matching { Memory.open_ path with contents := c } c :=
  ⟨{ Contract.open_ path with contents := c }, { Memory.agrees_open path with contents := rfl },
    rfl, rfl, rfl⟩

theorem holds_file (path : String) (c : Contents) :
    Holds File.matching { File.open_ path with committed := .ofContents c } c :=
  ⟨{ Contract.open_ path with contents := c },
    { File.agrees_open path with committed := .ofContents c, block := by simp [Contract.open_] },
    rfl, rfl, rfl⟩

end Store.Calls

namespace Execution
open Store Store.Calls

/-- A command on the active database that fails leaves everything as it was: the workspace with its
contents and its active database, and the store call by call. Call by call it may also fail because
others hold a lock, when it begins, in its block, or when it commits. -/
theorem failed_command_leaves_no_trace [Json.Room] {c : Command}
    (needs : c.requiresDatabase = true) :
    (∀ (w : Workspace) (f : Failure), (execute w (.command c)).1 = .error f →
      (execute w (.command c)).2 = w ∧
      ∀ name store, w.session.active = some (name, store) → store.IsIdle →
        (∃ begun, Workspace.begin store = .ok begun) ∧
        match w.storage.backend with
        | .memory => TakesBack memoryAdapter Memory.matching c f (w.storage.contents store.place)
        | .file => TakesBack fileAdapter File.matching c f (w.storage.contents store.place)) ∧
    LeavesNoTrace memoryAdapter Memory.IsQuiet Memory.Untouched c ∧
    LeavesNoTrace fileAdapter.shared (fun s => File.IsQuiet s.store)
      (fun s s' => File.Untouched s.store s'.store) c := by
  refine ⟨fun w f failed => ⟨snd_execute_of_error needs failed, fun name store active idle => ?_⟩,
    Memory.undoes.leavesNoTrace c, File.undoes.leavesNoTrace c⟩
  have fails := onContents_of_error needs active idle failed
  refine ⟨⟨_, Workspace.begin_of_idle idle⟩, ?_⟩
  cases backend : w.storage.backend with
  | memory =>
    rw [backend] at fails
    exact takesBack Memory.simulation needs fails
  | file =>
    rw [backend] at fails
    exact takesBack File.simulation needs fails

/-- A database in a file with one table, whose only entry fits no layout. -/
def damaged : Workspace where
  location := ⟨Path.ofText "data", ".db"⟩
  storage := ⟨.file, Disk.empty.set "shop.db" (.database
    (SortedMap.empty.insert "t" ⟨SortedMap.empty.insert [255] [0], 7⟩))⟩
  session := ⟨some ("shop", ⟨Path.ofText "shop.db", "shop.db", false, false⟩), 1⟩

/-- Its store, call by call. Others begin to read when the fourth call changes it. -/
def damagedStore : Shared File.State where
  store := { File.open_ "shop.db" with
    committed := .ofContents (damaged.storage.contents "shop.db") }
  coming n := if n = 3 then .read else .none

/-- The second cell is refused when the row id is drawn and the first cell is written. An insertion
of the first cell alone comes to its commit, which is refused. -/
theorem failed_insertion_leaves_no_trace :
    let c : Command := .insert "t" ["a", "b:"] ["1", "2"] rfl
    let contents := damaged.storage.contents "shop.db"
    let f : Failure := .key (.invalidColumn "b:")
    let d : Command := .insert "t" ["a"] ["1"] rfl
    let session : Session (Shared File.State) := ⟨some ("shop", damagedStore), 1⟩
    let after := Calls.inSession fileAdapter.shared d session
    (c.requiresDatabase = true ∧ (execute damaged (.command c)).1 = .error f ∧
      (execute damaged (.command c)).2 = damaged ∧
      ∃ s', Calls.execute fileAdapter c damagedStore.store = (.error f, s') ∧
        File.dump s' = .ok contents) ∧
    d.requiresDatabase = true ∧ after.1 = .error (.storage (.commit .locked)) ∧
      File.IsQuiet damagedStore.store ∧ after.2.databaseName = some "shop" ∧
      ∃ later, after.2.active = some ("shop", later) ∧
        File.Untouched damagedStore.store later.store ∧ later.store.lock = .read := by
  intro c contents f d session after
  have failed : (execute damaged (.command c)).1 = .error f := by rfl
  have refused : after.1 = .error (.storage (.commit .locked)) := by decide +zetaReduce
  have quiet : File.IsQuiet damagedStore.store := ⟨rfl, rfl, rfl, nofun⟩
  obtain ⟨same, rest⟩ := (failed_command_leaves_no_trace (c := c) rfl).1 _ _ failed
  obtain ⟨s', calls, _, dump, _⟩ := (rest "shop" _ rfl ⟨rfl, rfl⟩).2 _ (holds_file "shop.db" contents)
  obtain ⟨named, kept⟩ := (failed_command_leaves_no_trace (c := d) rfl).2.2 session _ refused
  obtain ⟨later, left, untouched, -⟩ := kept "shop" _ rfl quiet
  refine ⟨⟨rfl, failed, same, s', calls, dump⟩, rfl, refused, quiet, named, later, ?_, untouched, ?_⟩
  · show (Calls.inSession fileAdapter.shared d session).2.active = _
    rw [left]
  · have lock : (after.2.active.map fun e => e.2.store.lock) = some .read := by decide +zetaReduce
    rw [show after.2 = _ from left] at lock
    exact Option.some.inj lock

end Execution

end Cellstore
