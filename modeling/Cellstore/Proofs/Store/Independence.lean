import Cellstore.Proofs.Statement.WellFormed
import Cellstore.Proofs.Store.Atomicity

/-! Commands on different tables do not see each other.
A command reads one bucket, which may be missing, and replaces it by another one, if it changes
anything. So it does not matter which of two commands on different tables comes first, and one
that fails in between changes nothing for the other. -/
namespace Cellstore

namespace SortedMap

variable {κ ν : Type} [KeyOrder κ]

/-- The map with this value under a key, or with none. -/
def replace (m : SortedMap κ ν) (k : κ) : Option ν → SortedMap κ ν
  | some v => m.insert k v
  | none => m.erase k

theorem get?_replace [DecidableEq κ] (m : SortedMap κ ν) (k j : κ) (v : Option ν) :
    (m.replace k v).get? j = if k = j then v else m.get? j := by
  cases v with
  | none => exact get?_erase m k j
  | some v => exact get?_insert m k j v

end SortedMap

namespace Execution
open Store.Calls (onContents writes)

section
variable {α : Type} {table other : String} {f g : Contents → Except Failure (α × Contents)}
  {c d : Contents}

/-- A change that knows and replaces one bucket only. -/
def Touches (table : String) (f : Contents → Except Failure (α × Contents)) : Prop :=
  ∃ change : Option Bucket → Except Failure (α × Option Bucket),
    ∀ c, f c = (change (c.get? table)).map fun y => (y.1, c.replace table y.2)

/-- The outcome of a change, and the contents after it: they stay as they are if it fails. -/
def settled (f : Contents → Except Failure (α × Contents)) (c : Contents) :
    Except Failure α × Contents :=
  match f c with
  | .ok (x, d) => (.ok x, d)
  | .error failure => (.error failure, c)

namespace Touches

theorem outcome_eq (touches : Touches table f) (same : c.get? table = d.get? table) :
    (settled f c).1 = (settled f d).1 := by
  obtain ⟨change, eq⟩ := touches
  unfold settled
  rw [eq, eq, same]
  cases change (d.get? table) <;> rfl

theorem get?_settled_eq (touches : Touches table f) (same : c.get? table = d.get? table) :
    (settled f c).2.get? table = (settled f d).2.get? table := by
  obtain ⟨change, eq⟩ := touches
  unfold settled
  rw [eq, eq, same]
  cases change (d.get? table) with
  | error failure => exact same
  | ok y =>
    show (c.replace table y.2).get? table = (d.replace table y.2).get? table
    rw [SortedMap.get?_replace, SortedMap.get?_replace, if_pos rfl, if_pos rfl]

theorem get?_settled_of_ne (touches : Touches table f) (apart : table ≠ other) (c : Contents) :
    (settled f c).2.get? other = c.get? other := by
  obtain ⟨change, eq⟩ := touches
  unfold settled
  rw [eq]
  cases change (c.get? table) with
  | error failure => rfl
  | ok y =>
    show (c.replace table y.2).get? other = c.get? other
    rw [SortedMap.get?_replace, if_neg apart]

theorem outcome_after (here : Touches table f) (there : Touches other g) (apart : table ≠ other)
    (c : Contents) : (settled g (settled f c).2).1 = (settled g c).1 :=
  there.outcome_eq (here.get?_settled_of_ne apart c)

theorem settled_comm (here : Touches table f) (there : Touches other g) (apart : table ≠ other)
    (c : Contents) : (settled g (settled f c).2).2 = (settled f (settled g c).2).2 := by
  apply SortedMap.ext_get?
  intro name
  by_cases first : table = name
  · subst first
    rw [there.get?_settled_of_ne apart.symm]
    exact (here.get?_settled_eq (there.get?_settled_of_ne apart.symm c)).symm
  by_cases second : other = name
  · subst second
    rw [here.get?_settled_of_ne apart]
    exact there.get?_settled_eq (here.get?_settled_of_ne apart c)
  · rw [there.get?_settled_of_ne second, here.get?_settled_of_ne first,
      here.get?_settled_of_ne first, there.get?_settled_of_ne second]

end Touches

private theorem touches_table (change : Bucket → Except Failure (α × Bucket))
    (eq : ∀ c, f c = match tableOf c table with
      | .error failure => .error failure
      | .ok b => (change b).map fun y => (y.1, c.insert table y.2)) : Touches table f := by
  refine ⟨fun found => match found with
    | none => .error (.noTable table)
    | some b => (change b).map fun y => (y.1, some y.2), fun c => ?_⟩
  rw [eq, tableOf]
  cases c.get? table with
  | none => rfl
  | some b => cases h : change b <;> simp only [h] <;> rfl

end

theorem touches_createTable [Json.Room] (table : String) (columns : List ColumnDefinition) :
    Touches table (createTable table columns) := by
  refine ⟨fun found => if table = "" then .error (.storage .unnamedBucket)
    else (declare (found.getD .empty) columns).map fun b => (.tableCreated table, some b), fun c => ?_⟩
  unfold createTable
  split_ifs
  · rfl
  · dsimp only
    cases declare ((c.get? table).getD .empty) columns <;> rfl

theorem touches_insert (counting : Counting) (table : String) (cells : Cells) :
    Touches table (insert counting table cells) := by
  refine touches_table (fun b =>
    ((Rows.putCells (b.nextSequence counting).1 (b.nextSequence counting).2 cells).mapError .key).map
      fun d => (.inserted table, d)) fun c => ?_
  unfold insert
  cases tableOf c table with
  | error failure => rfl
  | ok b =>
    dsimp only
    cases Rows.putCells (b.nextSequence counting).1 (b.nextSequence counting).2 cells <;> rfl

/-- What a selection shows of the bucket, which stays as it is. -/
def selectedIn [Json.Room] (columns : List String) (filter : Filter) (b : Bucket) :
    Except Failure (Outcome × Bucket) :=
  match if columns.isEmpty then Schema.columnNames b else .ok columns with
  | .error fault => .error (schemaFailure fault)
  | .ok headers => .ok (.selected headers ((Rows.matching b filter).map fun r =>
      ⟨headers, Row.project headers r.cells⟩), b)

theorem touches_select [Json.Room] (table : String) (columns : List String) (filter : Filter) :
    Touches table fun c => (select table columns filter c).map fun outcome => (outcome, c) := by
  refine touches_table (selectedIn columns filter) fun c => ?_
  unfold select tableOf selectedIn
  cases found : c.get? table with
  | none => rfl
  | some b =>
    dsimp only
    cases (if columns.isEmpty then Schema.columnNames b else .ok columns) with
    | error fault => rfl
    | ok headers =>
      show Except.ok (_, c) = Except.ok (_, c.insert table b)
      rw [SortedMap.insert_of_get? found]

theorem touches_update (table column value : String) (filter : Filter) :
    Touches table (update table column value filter) := by
  refine touches_table (fun b => (assign column value b (Rows.matching b filter)).map
    fun d => (.updated table (Rows.matching b filter).length, d)) fun c => ?_
  unfold update
  cases tableOf c table with
  | error failure => rfl
  | ok b =>
    dsimp only
    cases assign column value b (Rows.matching b filter) <;> rfl

theorem touches_delete (table : String) (filter : Filter) : Touches table (delete table filter) := by
  refine touches_table (fun b => .ok (.deleted table (Rows.matching b filter).length,
    (Rows.matching b filter).foldl Rows.deleteRow b)) fun c => ?_
  unfold delete
  cases tableOf c table <;> rfl

theorem touches_dropTable (table : String) : Touches table (dropTable table) := by
  refine ⟨fun found => if found.isSome then .ok (.tableDropped table, none)
    else .error (.noTable table), fun c => ?_⟩
  unfold dropTable SortedMap.contains
  cases c.get? table <;> rfl

theorem touches_onContents [Json.Room] (counting : Counting) (c : Command) :
    Touches c.subject (onContents counting c) := by
  cases c with
  | createDatabase name | useDatabase name => exact ⟨fun _ => .error .noDatabase, fun _ => rfl⟩
  | createTable table columns => exact touches_createTable table columns
  | insert table columns values sameLength =>
    exact touches_insert counting table (columns.zip values)
  | select table columns filter => exact touches_select table columns filter
  | update table column value filter => exact touches_update table column value filter
  | delete table filter => exact touches_delete table filter
  | dropTable table => exact touches_dropTable table

/-! In a workspace. -/

/-- The workspace in which a change of the contents at a place is kept, if there is one. -/
def keep (w : Workspace) (place : String) (changed : Bool) (c : Contents) : Workspace :=
  { w with storage := if changed then w.storage.setContents place c else w.storage }

def changes (command : Command) (outcome : Except Failure Outcome) : Bool :=
  writes command && outcome.isOk

theorem setContents_setContents (s : Storage) (place : String) (c d : Contents) :
    (s.setContents place c).setContents place d = s.setContents place d := by
  unfold Storage.setContents Disk.set
  simp only [SortedMap.insert_insert]

variable {w : Workspace}

theorem keep_keep (place : String) (first second : Bool) (c d : Contents)
    (same : second = false → d = c) :
    keep (keep w place first c) place second d = keep w place (first || second) d := by
  unfold keep
  cases second with
  | false =>
    cases same rfl
    simp
  | true => cases first <;> simp [setContents_setContents]

theorem backend_keep (place : String) (changed : Bool) (c : Contents) :
    (keep w place changed c).storage.backend = w.storage.backend := by
  unfold keep
  cases changed <;> rfl

theorem contents_keep {place : String} {changed : Bool} {c : Contents}
    (same : changed = false → c = w.storage.contents place) :
    (keep w place changed c).storage.contents place = c := by
  unfold keep
  cases changed with
  | false => exact (same rfl).symm
  | true => exact Storage.contents_setContents_self ..

theorem contents_keep_of_ne {place other : String} (changed : Bool) (c : Contents)
    (apart : place ≠ other) :
    (keep w place changed c).storage.contents other = w.storage.contents other := by
  unfold keep
  cases changed with
  | false => rfl
  | true => exact Storage.contents_setContents_of_ne _ _ apart

theorem settled_of_not_changes [Json.Room] {counting : Counting} {command : Command} {c : Contents}
    (kept : changes command (settled (onContents counting command) c).1 = false) :
    (settled (onContents counting command) c).2 = c := by
  unfold settled at kept ⊢
  cases result : onContents counting command c with
  | error failure => rfl
  | ok next =>
    rw [result] at kept
    cases command with
    | select table columns filter =>
      obtain ⟨outcome, _, same⟩ := map_eq_ok_iff.mp result
      cases same
      rfl
    | _ => cases kept

def result [Json.Room] (w : Workspace) (store : OpenStore) (command : Command) :
    Except Failure Outcome × Contents :=
  settled (onContents w.storage.backend.counting command) (w.storage.contents store.place)

theorem contents_result [Json.Room] (w : Workspace) (store : OpenStore) (command : Command) :
    (keep w store.place (changes command (result w store command).1)
      (result w store command).2).storage.contents store.place = (result w store command).2 :=
  contents_keep settled_of_not_changes

/-- On an idle store a command does to the contents what it does to contents in general. -/
theorem execute_of_idle [Json.Room] {command : Command} {name : String} {store : OpenStore}
    (needs : command.requiresDatabase = true) (active : w.session.active = some (name, store))
    (idle : store.IsIdle) : execute w (.command command) = ((result w store command).1,
      keep w store.place (changes command (result w store command).1) (result w store command).2) := by
  have there : ¬ ((Request.command command).requiresDatabase = true ∧
      w.session.active.isNone = true) := by simp [active]
  have update (body : Contents → Except Failure (Outcome × Contents)) :
      w.update body = ((settled body (w.storage.contents store.place)).1,
        keep w store.place (settled body (w.storage.contents store.place)).1.isOk
          (settled body (w.storage.contents store.place)).2) := by
    rw [Workspace.update_of_idle active idle]
    unfold settled
    cases body (w.storage.contents store.place) <;> rfl
  unfold execute
  rw [if_neg there]
  cases command with
  | createDatabase name | useDatabase name => cases needs
  | select table columns filter =>
    show w.view _ = _
    rw [Workspace.view_of_idle active idle]
    unfold result settled onContents
    dsimp only
    cases select table columns filter (w.storage.contents store.place) <;> rfl
  | _ => exact update _

/-- Without an idle store every command on the active database fails alike. -/
theorem execute_cases [Json.Room] (w : Workspace) :
    (∃ name store, w.session.active = some (name, store) ∧ store.IsIdle) ∨
    ∃ failure, ∀ command : Command, command.requiresDatabase = true →
      execute w (.command command) = (.error failure, w) := by
  cases active : w.session.active with
  | none =>
    refine .inr ⟨.noDatabase, fun command needs => ?_⟩
    simp [execute, Request.requiresDatabase, needs, active]
  | some entry =>
    obtain ⟨name, store⟩ := entry
    cases begun : Workspace.begin store with
    | ok next => exact .inl ⟨name, store, rfl, Workspace.idle_of_begin begun⟩
    | error fault =>
      refine .inr ⟨.ofStore fault, fun command needs => ?_⟩
      have there : ¬ ((Request.command command).requiresDatabase = true ∧
          w.session.active.isNone = true) := by simp [active]
      unfold execute
      rw [if_neg there]
      cases command with
      | createDatabase name | useDatabase name => cases needs
      | select table columns filter => simp only [run, Workspace.view, Workspace.active, active, begun]
      | _ => simp only [run, Workspace.update, Workspace.active, active, begun]

end Execution

/-- Two commands in either order: each has the outcome that it has alone, the states after both are
the same, and neither shows in a bucket other than that of its table. -/
structure Independent {σ β : Type} (run : Command → σ → Except Failure Outcome × σ)
    (same : σ → σ → Prop) (bucket : String → σ → β) (c d : Command) (s : σ) : Prop where
  first : (run c (run d s).2).1 = (run c s).1
  second : (run d (run c s).2).1 = (run d s).1
  state : same (run d (run c s).2).2 (run c (run d s).2).2
  outsideFirst : ∀ table, c.subject ≠ table → bucket table (run c s).2 = bucket table s
  outsideSecond : ∀ table, d.subject ≠ table → bucket table (run d s).2 = bucket table s

namespace Execution
open Store.Calls (onContents writes)

variable {c d : Command}

private theorem execute_execute [Json.Room] {w : Workspace} {name : String} {store : OpenStore}
    (needs : c.requiresDatabase = true) (needs' : d.requiresDatabase = true)
    (apart : c.subject ≠ d.subject) (active : w.session.active = some (name, store))
    (idle : store.IsIdle) :
    execute (execute w (.command c)).2 (.command d) = ((result w store d).1,
      keep w store.place (changes c (result w store c).1 || changes d (result w store d).1)
        (settled (onContents w.storage.backend.counting d) (result w store c).2).2) := by
  let v := keep w store.place (changes c (result w store c).1) (result w store c).2
  have first : (execute w (.command c)).2 = v := by rw [execute_of_idle needs active idle]
  have next : result v store d =
      settled (onContents w.storage.backend.counting d) (result w store c).2 := by
    show settled (onContents v.storage.backend.counting d) (v.storage.contents store.place) = _
    rw [contents_result, backend_keep]
  have same : (result v store d).1 = (result w store d).1 := by
    rw [next]
    exact (touches_onContents _ c).outcome_after (touches_onContents _ d) apart _
  rw [first, execute_of_idle (w := v) needs' active idle, same, ← next]
  refine congrArg _ (keep_keep _ _ _ _ _ fun unchanged => ?_)
  rw [← same, next] at unchanged
  rw [next]
  exact settled_of_not_changes unchanged

theorem independent_workspace [Json.Room] (needs : c.requiresDatabase = true)
    (needs' : d.requiresDatabase = true) (apart : c.subject ≠ d.subject) (w : Workspace) :
    Independent (fun command w => execute w (.command command)) Eq
      (fun table w place => (w.storage.contents place).get? table) c d w := by
  rcases execute_cases w with ⟨name, store, active, idle⟩ | ⟨failure, refused⟩
  · have outside {command : Command} (needs : command.requiresDatabase = true) (table : String)
        (other : command.subject ≠ table) :
        (fun place => ((execute w (.command command)).2.storage.contents place).get? table) =
          fun place => (w.storage.contents place).get? table := by
      rw [execute_of_idle needs active idle]
      funext place
      by_cases here : store.place = place
      · subst here
        rw [contents_result]
        exact (touches_onContents _ command).get?_settled_of_ne other _
      · rw [contents_keep_of_ne _ _ here]
    refine ⟨?_, ?_, ?_, outside needs, outside needs'⟩
    · rw [execute_execute needs' needs apart.symm active idle, execute_of_idle needs active idle]
    · rw [execute_execute needs needs' apart active idle, execute_of_idle needs' active idle]
    · rw [execute_execute needs needs' apart active idle,
        execute_execute needs' needs apart.symm active idle, Bool.or_comm]
      exact congrArg (keep w store.place _)
        ((touches_onContents _ c).settled_comm (touches_onContents _ d) apart _)
  · constructor <;> simp [refused c needs, refused d needs']

end Execution

namespace Store.Calls
open Execution (settled touches_onContents)

variable {σ η : Type} {a : Adapter σ η} {m : Matching σ η} {counting : Counting} {c d : Command}
  {s : σ} {contents : Contents}

theorem Holds.settled [Json.Room] (sim : Simulation a m counting) (holds : Holds m s contents)
    (needs : c.requiresDatabase = true) :
    (Calls.execute a c s).1 = (settled (onContents counting c) contents).1 ∧
      Holds m (Calls.execute a c s).2 (settled (onContents counting c) contents).2 := by
  obtain ⟨succeeds, fails⟩ := holds.execute sim c needs
  unfold Execution.settled
  cases result : onContents counting c contents with
  | error failure =>
    obtain ⟨s', calls, holds'⟩ := fails failure result
    rw [calls]
    exact ⟨rfl, holds'⟩
  | ok next =>
    obtain ⟨s', calls, holds'⟩ := succeeds next.1 next.2 result
    rw [calls]
    exact ⟨rfl, holds'⟩

theorem Holds.independent [Json.Room] (sim : Simulation a m counting) (holds : Holds m s contents)
    (needs : c.requiresDatabase = true) (needs' : d.requiresDatabase = true)
    (apart : c.subject ≠ d.subject) :
    Independent (Calls.execute a) (fun s s' => ∃ e, a.dump s = .ok e ∧ a.dump s' = .ok e)
      (fun table s => (a.dump s).map (·.get? table)) c d s := by
  obtain ⟨one, afterOne⟩ := holds.settled (c := c) sim needs
  obtain ⟨two, afterTwo⟩ := holds.settled (c := d) sim needs'
  obtain ⟨oneLast, both⟩ := afterTwo.settled (c := c) sim needs
  obtain ⟨twoLast, both'⟩ := afterOne.settled (c := d) sim needs'
  have here := touches_onContents counting c
  have there := touches_onContents counting d
  refine ⟨?_, ?_, ⟨_, both'.dump sim, ?_⟩, fun table other => ?_, fun table other => ?_⟩
  · rw [oneLast, one, there.outcome_after here apart.symm]
  · rw [twoLast, two, here.outcome_after there apart]
  · rw [both.dump sim, here.settled_comm there apart]
  · rw [afterOne.dump sim, holds.dump sim]
    exact congrArg Except.ok (here.get?_settled_of_ne other contents)
  · rw [afterTwo.dump sim, holds.dump sim]
    exact congrArg Except.ok (there.get?_settled_of_ne other contents)

end Store.Calls

namespace Execution
open Store Store.Calls

/-- Two commands on different tables are independent of each other: in every workspace, and call by
call on every idle store in memory or in a file. -/
theorem commands_on_different_tables_commute [Json.Room] {c d : Command}
    (needs : c.requiresDatabase = true) (needs' : d.requiresDatabase = true)
    (apart : c.subject ≠ d.subject) :
    (∀ w : Workspace, Independent (fun command w => execute w (.command command)) Eq
      (fun table w place => (w.storage.contents place).get? table) c d w) ∧
    (∀ s contents, Holds Memory.matching s contents → Independent (Calls.execute memoryAdapter)
      (fun s s' => ∃ e, Memory.dump s = .ok e ∧ Memory.dump s' = .ok e)
      (fun table s => (Memory.dump s).map (·.get? table)) c d s) ∧
    (∀ s contents, Holds File.matching s contents → Independent (Calls.execute fileAdapter)
      (fun s s' => ∃ e, File.dump s = .ok e ∧ File.dump s' = .ok e)
      (fun table s => (File.dump s).map (·.get? table)) c d s) :=
  ⟨independent_workspace needs needs' apart,
    fun _ _ holds => holds.independent Memory.simulation needs needs' apart,
    fun _ _ holds => holds.independent File.simulation needs needs' apart⟩

/-- An insertion that fails at its second cell, and the creation of a table beside it. -/
theorem failed_insertion_and_creation_commute :
    let c : Command := .insert "t" ["a", "b:"] ["1", "2"] rfl
    let d : Command := .createTable "u" [⟨"k", "k text", by decide⟩]
    c.requiresDatabase = true ∧ d.requiresDatabase = true ∧ c.subject ≠ d.subject ∧
    (execute damaged (.command c)).1 = .error (.key (.invalidColumn "b:")) ∧
    (execute damaged (.command d)).1 = .ok (.tableCreated "u") ∧
    Independent (fun command w => execute w (.command command)) Eq
      (fun table w place => (w.storage.contents place).get? table) c d damaged := by
  intro c d
  have apart : c.subject ≠ d.subject := by decide
  exact ⟨rfl, rfl, apart, by rfl, by rfl,
    (commands_on_different_tables_commute rfl rfl apart).1 damaged⟩

end Execution
end Cellstore
