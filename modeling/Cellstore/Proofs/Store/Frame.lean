import Cellstore.Proofs.Store.Independence
import Cellstore.Proofs.Table.Frame

/-! Commands on rows leave the columns of their table alone, and declarations leave its rows.
This is so for every bucket, with whatever other keys beside those of its columns and cells, in a
workspace and call by call on a store. -/
namespace Cellstore

/-! Commands that succeed on contents. -/

namespace Execution

variable {table : String} {c : Contents} {next : Outcome × Contents}

theorem createTable_eq_ok_iff [Json.Room] {columns : List ColumnDefinition} :
    createTable table columns c = .ok next ↔ table ≠ "" ∧ ∃ b',
      declare ((c.get? table).getD .empty) columns = .ok b' ∧
      next = (.tableCreated table, c.insert table b') := by
  unfold createTable
  split_ifs with unnamed
  · simp [unnamed]
  · cases declare ((c.get? table).getD .empty) columns <;> simp [unnamed, eq_comm]

theorem insert_eq_ok_iff {counting : Counting} {cells : Cells} :
    insert counting table cells c = .ok next ↔ ∃ b b', c.get? table = some b ∧
      Rows.putCells (b.nextSequence counting).1 (b.nextSequence counting).2 cells = .ok b' ∧
      next = (.inserted table, c.insert table b') := by
  unfold insert tableOf
  cases c.get? table with
  | none => simp
  | some b =>
    dsimp only
    cases written : Rows.putCells (b.nextSequence counting).1 (b.nextSequence counting).2 cells <;>
      simp [written, eq_comm]

theorem update_eq_ok_iff {column value : String} {filter : Filter} :
    update table column value filter c = .ok next ↔ ∃ b b', c.get? table = some b ∧
      assign column value b (Rows.matching b filter) = .ok b' ∧
      next = (.updated table (Rows.matching b filter).length, c.insert table b') := by
  unfold update tableOf
  cases c.get? table with
  | none => simp
  | some b =>
    dsimp only
    cases written : assign column value b (Rows.matching b filter) <;> simp [written, eq_comm]

theorem delete_eq_ok_iff {filter : Filter} :
    delete table filter c = .ok next ↔ ∃ b, c.get? table = some b ∧
      next = (.deleted table (Rows.matching b filter).length,
        c.insert table ((Rows.matching b filter).foldl Rows.deleteRow b)) := by
  unfold delete tableOf
  cases c.get? table <;> simp [eq_comm]

end Execution

open Store Store.Calls Text.Utf8
open Execution (settled contents_result settled_of_not_changes)

/-- What successful commands leave alone in the bucket of their table. -/
structure Separates [Json.Room] {σ : Type} (run : Command → σ → Except Failure Outcome × σ)
    (same : σ → σ → Prop) (bucket : String → σ → Option Bucket) (s : σ) : Prop where
  insert : ∀ table columns values sameLength outcome,
    (run (.insert table columns values sameLength) s).1 = .ok outcome →
    ∃ b b', bucket table s = some b ∧
      bucket table (run (.insert table columns values sameLength) s).2 = some b' ∧ KeepsSchema b b'
  update : ∀ table column value filter outcome,
    (run (.update table column value filter) s).1 = .ok outcome →
    ∃ b b', bucket table s = some b ∧
      bucket table (run (.update table column value filter) s).2 = some b' ∧
      KeepsSchema b b' ∧ b'.sequence = b.sequence
  delete : ∀ table filter outcome, (run (.delete table filter) s).1 = .ok outcome →
    ∃ b b', bucket table s = some b ∧ bucket table (run (.delete table filter) s).2 = some b' ∧
      KeepsSchema b b' ∧ b'.sequence = b.sequence
  createTable : ∀ table columns outcome b, bucket table s = some b →
    (run (.createTable table columns) s).1 = .ok outcome →
    ∃ b', bucket table (run (.createTable table columns) s).2 = some b' ∧ KeepsRows b b'
  select : ∀ table columns filter, same s (run (.select table columns filter) s).2

namespace Separates

variable {σ : Type} {run : Command → σ → Except Failure Outcome × σ} {same : σ → σ → Prop}
  {bucket : String → σ → Option Bucket} {s : σ}

/-- Runs that do to a state what the commands do to its contents. -/
theorem of_contents [Json.Room] (counting : Counting) (contents : Contents)
    (before : ∀ table, bucket table s = contents.get? table)
    (outcome : ∀ c : Command, c.requiresDatabase = true →
      (run c s).1 = (settled (onContents counting c) contents).1)
    (after : ∀ c : Command, c.requiresDatabase = true → ∀ table,
      bucket table (run c s).2 = (settled (onContents counting c) contents).2.get? table)
    (select : ∀ table columns filter, same s (run (.select table columns filter) s).2) :
    Separates run same bucket s := by
  have changed {c : Command} {o : Outcome} (needs : c.requiresDatabase = true)
      (done : (run c s).1 = .ok o) : ∃ next, onContents counting c contents = .ok next ∧
        ∀ table, bucket table (run c s).2 = next.2.get? table := by
    have there := after c needs
    rw [outcome c needs] at done
    unfold settled at done there
    cases result : onContents counting c contents with
    | error failure => simp [result] at done
    | ok next => exact ⟨next, rfl, fun table => by rw [there, result]⟩
  constructor
  · intro table columns values sameLength o done
    obtain ⟨next, result, there⟩ := changed rfl done
    obtain ⟨b, b', found, written, rfl⟩ := Execution.insert_eq_ok_iff.mp result
    refine ⟨b, b', (before table).trans found, ?_, ?_⟩
    · rw [there, SortedMap.get?_insert_self]
    · exact (KeepsSchema.nextSequence counting b).trans (.putCells written)
  · intro table column value filter o done
    obtain ⟨next, result, there⟩ := changed rfl done
    obtain ⟨b, b', found, written, rfl⟩ := Execution.update_eq_ok_iff.mp result
    refine ⟨b, b', (before table).trans found, ?_, .assign written, ?_⟩
    · rw [there, SortedMap.get?_insert_self]
    · exact (AddsNoRow.assign written).sequence
  · intro table filter o done
    obtain ⟨next, result, there⟩ := changed rfl done
    obtain ⟨b, found, rfl⟩ := Execution.delete_eq_ok_iff.mp result
    refine ⟨b, _, (before table).trans found, ?_, .delete b filter, ?_⟩
    · rw [there, SortedMap.get?_insert_self]
    · exact (AddsNoRow.delete b filter).sequence
  · intro table columns o b found done
    obtain ⟨next, result, there⟩ := changed rfl done
    obtain ⟨-, b', declared, rfl⟩ := Execution.createTable_eq_ok_iff.mp result
    rw [← before, found, Option.getD_some] at declared
    refine ⟨b', ?_, .declare declared⟩
    rw [there, SortedMap.get?_insert_self]
  · exact select

theorem of_refused [Json.Room]
    (refused : ∀ c : Command, c.requiresDatabase = true → ∃ f, run c s = (.error f, s))
    (refl : same s s) : Separates run same bucket s := by
  have fails {c : Command} {o : Outcome} (needs : c.requiresDatabase = true) :
      (run c s).1 ≠ .ok o := by
    obtain ⟨f, failed⟩ := refused c needs
    simp [failed]
  constructor
  · intro table columns values sameLength o done
    exact absurd done (fails rfl)
  · intro table column value filter o done
    exact absurd done (fails rfl)
  · intro table filter o done
    exact absurd done (fails rfl)
  · intro table columns o b found done
    exact absurd done (fails rfl)
  · intro table columns filter
    obtain ⟨f, failed⟩ := refused (.select table columns filter) rfl
    rw [failed]
    exact refl

end Separates

/-! In a workspace. -/

/-- The bucket of a table of the active database. -/
def Workspace.activeBucket? (w : Workspace) (table : String) : Option Bucket :=
  w.session.active.bind fun entry => (w.storage.contents entry.2.place).get? table

namespace Execution

theorem snd_execute_select [Json.Room] (w : Workspace) (table : String) (columns : List String)
    (filter : Filter) : (execute w (.command (.select table columns filter))).2 = w := by
  unfold execute
  split_ifs
  · rfl
  · exact Workspace.snd_view _

theorem separates_workspace [Json.Room] (w : Workspace) :
    Separates (fun c w => execute w (.command c)) Eq (fun table w => w.activeBucket? table) w := by
  rcases execute_cases w with ⟨name, store, active, idle⟩ | ⟨failure, refused⟩
  · apply Separates.of_contents _ (w.storage.contents store.place)
    · intro table
      rw [Workspace.activeBucket?, active, Option.bind_some]
    · intro c needs
      rw [execute_of_idle needs active idle]
      rfl
    · intro c needs table
      have kept : (execute w (.command c)).2.session.active = some (name, store) := by
        rw [execute_of_idle needs active idle]
        exact active
      rw [Workspace.activeBucket?, kept, Option.bind_some, execute_of_idle needs active idle,
        contents_result]
      rfl
    · intro table columns filter
      exact (snd_execute_select w table columns filter).symm
  · exact .of_refused (fun c needs => ⟨failure, refused c needs⟩) rfl

end Execution

/-! Call by call on a store. -/

theorem Store.Calls.Holds.separates [Json.Room] {σ η : Type} {a : Adapter σ η} {m : Matching σ η}
    {counting : Counting} {s : σ} {contents : Contents} (sim : Simulation a m counting)
    (holds : Holds m s contents) :
    Separates (Calls.execute a) (fun s s' => ∃ e, a.dump s = .ok e ∧ a.dump s' = .ok e)
      (fun table s => (a.dump s).toOption.bind (·.get? table)) s := by
  have dumped {s : σ} {contents : Contents} (holds : Holds m s contents) (table : String) :
      ((a.dump s).toOption.bind (·.get? table)) = contents.get? table := by
    rw [holds.dump sim]
    rfl
  apply Separates.of_contents counting contents
  · exact dumped holds
  · intro c needs
    exact (holds.settled sim needs).1
  · intro c needs
    exact dumped (holds.settled sim needs).2
  · intro table columns filter
    have unchanged : (Execution.settled (onContents counting (.select table columns filter))
        contents).2 = contents := settled_of_not_changes (Bool.false_and _)
    have after := (holds.settled (c := .select table columns filter) sim rfl).2
    rw [unchanged] at after
    exact ⟨contents, holds.dump sim, after.dump sim⟩

namespace Execution

/-- Schema and rows never disturb each other inside a table: in every workspace, and call by call on
every idle store in memory or in a file. -/
theorem schema_and_rows_are_apart [Json.Room] :
    (∀ w : Workspace, Separates (fun c w => execute w (.command c)) Eq
      (fun table w => w.activeBucket? table) w) ∧
    (∀ s contents, Holds Memory.matching s contents → Separates (Calls.execute memoryAdapter)
      (fun s s' => ∃ e, Memory.dump s = .ok e ∧ Memory.dump s' = .ok e)
      (fun table s => (Memory.dump s).toOption.bind (·.get? table)) s) ∧
    (∀ s contents, Holds File.matching s contents → Separates (Calls.execute fileAdapter)
      (fun s s' => ∃ e, File.dump s = .ok e ∧ File.dump s' = .ok e)
      (fun table s => (File.dump s).toOption.bind (·.get? table)) s) :=
  ⟨separates_workspace, fun _ _ holds => holds.separates Memory.simulation,
    fun _ _ holds => holds.separates File.simulation⟩

/-- A cell of a column that is named like the mark of definitions, beside a key that is no text. -/
theorem schema_and_rows_are_apart_damaged :
    let c : Command := .insert "t" ["col"] ["1"] rfl
    (execute damaged (.command c)).1 = .ok (.inserted "t") ∧
    ∃ b b', damaged.activeBucket? "t" = some b ∧
      (execute damaged (.command c)).2.activeBucket? "t" = some b' ∧
      b'.get? (encode "8:col") = some (encode "1") ∧ KeepsSchema b b' ∧
      b'.get? [255] = some [0] := by
  intro c
  have done : (execute damaged (.command c)).1 = .ok (.inserted "t") := by rfl
  obtain ⟨b, b', before, after, keeps⟩ :=
    (schema_and_rows_are_apart.1 damaged).insert "t" ["col"] ["1"] rfl _ done
  have written : ((execute damaged (.command c)).2.activeBucket? "t").bind (·.get? (encode "8:col")) =
      some (encode "1") := by decide +kernel
  have stored : (damaged.activeBucket? "t").bind (·.get? [255]) = some [0] := by decide +kernel
  have noCell (k : CellKey) : k.toBytes ≠ [255] := by
    intro same
    have read : (decode [255]).toOption = some k.text := by
      rw [← same, CellKey.toBytes, decode_encode]
      rfl
    have refused : (decode [255]).toOption = none := by decide +kernel
    rw [refused] at read
    cases read
  rw [after, Option.bind_some] at written
  rw [before, Option.bind_some] at stored
  exact ⟨done, b, b', before, after, written, keeps, (keeps.foreign _ noCell).trans stored⟩

end Execution

end Cellstore
