import Cellstore.Proofs.Store.Frame
import Cellstore.Proofs.Table.Repetition

/-! Commands that can be run again.
A declaration, an update and a deletion leave the same contents whether they run once or twice,
whatever bytes are stored, and the second run fails only if the first one did. The second deletion
finds nothing to delete. -/
namespace Cellstore
open Store Store.Calls

/-- Commands that make of a table what they say, however often they run. -/
def Command.IsRepeatable : Command → Prop
  | .createTable .. | .update .. | .delete .. => True
  | .createDatabase _ | .useDatabase _ | .insert .. | .select .. | .dropTable _ => False

/-- A command that runs twice in a row does what it does once. -/
structure Repeats {σ : Type} (run : Command → σ → Except Failure Outcome × σ) (same : σ → σ → Prop)
    (c : Command) (s : σ) : Prop where
  state : same (run c (run c s).2).2 (run c s).2
  fails : (∃ f, (run c (run c s).2).1 = .error f) ↔ ∃ f, (run c s).1 = .error f
  /-- A deletion that succeeds leaves nothing to delete. -/
  deletes : ∀ table filter outcome, c = .delete table filter → (run c s).1 = .ok outcome →
    (run c (run c s).2).1 = .ok (.deleted table 0)

/-! On contents. -/

namespace Execution

variable {counting : Counting} {c : Command} {contents : Contents}

theorem requiresDatabase_of_isRepeatable (again : c.IsRepeatable) : c.requiresDatabase = true := by
  cases c with
  | createTable | update | delete => rfl
  | _ => cases again

theorem onContents_again [Json.Room] {next : Outcome × Contents} (again : c.IsRepeatable)
    (done : onContents counting c contents = .ok next) :
    ∃ outcome, onContents counting c next.2 = .ok (outcome, next.2) ∧
      ∀ table filter, c = .delete table filter → outcome = .deleted table 0 := by
  cases c with
  | createTable table columns =>
    obtain ⟨named, b, declared, rfl⟩ := createTable_eq_ok_iff.mp done
    have there : (contents.insert table b).get? table = some b := SortedMap.get?_insert_self ..
    refine ⟨.tableCreated table, createTable_eq_ok_iff.mpr ⟨named, b, ?_, ?_⟩, nofun⟩
    · rw [there, Option.getD_some]
      exact Schema.declare_again declared
    · rw [SortedMap.insert_insert]
  | update table column value filter =>
    obtain ⟨b, b', -, written, rfl⟩ := update_eq_ok_iff.mp done
    have there : (contents.insert table b').get? table = some b' := SortedMap.get?_insert_self ..
    refine ⟨.updated table (Rows.matching b' filter).length,
      update_eq_ok_iff.mpr ⟨b', b', there, Rows.assign_again written, ?_⟩, nofun⟩
    rw [SortedMap.insert_insert]
  | delete table filter =>
    obtain ⟨b, -, rfl⟩ := delete_eq_ok_iff.mp done
    have there := SortedMap.get?_insert_self contents table
      ((Rows.matching b filter).foldl Rows.deleteRow b)
    refine ⟨.deleted table 0, delete_eq_ok_iff.mpr ⟨_, there, ?_⟩, ?_⟩
    · rw [Rows.matching_deleted, SortedMap.insert_insert]
      rfl
    · rintro _ _ ⟨⟩
      rfl
  | _ => cases again

theorem settled_again [Json.Room] (again : c.IsRepeatable) (counting : Counting)
    (contents : Contents) :
    let first := settled (onContents counting c) contents
    let second := settled (onContents counting c) first.2
    second.2 = first.2 ∧ second.1.isOk = first.1.isOk ∧
    ∀ table filter outcome, c = .delete table filter → first.1 = .ok outcome →
      second.1 = .ok (.deleted table 0) := by
  unfold settled
  cases done : onContents counting c contents with
  | error failure => simp [done]
  | ok next =>
    obtain ⟨outcome, repeated, deleted⟩ := onContents_again again done
    refine ⟨?_, ?_, fun table filter _ here _ => ?_⟩
    · simp only [repeated]
    · simp only [repeated]
      rfl
    · simp only [repeated, deleted table filter here]

theorem repeats_workspace [Json.Room] (again : c.IsRepeatable) (w : Workspace) :
    Repeats (fun c w => execute w (.command c)) Eq c w := by
  have needs := requiresDatabase_of_isRepeatable again
  rcases execute_cases w with ⟨name, store, active, idle⟩ | ⟨failure, refused⟩
  · let v := keep w store.place (changes c (result w store c).1) (result w store c).2
    have first : execute w (.command c) = ((result w store c).1, v) :=
      execute_of_idle needs active idle
    have second : execute v (.command c) = ((result v store c).1,
        keep v store.place (changes c (result v store c).1) (result v store c).2) :=
      execute_of_idle needs active idle
    obtain ⟨same, alike, deleted⟩ := settled_again again w.storage.backend.counting
      (w.storage.contents store.place)
    have next : result v store c =
        settled (onContents w.storage.backend.counting c) (result w store c).2 := by
      show settled (onContents v.storage.backend.counting c) (v.storage.contents store.place) = _
      rw [contents_result, backend_keep]
    rw [← result, ← next] at same alike deleted
    have kept : changes c (result v store c).1 = changes c (result w store c).1 := by
      rw [changes, changes, alike]
    constructor
    · rw [first, second, same, kept, keep_keep _ _ _ _ _ fun _ => rfl, Bool.or_self]
    · rw [first, second]
      exact exists_error_iff alike
    · intro table filter outcome here done
      rw [first] at done
      rw [first, second]
      exact deleted table filter outcome here done
  · constructor <;> simp [refused c needs]

end Execution

theorem Store.Calls.Holds.repeats [Json.Room] {σ η : Type} {a : Adapter σ η} {m : Matching σ η}
    {counting : Counting} {s : σ} {contents : Contents} {c : Command} (sim : Simulation a m counting)
    (holds : Holds m s contents) (again : c.IsRepeatable) :
    Repeats (Calls.execute a) (fun s s' => ∃ e, a.dump s = .ok e ∧ a.dump s' = .ok e) c s := by
  have needs := Execution.requiresDatabase_of_isRepeatable again
  obtain ⟨one, afterOne⟩ := Holds.settled sim holds needs
  obtain ⟨two, afterTwo⟩ := Holds.settled sim afterOne needs
  obtain ⟨same, alike, deleted⟩ := Execution.settled_again again counting contents
  rw [← one, ← two] at alike
  refine ⟨⟨_, afterTwo.dump sim, ?_⟩, exists_error_iff alike, ?_⟩
  · rw [afterOne.dump sim, same]
  · intro table filter outcome here done
    rw [two]
    exact deleted table filter outcome here (one ▸ done)

namespace Execution

/-- Running a declaration, an update or a deletion again is safe: in every workspace, and call by
call on every idle store in memory or in a file. -/
theorem repetition_changes_nothing [Json.Room] {c : Command} (again : c.IsRepeatable) :
    (∀ w : Workspace, Repeats (fun c w => execute w (.command c)) Eq c w) ∧
    (∀ s contents, Holds Memory.matching s contents → Repeats (Calls.execute memoryAdapter)
      (fun s s' => ∃ e, Memory.dump s = .ok e ∧ Memory.dump s' = .ok e) c s) ∧
    (∀ s contents, Holds File.matching s contents → Repeats (Calls.execute fileAdapter)
      (fun s s' => ∃ e, File.dump s = .ok e ∧ File.dump s' = .ok e) c s) :=
  ⟨repeats_workspace again, fun _ _ holds => holds.repeats Memory.simulation again,
    fun _ _ holds => holds.repeats File.simulation again⟩

/-- The update takes away from the row what its filter asks for. -/
theorem repetition_changes_nothing_updated :
    let c : Command := .update "t" "a" "2" [⟨"a", "1"⟩]
    let w := (execute damaged (.command (.insert "t" ["a"] ["1"] rfl))).2
    let v := (execute w (.command c)).2
    c.IsRepeatable ∧ (execute w (.command c)).1 = .ok (.updated "t" 1) ∧
    (execute v (.command c)).1 = .ok (.updated "t" 0) ∧ (execute v (.command c)).2 = v := by
  intro c w v
  have first : (execute w (.command c)).1 = .ok (.updated "t" 1) := by decide +kernel
  have second : (execute v (.command c)).1 = .ok (.updated "t" 0) := by decide +kernel
  exact ⟨trivial, first, second, ((repetition_changes_nothing (c := c) trivial).1 w).state⟩

end Execution
end Cellstore
