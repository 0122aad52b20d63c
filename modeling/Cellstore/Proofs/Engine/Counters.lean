import Mathlib.Algebra.GroupWithZero.Nat
import Cellstore.Proofs.Engine.Attempt
import Cellstore.Proofs.Session
import Cellstore.Proofs.SortedMap

/-! What an engine has counted.
Every answer of a run is counted once, under the kind of its statement and its status, with the rows
that it affected and the database that it opened. So the counters of an engine are sums over its
answers. -/
namespace Cellstore
open Statement (parse)

/-! Sums over a map of counts. -/

namespace Metrics

section
variable {κ : Type} [KeyOrder κ]

def total (m : SortedMap κ Nat) : Nat := (m.entries.map (·.2)).sum

def count (m : SortedMap κ Nat) (key : κ) : Nat := (m.get? key).getD 0

private theorem sum_insertEntry (key : κ) (n : Nat) {entries : List (κ × Nat)}
    (ascending : Ascending entries) :
    ((SortedMap.insertEntry key n entries).map (·.2)).sum +
      ((entries.find? (SortedMap.hasKey key)).map (·.2)).getD 0 = (entries.map (·.2)).sum + n := by
  induction entries with
  | nil => simp [SortedMap.insertEntry]
  | cons e rest ih =>
    obtain ⟨above, ascending⟩ := List.pairwise_cons.mp ascending
    unfold SortedMap.insertEntry
    split_ifs with front behind
    · have missing : (e :: rest).find? (SortedMap.hasKey key) = none := by
        refine List.find?_eq_none.mpr fun d member => ?_
        have later : KeyOrder.lt key d.1 = true := by
          rcases List.mem_cons.mp member with rfl | inside
          · exact front
          · exact KeyOrder.trans _ _ _ front (above d inside)
        simp [SortedMap.hasKey, later]
      simp [missing, Nat.add_comm]
    · have other : SortedMap.hasKey key e = false := by simp [SortedMap.hasKey, behind]
      have below := ih ascending
      simp only [List.map_cons, List.sum_cons, List.find?_cons, other]
      omega
    · have same : SortedMap.hasKey key e = true := by simp [SortedMap.hasKey, front, behind]
      simp only [List.map_cons, List.sum_cons, List.find?_cons, same, Option.map_some,
        Option.getD_some]
      omega

theorem total_insert (m : SortedMap κ Nat) (key : κ) (n : Nat) :
    total (m.insert key n) + count m key = total m + n := sum_insertEntry key n m.ascending

theorem total_add (m : SortedMap κ Nat) (key : κ) (n : Nat) :
    total (add m key n) = total m + n := by
  have inserted := total_insert m key (count m key + n)
  show total (m.insert key (count m key + n)) = _
  omega

theorem count_add [DecidableEq κ] (m : SortedMap κ Nat) (key other : κ) (n : Nat) :
    count (add m key n) other = count m other + if key = other then n else 0 := by
  unfold count
  split_ifs with same
  · rw [← same, get?_add_self]
    rfl
  · rw [get?_add_of_ne m n same, Nat.add_zero]

end

end Metrics

namespace Label

def all : List Label := none :: [.createDatabase, .useDatabase, .createTable, .insert, .select,
  .update, .delete, .dropTable].map some

theorem mem_all (label : Label) : label ∈ all := by
  rcases label with _ | kind
  · decide
  · cases kind <;> decide

theorem text_injective : Function.Injective text := fun label other same =>
  List.inj_on_of_nodup_map (l := all) (by decide) (mem_all label) (mem_all other) same

def opens (label : Label) : Bool := label == some .createDatabase || label == some .useDatabase

end Label

namespace Metrics

variable (m : Metrics)

def statementCount (label : Label) (status : Status) : Nat :=
  count m.statements (label.text, status.label)

def rowCount (label : Label) : Nat := count m.affected label.text

theorem label_injective : Function.Injective Status.label := by
  intro status other same
  cases status <;> cases other <;> first | rfl | exact absurd same (by decide)

theorem statements_recordRows (label : Label) (rows : Nat) :
    (m.recordRows label rows).statements = m.statements := by
  unfold recordRows
  split_ifs <;> rfl

variable (label other : Label) (answer : Except Failure Result)

theorem statementCount_counted (status : Status) :
    (m.counted label answer).statementCount other status = m.statementCount other status +
      if label = other ∧ Engine.statusOf answer = some status then 1 else 0 := by
  rw [counted, statementCount, statements_recordRows]
  cases Engine.statusOf answer with
  | none => simp [statementCount]
  | some given =>
    simp only [Option.elim_some, record, count_add, Prod.mk.injEq, Label.text_injective.eq_iff,
      label_injective.eq_iff, Option.some.injEq, statementCount]

theorem total_counted : total (m.counted label answer).statements =
    total m.statements + if (Engine.statusOf answer).isSome then 1 else 0 := by
  rw [counted, statements_recordRows]
  cases Engine.statusOf answer with
  | none => simp
  | some given => simp [record, total_add]

theorem rowCount_recordRows (rows : Nat) : (m.recordRows label rows).rowCount other =
    m.rowCount other + if label = other then rows else 0 := by
  unfold recordRows rowCount
  by_cases empty : rows = 0
  · simp [empty]
  · rw [if_neg empty, count_add]
    simp only [Label.text_injective.eq_iff]

theorem rowCount_counted : (m.counted label answer).rowCount other = m.rowCount other +
    if label = other then Engine.affectedRows answer else 0 := by
  rw [counted, rowCount_recordRows]
  cases Engine.statusOf answer <;> rfl

end Metrics

/-! Databases that were opened. -/

theorem Session.switches_close {ω η : Type} (o : Opener ω η) (s : Session η) (w : ω) :
    (close o s w).2.1.switches = s.switches := by
  unfold close
  split <;> rfl

theorem Session.switches_use {ω η : Type} (o : Opener ω η) (name : String) (s : Session η) (w : ω) :
    (use o name s w).2.1.switches = s.switches + if (use o name s w).1.isOk then 1 else 0 := by
  by_cases valid : IsDatabaseName name
  · rcases use_cases o valid s w with
      ⟨failure, -, used⟩ | ⟨fault, later, -, used⟩ | ⟨store, later, -, used⟩
    · rw [used]
      exact switches_close o s w
    · rw [used]
      exact switches_close o s w
    · rw [used]
      exact congrArg (· + 1) (switches_close o s w)
  · rw [use_of_not_isDatabaseName o s w valid]
    rfl

namespace Workspace

variable {α : Type} {w : Workspace}

theorem switches_open (name : String) (outcome : Outcome) :
    (Execution.open_ w name outcome).2.session.switches = w.session.switches +
      if (Execution.open_ w name outcome).1.isOk then 1 else 0 := by
  have same (opened : Except Failure Path) : (opened.map fun _ => outcome).isOk = opened.isOk := by
    cases opened <;> rfl
  unfold Execution.open_ use
  dsimp only
  rw [Session.switches_use, same]

theorem switches_view (body : Contents → Except Failure α) :
    (w.view body).2.session.switches = w.session.switches := by
  unfold view
  split
  · rfl
  · split <;> rfl

theorem switches_update (body : Contents → Except Failure (α × Contents)) :
    (w.update body).2.session.switches = w.session.switches := by
  unfold update
  split
  · rfl
  · split
    · rfl
    · dsimp only
      split <;> rfl

theorem switches_execute [Json.Room] (c : Command) :
    (Execution.execute w (.command c)).2.session.switches = w.session.switches +
      if Label.opens (some c.kind) && (Execution.execute w (.command c)).1.isOk then 1 else 0 := by
  have kept (requires : c.requiresDatabase = true) :
      (Execution.execute w (.command c)).2.session.switches = w.session.switches := by
    unfold Execution.execute
    split_ifs
    · rfl
    · cases c with
      | createDatabase name | useDatabase name => cases requires
      | select table columns filter => exact switches_view _
      | _ => exact switches_update _
  cases c with
  | createDatabase name | useDatabase name => exact switches_open name _
  | _ => exact kept rfl

end Workspace

/-! Answers along a run. -/

namespace Engine

variable {e : Engine}

theorem switches_attempt [Json.Room] (e : Engine) (text : String) :
    (e.attempt text).2.session.switches = e.workspace.session.switches +
      if (Label.ofText text).opens ∧ statusOf (answer (e.attempt text).1) = some .success
      then 1 else 0 := by
  have status (attempt : Except Failure Outcome) :
      statusOf (answer attempt) = some .success ↔ attempt.isOk = true := by
    cases attempt with
    | ok outcome => exact ⟨fun _ => rfl, fun _ => rfl⟩
    | error failure =>
      rw [statusOf_answer_error]
      split_ifs <;> exact ⟨nofun, nofun⟩
  simp only [status]
  unfold attempt Label.ofText
  cases parse text with
  | error fault => rfl
  | ok c =>
    rw [Workspace.switches_execute]
    simp only [Bool.and_eq_true]

def calls [Json.Room] (e : Engine) (texts : List String) : List (String × Except Failure Result) :=
  texts.zip (e.run texts).1

/-- The counters of an engine are sums over these answers. -/
structure Tallies (e : Engine) (calls : List (String × Except Failure Result)) : Prop where
  total : Metrics.total e.metrics.statements = calls.countP fun c => (statusOf c.2).isSome
  statements : ∀ label status, e.metrics.statementCount label status =
    calls.countP fun c => Label.ofText c.1 = label ∧ statusOf c.2 = some status
  rows : ∀ label, e.metrics.rowCount label =
    ((calls.filter fun c => Label.ofText c.1 = label).map fun c => affectedRows c.2).sum
  switches : e.workspace.session.switches =
    calls.countP fun c => (Label.ofText c.1).opens ∧ statusOf c.2 = some .success

namespace Tallies

variable {before : List (String × Except Failure Result)}

theorem execute [Json.Room] (h : e.Tallies before) (text : String) :
    (e.execute text).2.Tallies (before ++ [(text, (e.execute text).1)]) := by
  rw [execute_eq]
  constructor
  · rw [Metrics.total_counted, h.total, List.countP_append, List.countP_singleton]
  · intro label status
    rw [Metrics.statementCount_counted, h.statements, List.countP_append, List.countP_singleton]
    simp only [decide_eq_true_eq]
  · intro label
    rw [Metrics.rowCount_counted, h.rows, List.filter_append, List.map_append, List.sum_append]
    congr 1
    by_cases same : Label.ofText text = label <;> simp [same]
  · rw [switches_attempt, h.switches, List.countP_append, List.countP_singleton]
    simp only [decide_eq_true_eq]

theorem run [Json.Room] (h : e.Tallies before) (texts : List String) :
    (e.run texts).2.Tallies (before ++ e.calls texts) := by
  induction texts generalizing e before with
  | nil => exact (List.append_nil before).symm ▸ h
  | cons text rest ih =>
    have later := ih (h.execute text)
    rw [List.append_assoc] at later
    exact later

end Tallies

/-- With the character zero in the path of the data directory the failure of an opening is none that
the engine counts. -/
theorem unopened_directory_is_not_counted :
    let l : Location := ⟨Path.ofText "a\x00b", ".db"⟩
    let r := (Engine.new l (.empty .file)).run ["USE s"]
    (∀ place, (Storage.empty .file).contents place = .empty) ∧ ¬ l.IsFreeOfZero ∧
      r.1 = [.error (.opening "s" (.store .embeddedNull))] ∧
      Metrics.total r.2.metrics.statements = 0 ∧
      r.2.metrics.statementCount (some .useDatabase) .error = 0 := by
  intro l r
  refine ⟨fun _ => rfl, by decide, ?_⟩
  decide +kernel

end Engine
end Cellstore
