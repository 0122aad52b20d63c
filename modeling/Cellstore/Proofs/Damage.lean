import Cellstore.Proofs.Grid
import Cellstore.Proofs.Run
import Cellstore.Proofs.Statement.WellFormed
import Cellstore.Proofs.Table.Damage
import Cellstore.Shell

/-! Statements on databases that were damaged, or written by someone else.
Almost every statement bears any contents: it has a result, and the shell comes back to its prompt.
A command fails to bear its table in three ways only, and then its failure escapes: columns that
cannot be listed, columns that cannot be added to, and a counter that gives no row id. -/
namespace Cellstore
open Statement (IsStated)
open Text.Utf8 (encode)

/-- What a command needs of the bucket of its table. A count in memory can have more digits than are
read, and an id of so many digits cannot be written. -/
def Command.Bears [Json.Room] (counting : Counting) (b : Bucket) : Command → Prop
  | .createTable .. => Schema.IsExtendable b
  | .insert .. => 0 < counting.next b.sequence ∧ CellKey.IsReadable (counting.next b.sequence).toNat
  | .select _ columns _ => columns = [] → Schema.IsListable b
  | _ => True

def Workspace.Bears [Json.Room] (w : Workspace) (c : Command) : Prop :=
  ∀ name store b, w.session.active = some (name, store) →
    (w.storage.contents store.place).get? c.subject = some b → c.Bears w.storage.backend.counting b

def Engine.Bears [Json.Room] (e : Engine) (text : String) : Prop :=
  ∀ c, Statement.parse text = .ok c → e.workspace.Bears c

/-- An outcome that can be shown, or a failure that does not escape. -/
inductive IsContained : Except Failure Outcome → Prop where
  | done {outcome : Outcome} (shown : outcome.IsRectangular) : IsContained (.ok outcome)
  | failed {failure : Failure} (kept : failure.severity ≠ .escaping) : IsContained (.error failure)

theorem IsContained.reported {failure : Failure} (here : failure.severity = .reported) :
    IsContained (.error failure) := .failed (by simp [here])

/-- A failure that leaves the engine, other than that of a file that cannot be opened. -/
inductive IsEscaping {α : Type} : Except Failure α → Prop where
  | escaped {failure : Failure} (here : failure.severity = .escaping) : IsEscaping (.error failure)

/-! Commands. -/

namespace Execution

variable {c : Contents}

theorem severity_schemaFailure (fault : Schema.Fault) :
    (schemaFailure fault).severity = .escaping := by
  cases fault <;> rfl

theorem severity_of_declare [Json.Room] {b : Bucket} {columns : List ColumnDefinition}
    {failure : Failure} (failed : declare b columns = .error failure) :
    failure.severity = .escaping := by
  induction columns generalizing b with
  | nil => cases failed
  | cons column rest ih =>
    rw [declare] at failed
    split at failed
    · exact ih failed
    · cases failed
      exact severity_schemaFailure _

theorem createTable_contained [Json.Room] (table : String) (columns : List ColumnDefinition)
    (extendable : ∀ b, c.get? table = some b → Schema.IsExtendable b) :
    IsContained ((createTable table columns c).map (·.1)) := by
  have start : Schema.IsExtendable ((c.get? table).getD .empty) := by
    cases found : c.get? table with
    | none => exact Schema.isExtendable_empty
    | some b => exact extendable b found
  obtain ⟨b, declared⟩ := exists_declare start columns
  unfold createTable
  split_ifs
  · exact .reported rfl
  · rw [declared]
    exact .done trivial

theorem createTable_escapes [Json.Room] {table : String} {columns : List ColumnDefinition}
    {b : Bucket} (named : table ≠ "") (filled : columns ≠ []) (found : c.get? table = some b)
    (flawed : ¬ Schema.IsExtendable b) : IsEscaping (createTable table columns c) := by
  obtain ⟨first, rest, rfl⟩ := List.exists_cons_of_ne_nil filled
  rw [← @exists_declare_iff _ b first rest] at flawed
  unfold createTable
  rw [if_neg named, found, Option.getD_some]
  cases declared : declare b (first :: rest) with
  | ok b' => exact absurd ⟨b', declared⟩ flawed
  | error failure => exact .escaped (severity_of_declare declared)

theorem insert_contained (counting : Counting) (table : String) {cells : Cells}
    (named : ∀ cell ∈ cells, IsColumnName cell.1)
    (counted : ∀ b, c.get? table = some b → 0 < counting.next b.sequence) :
    IsContained ((insert counting table cells c).map (·.1)) := by
  unfold insert
  rcases tableOf_cases c table with missing | ⟨b, found, there⟩
  · rw [missing]
    exact .reported rfl
  · obtain ⟨b', written⟩ :=
      Rows.exists_putCells (counted b found) named (b.nextSequence counting).2
    rw [there]
    simp only [Bucket.nextSequence] at written ⊢
    rw [written]
    exact .done trivial

theorem insert_escapes {counting : Counting} {table : String} {cells : Cells} {b : Bucket}
    (filled : cells ≠ []) (found : c.get? table = some b)
    (flawed : ¬ 0 < counting.next b.sequence) : IsEscaping (insert counting table cells c) := by
  unfold insert tableOf
  rw [found]
  simp only [Bucket.nextSequence, Rows.putCells_of_not_pos flawed filled]
  exact .escaped rfl

theorem select_contained [Json.Room] (table : String) (columns : List String) (filter : Filter)
    (listable : ∀ b, c.get? table = some b → columns = [] → Schema.IsListable b) :
    IsContained (select table columns filter c) := by
  unfold select
  rcases tableOf_cases c table with missing | ⟨b, found, there⟩
  · rw [missing]
    exact .reported rfl
  · rw [there]
    have listed : ∃ headers,
        (if columns.isEmpty then Schema.columnNames b else .ok columns) = .ok headers := by
      split_ifs with none
      · obtain ⟨cs, listed⟩ :=
          Schema.exists_columns_iff.mpr (listable b found (List.isEmpty_iff.mp none))
        exact ⟨cs.map (·.name), by rw [Schema.columnNames, listed]; rfl⟩
      · exact ⟨columns, rfl⟩
    obtain ⟨headers, listed⟩ := listed
    dsimp only
    rw [listed]
    refine .done fun r member => ?_
    obtain ⟨row, -, rfl⟩ := List.mem_map.mp member
    exact List.length_map ..

theorem select_escapes [Json.Room] {table : String} {filter : Filter} {b : Bucket}
    (found : c.get? table = some b) (flawed : ¬ Schema.IsListable b) :
    IsEscaping (select table [] filter c) := by
  rw [← Schema.exists_columns_iff] at flawed
  unfold select tableOf
  rw [found]
  cases listed : Schema.columns b with
  | ok cs => exact absurd ⟨cs, listed⟩ flawed
  | error fault =>
    simp only [List.isEmpty_nil, if_true, Schema.columnNames, listed]
    exact .escaped (severity_schemaFailure fault)

theorem update_contained (table : String) {column : String} (named : IsColumnName column)
    (value : String) (filter : Filter) :
    IsContained ((update table column value filter c).map (·.1)) := by
  unfold update
  rcases tableOf_cases c table with missing | ⟨b, -, there⟩
  · rw [missing]
    exact .reported rfl
  · have positive : ∀ r ∈ Rows.matching b filter, 0 < r.id := fun _ => Rows.pos_of_mem_matching
    obtain ⟨b', written⟩ :
        ∃ b', assign column value b (Rows.matching b filter) = .ok b' :=
      Rows.exists_assign named positive b
    rw [there]
    simp only [written]
    exact .done trivial

theorem delete_contained (table : String) (filter : Filter) :
    IsContained ((delete table filter c).map (·.1)) := by
  unfold delete
  rcases tableOf_cases c table with missing | ⟨b, -, there⟩
  · rw [missing]
    exact .reported rfl
  · rw [there]
    exact .done trivial

theorem dropTable_contained (table : String) :
    IsContained ((dropTable table c).map (·.1)) := by
  unfold dropTable
  split_ifs
  · exact .done trivial
  · exact .reported rfl

end Execution

/-! Workspaces. -/

theorem Failure.IsExpected.severity_ne {failure : Failure} {l : Location} {b : Backend}
    (expected : failure.IsExpected l b) (free : l.IsFreeOfZero) : failure.severity ≠ .escaping := by
  cases expected with
  | reported here => simp [here]
  | @opening name fault file zero =>
    have fatal := Engine.kind_opening name fun null => zero null free
    simp [severity, fatal]

theorem Failure.kind_of_fatal {failure : Failure} (fatal : failure.severity = .fatal) :
    failure.kind = .databaseOpen := by
  unfold severity at fatal
  split at fatal
  all_goals first | assumption | cases fatal

namespace Workspace

variable {α : Type} {w : Workspace}

theorem severity_of_begin {store : OpenStore} {fault : StoreFault}
    (refused : begin store = .error fault) : (Failure.ofStore fault).severity = .reported := by
  unfold begin at refused
  split_ifs at refused <;> cases refused <;> rfl

theorem view_contained {body : Contents → Except Failure Outcome}
    (inside : ∀ name store, w.session.active = some (name, store) →
      IsContained (body (w.storage.contents store.place))) : IsContained (w.view body).1 := by
  cases active : w.session.active with
  | none =>
    rw [view, Workspace.active, active]
    exact .reported rfl
  | some entry =>
    obtain ⟨name, store⟩ := entry
    cases begun : begin store with
    | error fault =>
      simp only [view, Workspace.active, active, begun]
      exact .reported (severity_of_begin begun)
    | ok _ =>
      rw [view_of_idle active (idle_of_begin begun)]
      exact inside name store active

theorem update_contained {body : Contents → Except Failure (Outcome × Contents)}
    (inside : ∀ name store, w.session.active = some (name, store) →
      IsContained ((body (w.storage.contents store.place)).map (·.1))) :
    IsContained (w.update body).1 := by
  cases active : w.session.active with
  | none =>
    rw [update, Workspace.active, active]
    exact .reported rfl
  | some entry =>
    obtain ⟨name, store⟩ := entry
    cases begun : begin store with
    | error fault =>
      simp only [update, Workspace.active, active, begun]
      exact .reported (severity_of_begin begun)
    | ok _ =>
      have answered := inside name store active
      rw [update_of_idle active (idle_of_begin begun)]
      generalize body (w.storage.contents store.place) = answer at answered
      cases answer with
      | error failure => exact answered
      | ok done => exact answered

theorem open_contained (free : w.location.IsFreeOfZero) (name : String) {outcome : Outcome}
    (shown : outcome.IsRectangular) : IsContained (Execution.open_ w name outcome).1 := by
  have expected := (w.open_spec name outcome).expected
  unfold Execution.open_ at *
  dsimp only at *
  cases opened : (w.use name).1 with
  | ok path => exact .done shown
  | error failure =>
    rw [opened] at expected
    exact .failed ((expected failure rfl).severity_ne free)

theorem execute_contained [Json.Room] (free : w.location.IsFreeOfZero) {c : Command}
    (stated : IsStated c) (bears : w.Bears c) :
    IsContained (Execution.execute w (.command c)).1 := by
  unfold Execution.execute
  split_ifs
  · exact .reported rfl
  · cases c with
    | createDatabase name => exact open_contained free name trivial
    | useDatabase name => exact open_contained free name trivial
    | createTable table columns =>
      exact update_contained fun name store active =>
        Execution.createTable_contained table columns (bears name store · active)
    | insert table columns values sameLength =>
      refine update_contained fun name store active =>
        Execution.insert_contained _ table ?_ fun b found => (bears name store b active found).1
      exact fun cell member => stated.2.2.2 cell.1 (List.of_mem_zip member).1
    | select table columns filter =>
      exact view_contained fun name store active =>
        Execution.select_contained table columns filter (bears name store · active)
    | update table column value filter =>
      exact update_contained fun _ _ _ => Execution.update_contained table stated.2.1 value filter
    | delete table filter =>
      exact update_contained fun _ _ _ => Execution.delete_contained table filter
    | dropTable table => exact update_contained fun _ _ _ => Execution.dropTable_contained table

theorem location_view (body : Contents → Except Failure α) :
    (w.view body).2.location = w.location := by
  unfold view
  split
  · rfl
  · split <;> rfl

theorem location_update (body : Contents → Except Failure (α × Contents)) :
    (w.update body).2.location = w.location := by
  unfold update
  split
  · rfl
  · split
    · rfl
    · dsimp only
      split <;> rfl

theorem location_execute [Json.Room] (c : Command) :
    (Execution.execute w (.command c)).2.location = w.location := by
  unfold Execution.execute
  split_ifs
  · rfl
  · cases c with
    | createDatabase name | useDatabase name => exact (w.open_spec name _).location
    | select table columns filter => exact location_view _
    | _ => exact location_update _

theorem update_escapes {name : String} {store : OpenStore}
    (active : w.session.active = some (name, store)) (idle : store.IsIdle)
    {body : Contents → Except Failure (Outcome × Contents)}
    (escaping : IsEscaping (body (w.storage.contents store.place))) :
    IsEscaping (w.update body).1 := by
  rw [update_of_idle active idle]
  generalize body (w.storage.contents store.place) = answer at escaping
  cases escaping with
  | escaped here => exact .escaped here

theorem execute_escapes [Json.Room] {name : String} {store : OpenStore} {c : Command} {b : Bucket}
    (active : w.session.active = some (name, store)) (idle : store.IsIdle) (stated : IsStated c)
    (found : (w.storage.contents store.place).get? c.subject = some b)
    (short : CellKey.IsReadable (w.storage.backend.counting.next b.sequence).toNat)
    (flawed : ¬ c.Bears w.storage.backend.counting b) :
    IsEscaping (Execution.execute w (.command c)).1 := by
  have ready : ¬ ((Execution.Request.command c).requiresDatabase ∧ w.session.active.isNone) := by
    simp [active]
  rw [Execution.execute, if_neg ready]
  cases c with
  | createTable table columns =>
    exact update_escapes active idle
      (Execution.createTable_escapes stated.1.1 stated.2 found flawed)
  | insert table columns values sameLength =>
    refine update_escapes active idle (Execution.insert_escapes ?_ found fun positive => ?_)
    · intro empty
      rcases List.zip_eq_nil_iff.mp empty with none | none
      · exact stated.2.1 none
      · exact stated.2.1 (List.length_eq_zero_iff.mp (sameLength.trans (by simp [none])))
    · exact flawed ⟨positive, short⟩
  | select table columns filter =>
    obtain ⟨none, flawed⟩ := Classical.not_imp.mp flawed
    rw [Execution.run, view_of_idle active idle, none]
    exact Execution.select_escapes found flawed
  | _ => exact absurd trivial flawed

end Workspace

/-! Engines. -/

namespace Engine

variable {e : Engine}

theorem location_execute [Json.Room] (e : Engine) (text : String) :
    (e.execute text).2.workspace.location = e.workspace.location := by
  unfold execute
  dsimp only
  split
  · rw [workspace_conclude]
  · rw [workspace_conclude]
    exact Workspace.location_execute _

theorem conclude_contained {label : Label} {span : Span} {answer : Except Failure Outcome}
    (contained : IsContained answer) :
    (∃ result, (e.conclude label span answer).1 = .ok result ∧
      ∀ outcome, result = .ok outcome → outcome.IsRectangular) ∨
    ∃ failure, (e.conclude label span answer).1 = .error failure ∧ failure.kind = .databaseOpen := by
  unfold conclude
  cases contained with
  | done shown =>
    refine Or.inl ⟨_, rfl, fun outcome same => ?_⟩
    cases same
    exact shown
  | @failed failure kept =>
    dsimp only
    cases severity : failure.severity with
    | reported => exact Or.inl ⟨_, rfl, fun outcome same => nomatch same⟩
    | fatal => exact Or.inr ⟨failure, rfl, Failure.kind_of_fatal severity⟩
    | escaping => exact absurd severity kept

theorem execute_contained [Json.Room] (free : e.workspace.location.IsFreeOfZero) {text : String}
    (bears : e.Bears text) :
    (∃ result, (e.execute text).1 = .ok result ∧
      ∀ outcome, result = .ok outcome → outcome.IsRectangular) ∨
    ∃ failure, (e.execute text).1 = .error failure ∧ failure.kind = .databaseOpen := by
  obtain ⟨stated, ofText⟩ := Statement.parse_spec text
  unfold execute
  dsimp only
  split
  · rename_i fault read
    exact conclude_contained (.reported (severity_of_isOfText (ofText fault read)))
  · rename_i c read
    exact conclude_contained (Workspace.execute_contained free (stated c read) (bears c read))

/-- Nothing less will do: in a database that can be read, a statement that does not bear its table
ends with a failure that escapes. -/
theorem execute_escapes [Json.Room] {name : String} {store : OpenStore} {text : String}
    {c : Command} {b : Bucket} (active : e.workspace.session.active = some (name, store))
    (idle : store.IsIdle) (read : Statement.parse text = .ok c)
    (found : (e.workspace.storage.contents store.place).get? c.subject = some b)
    (short : CellKey.IsReadable (e.workspace.storage.backend.counting.next b.sequence).toNat)
    (flawed : ¬ c.Bears e.workspace.storage.backend.counting b) :
    IsEscaping (e.execute text).1 := by
  have escaping := Workspace.execute_escapes active idle ((Statement.parse_spec text).1 c read) found
    short flawed
  unfold execute
  simp only [read]
  generalize (Execution.execute e.workspace (.command c)).1 = answer at escaping
  cases escaping with
  | escaped here =>
    simp only [conclude, here]
    exact .escaped here

theorem step_contained [Json.Room] (free : e.workspace.location.IsFreeOfZero) {text : String}
    (bears : e.Bears text) (width : Int) :
    (Shell.isExit text ∧ Shell.step service width e text = .stop .normal e) ∨
      (∃ shown, Shell.step service width e text = .next shown (e.execute text).2) ∨
      ∃ failure, Shell.step service width e text = .stop (.failed failure) (e.execute text).2 ∧
        failure.kind = .databaseOpen := by
  unfold Shell.step service
  dsimp only
  split_ifs with exits
  · exact Or.inl ⟨exits, rfl⟩
  · right
    have contained := execute_contained free bears
    generalize e.execute text = answer at contained
    obtain ⟨answer, after⟩ := answer
    rcases contained with ⟨result, rfl, rectangular⟩ | ⟨failure, rfl, opening⟩
    · obtain ⟨shown, here⟩ := Grid.exists_render rectangular width
      exact Or.inl ⟨shown, by simp only [here]⟩
    · exact Or.inr ⟨failure, rfl, opening⟩

/-- A loop whose statements bear their tables when their turn comes ends with its input, with the
exit command, or at a file that cannot be opened. -/
theorem loop_contained [Json.Room] (free : e.workspace.location.IsFreeOfZero) (s : Shell.Settings)
    {lines : List String}
    (bears : ∀ before line after, lines = before ++ line :: after → (e.run before).2.Bears line) :
    (Shell.loop service s e lines).ending = .normal ∨ ∃ failure,
      (Shell.loop service s e lines).ending = .failed failure ∧ failure.kind = .databaseOpen := by
  induction lines generalizing e with
  | nil => exact Or.inl rfl
  | cons line rest ih =>
    have step := step_contained free (bears [] line rest rfl) s.width
    rw [Shell.loop]
    rcases step with ⟨-, exits⟩ | ⟨shown, goesOn⟩ | ⟨failure, stops, opening⟩
    · rw [exits]
      exact Or.inl rfl
    · rw [goesOn]
      refine ih ((location_execute e line).symm ▸ free) fun before later after same => ?_
      exact bears (line :: before) later after (by rw [same, List.cons_append])
    · rw [stops]
      exact Or.inr ⟨failure, rfl, opening⟩

/-- Whatever is in the database, a statement that bears its table has a result, unless a file cannot
be opened, and the shell that takes it as a line comes back to its prompt. -/
theorem statement_cannot_crash [Json.Room] (e : Engine) (free : e.workspace.location.IsFreeOfZero)
    {text : String} (bears : e.Bears text) (width : Int) :
    ((∃ result, (e.execute text).1 = .ok result) ∨
      ∃ failure, (e.execute text).1 = .error failure ∧ failure.kind = .databaseOpen) ∧
    ((Shell.isExit text ∧ Shell.step service width e text = .stop .normal e) ∨
      (∃ shown, Shell.step service width e text = .next shown (e.execute text).2) ∨
      ∃ failure, Shell.step service width e text = .stop (.failed failure) (e.execute text).2 ∧
        failure.kind = .databaseOpen) := by
  refine ⟨?_, step_contained free bears width⟩
  exact (execute_contained free bears).imp_left fun ⟨result, answered, _⟩ => ⟨result, answered⟩

/-- A key and a value that are no texts, an id with a zero before it, and an unreadable order. -/
theorem statement_cannot_crash_junk :
    let l : Location := ⟨Path.ofText "data", ".db"⟩
    let t : Bucket := (((((⟨.empty, -5⟩ : Bucket).put [0xff] [0]).put (encode "1:a") [0xff]).put
      (encode "01:a") []).put (SchemaKey.ofColumn "a") (encode "TEXT")).put SchemaKey.order [0xff]
    let s := (Storage.empty .file).setNode (l.pathOf "shop") (.database (.insert .empty "t" t))
    let e := ((Engine.new l s).execute "USE shop").2
    let text := "SELECT * FROM t"
    e.databaseName = some "shop" ∧ e.workspace.location.IsFreeOfZero ∧ e.Bears text ∧
      ((∃ result, (e.execute text).1 = .ok result) ∨
        ∃ failure, (e.execute text).1 = .error failure ∧ failure.kind = .databaseOpen) := by
  intro l t s e text
  have free : e.workspace.location.IsFreeOfZero := by
    rw [location_execute]
    decide
  have ⟨opened, listed⟩ : e.databaseName = some "shop" ∧ ∀ entry ∈ e.workspace.session.active,
      ∀ b ∈ (e.workspace.storage.contents entry.2.place).get? "t", (Schema.columns b).isOk = true := by
    decide +kernel
  have bears : e.Bears text := by
    have read : Statement.parse text = .ok (.select "t" [] []) := by decide +kernel
    intro c parsed name store b active found
    cases read.symm.trans parsed
    intro _
    have ok := listed _ active b found
    apply Schema.exists_columns_iff.mp
    cases listing : Schema.columns b with
    | ok cs => exact ⟨cs, rfl⟩
    | error fault =>
      rw [listing] at ok
      cases ok
  exact ⟨opened, free, bears, (statement_cannot_crash e free bears Grid.defaultWidth).1⟩

/-- A definition that is no text is not passed over. -/
theorem damaged_definition_escapes :
    let l : Location := ⟨Path.ofText "data", ".db"⟩
    let t := Bucket.empty.put (SchemaKey.ofColumn "a") [0xff]
    let s := (Storage.empty .file).setNode (l.pathOf "shop") (.database (.insert .empty "t" t))
    let e := ((Engine.new l s).execute "USE shop").2
    ∃ failure, (e.execute "SELECT * FROM t").1 = .error failure ∧ failure.kind ≠ .databaseOpen := by
  intro l t s e
  refine ⟨.undecodable ⟨0, [0xff], .start⟩, ?_, by decide⟩
  decide +kernel

end Engine
end Cellstore
