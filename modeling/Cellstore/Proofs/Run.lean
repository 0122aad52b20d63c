import Cellstore.Engine
import Cellstore.Proofs.Path
import Cellstore.Proofs.Statement.Names
import Cellstore.Proofs.Table.Layout
import Cellstore.Proofs.Workspace

/-! Runs of an engine.
Statements only ever build tables: every bucket keeps its layout, so that no statement finds a table
that it cannot read. What remains to fail is the opening of a file. -/
namespace Cellstore
open Statement (IsStated)

/-- Every table was built by commands, and declares a column. -/
def Laid (c : Contents) : Prop :=
  ∀ table b, c.get? table = some b → ∃ columns, columns ≠ [] ∧ Built b columns

theorem laid_empty : Laid .empty := by
  intro table b found
  cases found

theorem Execution.tableOf_cases (c : Contents) (table : String) :
    tableOf c table = .error (.noTable table) ∨
      ∃ b, c.get? table = some b ∧ tableOf c table = .ok b := by
  unfold tableOf
  cases c.get? table with
  | none => exact Or.inl rfl
  | some b => exact Or.inr ⟨b, rfl, rfl⟩

/-- What a command makes of laid contents. -/
inductive Keeps : Except Failure (Outcome × Contents) → Prop where
  | failed {failure : Failure} (reported : failure.severity = .reported) : Keeps (.error failure)
  | done {outcome : Outcome} {c : Contents} (laid : Laid c) : Keeps (.ok (outcome, c))

namespace Laid

variable {c : Contents}

theorem insert (h : Laid c) {b : Bucket} {columns : List String} (filled : columns ≠ [])
    (built : Built b columns) (table : String) : Laid (c.insert table b) := by
  intro other d found
  rw [SortedMap.get?_insert] at found
  split_ifs at found
  · cases found
    exact ⟨columns, filled, built⟩
  · exact h other d found

theorem erase (h : Laid c) (table : String) : Laid (c.erase table) := by
  intro other d found
  rw [SortedMap.get?_erase] at found
  split_ifs at found
  exact h other d found

theorem tableOf_cases (h : Laid c) (table : String) :
    Execution.tableOf c table = .error (.noTable table) ∨
      ∃ b columns, Execution.tableOf c table = .ok b ∧ columns ≠ [] ∧ Built b columns := by
  rcases Execution.tableOf_cases c table with missing | ⟨b, found, there⟩
  · exact Or.inl missing
  · obtain ⟨columns, filled, built⟩ := h table b found
    exact Or.inr ⟨b, columns, there, filled, built⟩

private theorem extended_ne_nil (names columns : List String) (filled : names ≠ [] ∨ columns ≠ []) :
    names.foldl Schema.extended columns ≠ [] := by
  induction names generalizing columns with
  | nil => simpa using filled
  | cons name names ih =>
    refine ih _ (Or.inr ?_)
    exact List.ne_nil_of_mem (Schema.mem_extended.mpr (Or.inr rfl))

theorem createTable [Json.Room] (h : Laid c) (table : String) {columns : List ColumnDefinition}
    (filled : columns ≠ []) : Keeps (Execution.createTable table columns c) := by
  have start : ∃ old, Built ((c.get? table).getD .empty) old := by
    cases found : c.get? table with
    | none => exact ⟨[], built_empty⟩
    | some b =>
      obtain ⟨old, -, built⟩ := h table b found
      exact ⟨old, built⟩
  obtain ⟨old, start⟩ := start
  obtain ⟨b, declared, built⟩ := start.declare columns
  unfold Execution.createTable
  split_ifs
  · exact .failed rfl
  · rw [declared]
    refine .done (h.insert (extended_ne_nil _ _ (Or.inl ?_)) built table)
    simpa using filled

private theorem next_spec (backend : Backend) {n : Int} (counted : 0 ≤ n) :
    0 < backend.counting.next n ∧ n ≤ backend.counting.next n := by
  cases backend with
  | memory => simp only [Backend.counting, Counting.next]; omega
  | file =>
    simp only [Backend.counting, Counting.signed64, Counting.next]
    split_ifs <;> omega

theorem insertRow (h : Laid c) (backend : Backend) (table : String) {cells : Cells}
    (named : ∀ cell ∈ cells, IsColumnName cell.1) :
    Keeps (Execution.insert backend.counting table cells c) := by
  unfold Execution.insert
  rcases h.tableOf_cases table with missing | ⟨b, columns, found, filled, built⟩
  · rw [missing]
    exact .failed rfl
  · obtain ⟨positive, further⟩ := next_spec backend built.counted
    obtain ⟨id, next⟩ := Int.eq_ofNat_of_zero_le (Int.le_of_lt positive)
    have counted := built.count further
    rw [next] at counted positive
    obtain ⟨b', written, after⟩ := counted.putCells (Int.natCast_pos.mp positive) (Int.le_refl _) named
    rw [found]
    simp only [Bucket.nextSequence, next, written]
    exact .done (h.insert filled after table)

theorem updateRows (h : Laid c) (table : String) {column : String} (named : IsColumnName column)
    (value : String) (filter : Filter) :
    Keeps (Execution.update table column value filter c) := by
  unfold Execution.update
  rcases h.tableOf_cases table with missing | ⟨b, columns, found, filled, built⟩
  · rw [missing]
    exact .failed rfl
  · have given : ∀ r ∈ Rows.matching b filter, 0 < r.id ∧ (r.id : Int) ≤ b.sequence :=
      fun r inside => built.given (List.mem_filter.mp inside).1
    obtain ⟨b', written, after⟩ := built.assign named value given
    rw [found]
    simp only [written]
    exact .done (h.insert filled after table)

theorem deleteRows (h : Laid c) (table : String) (filter : Filter) :
    Keeps (Execution.delete table filter c) := by
  unfold Execution.delete
  rcases h.tableOf_cases table with missing | ⟨b, columns, found, filled, built⟩
  · rw [missing]
    exact .failed rfl
  · rw [found]
    exact .done (h.insert filled (built.delete filter) table)

theorem dropTable (h : Laid c) (table : String) : Keeps (Execution.dropTable table c) := by
  unfold Execution.dropTable
  split_ifs
  · exact .done (h.erase table)
  · exact .failed rfl

theorem select [Json.Room] (h : Laid c) (table : String) (columns : List String) (filter : Filter)
    {failure : Failure} (failed : Execution.select table columns filter c = .error failure) :
    failure.severity = .reported := by
  unfold Execution.select at failed
  rcases h.tableOf_cases table with missing | ⟨b, declared, found, -, built⟩
  · rw [missing] at failed
    cases failed
    rfl
  · rw [found] at failed
    dsimp only at failed
    rw [built.declares.columnNames_eq] at failed
    split at failed
    · rename_i broken
      split_ifs at broken
    · cases failed

end Laid

/-! Workspaces. -/

/-- No part of a path of this location holds the character zero. -/
def Location.IsFreeOfZero (l : Location) : Prop :=
  (∀ part ∈ l.directory.parts, '\x00' ∉ part.toList) ∧ '\x00' ∉ l.suffix.toList

instance (l : Location) : Decidable l.IsFreeOfZero := inferInstanceAs (Decidable (_ ∧ _))

theorem Location.not_mem_pathOf {l : Location} (free : l.IsFreeOfZero) {name : String}
    (named : Session.IsDatabaseName name) : '\x00' ∉ (l.pathOf name).toText.toList := by
  intro zero
  obtain ⟨part, member, inside⟩ := Path.exists_part_of_mem (by decide) (by decide) zero
  have parts : part ∈ l.directory.parts ∨ part ∈ (Path.ofText (name ++ l.suffix)).parts := by
    unfold Location.pathOf Path.join at member
    split_ifs at member
    · exact List.mem_append.mp member
    · exact Or.inr member
  rcases parts with above | file
  · exact free.1 part above inside
  · have found := Path.mem_of_mem_parts file inside
    rw [String.toList_append, List.mem_append] at found
    rcases found with inName | inSuffix
    · exact (named.2.2.2 _ inName).2.2 rfl
    · exact free.2 inSuffix

/-- A failure that does not leave the engine, or of a file that cannot be opened. -/
inductive Failure.IsExpected (l : Location) (b : Backend) : Failure → Prop where
  | reported {failure : Failure} (here : failure.severity = .reported) : IsExpected l b failure
  | opening {name : String} {fault : OpenFault} (file : b = .file)
      (zero : fault = .store .embeddedNull → ¬ l.IsFreeOfZero) : IsExpected l b (.opening name fault)

/-- What the opening of a database makes of a workspace, whatever it holds. -/
structure Workspace.Opens (w : Workspace) (r : Except Failure Outcome × Workspace) : Prop where
  contents : Disk.OnlyEmpties w.storage.disk r.2.storage.disk
  active : ∀ entry, r.2.session.active = some entry →
    w.session.active = some entry ∨ entry.2.IsIdle
  location : r.2.location = w.location
  backend : r.2.storage.backend = w.storage.backend
  expected : ∀ failure, r.1 = .error failure → failure.IsExpected w.location w.storage.backend

theorem Workspace.close_spec (w : Workspace) : ∃ s, w.session.close w.location.opener w.storage =
    (.ok (), { w.session with active := none }, s) ∧
    s.backend = w.storage.backend ∧ Disk.OnlyEmpties w.storage.disk s.disk := by
  obtain ⟨location, storage, active, switches⟩ := w
  cases active with
  | none => exact ⟨storage, rfl, rfl, (Disk.SameContents.refl _).onlyEmpties⟩
  | some entry =>
    exact ⟨storage.close entry.2.place, rfl, Storage.backend_close ..,
      Storage.onlyEmpties_close storage entry.2.place⟩

private theorem opener_spec (location : Location) (s : Storage) (p : Path) :
    (location.opener.open_ p s).2 = (s.open_ location.directory p).2 ∧
      (∀ store, (location.opener.open_ p s).1 = .ok store → store.IsIdle) ∧
      ∀ fault, (location.opener.open_ p s).1 = .error fault →
        (s.open_ location.directory p).1 = .error fault := by
  unfold Location.opener
  dsimp only
  generalize s.open_ location.directory p = answer
  obtain ⟨outcome, t⟩ := answer
  cases outcome with
  | error fault => exact ⟨rfl, by simp, fun _ same => by simpa using same⟩
  | ok place =>
    refine ⟨rfl, fun store same => ?_, by simp⟩
    cases same
    exact ⟨rfl, rfl⟩

theorem Workspace.open_spec (w : Workspace) (name : String) (outcome : Outcome) :
    w.Opens (Execution.open_ w name outcome) := by
  obtain ⟨s, closed, backend, kept⟩ := w.close_spec
  unfold Execution.open_ Workspace.use Session.use
  by_cases named : Session.IsDatabaseName name
  · rw [if_neg (not_not_intro named), closed]
    obtain ⟨storage, idle, refused⟩ := opener_spec w.location s (w.location.opener.pathOf name)
    have keptLater :=
      kept.trans (s.onlyEmpties_open w.location.directory (w.location.opener.pathOf name))
    have same := s.backend_open w.location.directory (w.location.opener.pathOf name)
    rw [← storage] at keptLater same
    dsimp only
    generalize w.location.opener.open_ (w.location.opener.pathOf name) s = answer at *
    obtain ⟨answer, t⟩ := answer
    cases answer with
    | error fault =>
      refine ⟨keptLater, by simp, rfl, same.trans backend, fun failure failed => ?_⟩
      cases failed
      obtain ⟨file, zero⟩ := Storage.open_error (refused fault rfl)
      refine .opening (backend ▸ file) fun null free => ?_
      rcases zero null with above | here
      · obtain ⟨part, member, inside⟩ := Path.exists_part_of_mem (by decide) (by decide) above
        exact free.1 part member inside
      · exact Location.not_mem_pathOf free named here
    | ok store =>
      refine ⟨keptLater, fun entry active => ?_, rfl, same.trans backend, by simp [Except.map]⟩
      cases active
      exact Or.inr (idle store rfl)
  · rw [if_pos named]
    refine ⟨(Disk.SameContents.refl _).onlyEmpties, fun _ active => Or.inl active, rfl, rfl, ?_⟩
    intro failure failed
    cases failed
    exact .reported rfl

structure Workspace.IsLaid (w : Workspace) : Prop where
  contents : ∀ place, Laid (w.storage.contents place)
  idle : ∀ name store, w.session.active = some (name, store) → store.IsIdle

/-- What a command makes of a workspace. -/
structure Workspace.Steps (w : Workspace) (r : Except Failure Outcome × Workspace) : Prop where
  laid : r.2.IsLaid
  location : r.2.location = w.location
  backend : r.2.storage.backend = w.storage.backend
  expected : ∀ failure, r.1 = .error failure → failure.IsExpected w.location w.storage.backend

theorem Disk.OnlyEmpties.laid {d e : Disk} (h : d.OnlyEmpties e)
    (laid : ∀ place, Laid (d.contents place)) : ∀ place, Laid (e.contents place) := by
  intro place
  rcases h place with same | gone
  · rw [same]
    exact laid place
  · rw [gone]
    exact laid_empty

namespace Workspace.IsLaid

variable {w : Workspace}

theorem stays (h : w.IsLaid) {r : Except Failure Outcome}
    (reported : ∀ failure, r = .error failure → failure.severity = .reported) : w.Steps (r, w) :=
  ⟨h, rfl, rfl, fun failure failed => .reported (reported failure failed)⟩

theorem update (h : w.IsLaid) {name : String} {store : OpenStore}
    (active : w.session.active = some (name, store))
    {body : Contents → Except Failure (Outcome × Contents)}
    (keeps : ∀ c, Laid c → Keeps (body c)) : w.Steps (w.update body) := by
  rw [Workspace.update_of_idle active (h.idle name store active)]
  have kept := keeps _ (h.contents store.place)
  generalize body (w.storage.contents store.place) = answer at kept
  cases kept with
  | failed reported =>
    refine h.stays fun failure failed => ?_
    cases failed
    exact reported
  | @done outcome c laid =>
    refine ⟨⟨fun place => ?_, h.idle⟩, rfl, rfl, by simp⟩
    by_cases here : store.place = place
    · rw [← here]
      dsimp only
      rw [Storage.contents_setContents_self]
      exact laid
    · dsimp only
      rw [Storage.contents_setContents_of_ne _ _ here]
      exact h.contents place

theorem view (h : w.IsLaid) {name : String} {store : OpenStore}
    (active : w.session.active = some (name, store)) {body : Contents → Except Failure Outcome}
    (reported : ∀ c, Laid c → ∀ failure, body c = .error failure → failure.severity = .reported) :
    w.Steps (w.view body) := by
  rw [Workspace.view_of_idle active (h.idle name store active)]
  exact h.stays (reported _ (h.contents store.place))

theorem open_ (h : w.IsLaid) (name : String) (outcome : Outcome) :
    w.Steps (Execution.open_ w name outcome) := by
  have opens := w.open_spec name outcome
  refine ⟨⟨opens.contents.laid h.contents, fun other store active => ?_⟩, opens.location,
    opens.backend, opens.expected⟩
  rcases opens.active _ active with before | idle
  · exact h.idle other store before
  · exact idle

theorem execute [Json.Room] (h : w.IsLaid) {c : Command} (stated : IsStated c) :
    w.Steps (Execution.execute w (.command c)) := by
  unfold Execution.execute
  split_ifs with missing
  · refine h.stays fun failure failed => ?_
    cases failed
    rfl
  · have present (requires : c.requiresDatabase = true) :
        ∃ name store, w.session.active = some (name, store) := by
      cases active : w.session.active with
      | none => exact absurd ⟨requires, by rw [active]; rfl⟩ missing
      | some entry => exact ⟨entry.1, entry.2, rfl⟩
    cases c with
    | createDatabase name => exact h.open_ name _
    | useDatabase name => exact h.open_ name _
    | createTable table columns =>
      obtain ⟨name, store, active⟩ := present rfl
      exact h.update active fun c laid => laid.createTable table stated.2
    | insert table columns values sameLength =>
      obtain ⟨name, store, active⟩ := present rfl
      exact h.update active fun c laid => laid.insertRow _ table fun cell member =>
        stated.2.2.2 cell.1 (List.of_mem_zip member).1
    | select table columns filter =>
      obtain ⟨name, store, active⟩ := present rfl
      exact h.view active fun c laid failure failed => laid.select table columns filter failed
    | update table column value filter =>
      obtain ⟨name, store, active⟩ := present rfl
      exact h.update active fun c laid => laid.updateRows table stated.2.1 value filter
    | delete table filter =>
      obtain ⟨name, store, active⟩ := present rfl
      exact h.update active fun c laid => laid.deleteRows table filter
    | dropTable table =>
      obtain ⟨name, store, active⟩ := present rfl
      exact h.update active fun c laid => laid.dropTable table

end Workspace.IsLaid

/-! Engines. -/

namespace Engine

/-- The answers to some statements one after the other, and the engine after them. A statement
whose failure leaves the engine does not end the run. -/
def run [Json.Room] (e : Engine) : List String → List (Except Failure Result) × Engine
  | [] => ([], e)
  | text :: rest =>
    ((e.execute text).1 :: ((e.execute text).2.run rest).1, ((e.execute text).2.run rest).2)

theorem workspace_conclude (e : Engine) (label : Label) (span : Span)
    (outcome : Except Failure Outcome) : (e.conclude label span outcome).2.workspace = e.workspace := by
  unfold conclude
  split
  · rfl
  · split <;> rfl

theorem conclude_error {e : Engine} {label : Label} {span : Span} {outcome : Except Failure Outcome}
    {failure : Failure} (left : (e.conclude label span outcome).1 = .error failure) :
    outcome = .error failure ∧ failure.severity ≠ .reported := by
  unfold conclude at left
  split at left
  · cases left
  · split at left <;> rename_i severity <;> cases left <;> exact ⟨rfl, by simp [severity]⟩

theorem severity_of_isOfText {fault : Statement.Fault} (h : fault.IsOfText) :
    (Failure.statement fault).severity = .reported := by
  cases fault with
  | column => exact h.elim
  | _ => rfl

theorem kind_opening (name : String) {fault : OpenFault}
    (other : fault ≠ .store .embeddedNull) : (Failure.opening name fault).kind = .databaseOpen := by
  unfold Failure.kind
  split <;> simp_all

variable {e : Engine}

theorem execute_spec [Json.Room] (h : e.workspace.IsLaid) (text : String) :
    (e.execute text).2.workspace.IsLaid ∧
      (e.execute text).2.workspace.location = e.workspace.location ∧
      (e.execute text).2.workspace.storage.backend = e.workspace.storage.backend ∧
      ∀ failure, (e.execute text).1 = .error failure → e.workspace.storage.backend = .file ∧
        (e.workspace.location.IsFreeOfZero → failure.kind = .databaseOpen) := by
  obtain ⟨stated, ofText⟩ := Statement.parse_spec text
  unfold execute
  dsimp only
  split
  · rename_i fault read
    rw [workspace_conclude]
    refine ⟨h, rfl, rfl, fun failure left => ?_⟩
    obtain ⟨failed, leaves⟩ := conclude_error left
    cases failed
    exact absurd (severity_of_isOfText (ofText fault read)) leaves
  · rename_i c read
    have steps := h.execute (stated c read)
    rw [workspace_conclude]
    refine ⟨steps.laid, steps.location, steps.backend, fun failure left => ?_⟩
    obtain ⟨failed, leaves⟩ := conclude_error left
    cases steps.expected failure failed with
    | reported here => exact absurd here leaves
    | @opening name fault file zero =>
      exact ⟨file, fun free => kind_opening name fun null => zero null free⟩

theorem isLaid_new (l : Location) {s : Storage} (fresh : ∀ place, s.contents place = .empty) :
    (Engine.new l s).workspace.IsLaid where
  contents := fun place => fresh place ▸ laid_empty
  idle := by
    intro name store active
    cases active

end Engine
end Cellstore
