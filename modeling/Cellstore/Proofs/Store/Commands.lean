import Cellstore.Proofs.Store.Blocks

/-! Call by call a command does to the store what it does to the contents.
The calls on a table read and write its bucket as the table's own operations do, and from them
the block of every command is put together. -/
namespace Cellstore.Store.Calls
open Text.Utf8 (encode decode)

variable {σ η α β : Type} {a : Adapter σ η} {m : Matching σ η} {counting : Counting} {g : η}
  {k : Contract.Handle}

/-! The calls of a table -/

private theorem recordOf_get? [Json.Room] (b : Bucket) :
    recordOf (b.get? SchemaKey.order) = Schema.orderRecord b := by
  unfold recordOf Schema.orderRecord
  cases b.get? SchemaKey.order <;> rfl

theorem reads_currentOrder [Json.Room] (sim : Simulation a m counting) :
    Reads m g k (currentOrder a g) fun b =>
      (Schema.currentOrder b).mapError Execution.schemaFailure := by
  intro s r b state usable content
  have byKey : Reads m g k (do
      let entries ← read (a.items g SchemaKey.columnMark)
      ofExcept (((entries.mapM fun e => Schema.nameOf e.1).map (·.map Json.units)).mapError
        .undecodable)) fun b => ((Schema.namesByKey b).map (·.map Json.units)).mapError .undecodable :=
    (Reads.items sim _).bind fun entries => Reads.ofExcept _
  unfold currentOrder
  rw [bind_of_ok (Reads.get sim SchemaKey.order s r b state usable content), recordOf_get?]
  dsimp only
  unfold Schema.currentOrder
  cases Schema.orderRecord b with
  | names order => rfl
  | tooDeep bracket => rfl
  | absent | unreadable =>
    refine (byKey s r b state usable content).trans ?_
    dsimp only
    cases Schema.namesByKey b <;> rfl

theorem writes_defineColumn [Json.Room] (sim : Simulation a m counting) (c : ColumnDefinition) :
    Writes m g k (defineColumn a g c) fun b =>
      ((Schema.define b [c]).mapError Execution.schemaFailure).map fun b => ((), b) := by
  refine ((reads_currentOrder sim).writes.bind fun order => (Writes.put sim _ _).bind fun _ =>
    Writes.put sim _ _).congr fun b => ?_
  unfold Schema.define
  cases Schema.currentOrder b <;> rfl

theorem reads_columns [Json.Room] (sim : Simulation a m counting) :
    Reads m g k (columns a g) fun b => (Schema.columns b).mapError Execution.schemaFailure := by
  refine ((Reads.items sim _).bind fun entries => (Reads.ofExcept _).bind fun stored =>
    (Reads.get sim _).bind fun entry => Reads.ofExcept _).congr fun b => ?_
  show ((Schema.definitions b).mapError Failure.undecodable >>= fun stored =>
    (arrange stored (recordOf (b.get? SchemaKey.order))).mapError Execution.schemaFailure) = _
  rw [recordOf_get?]
  unfold Schema.columns
  cases Schema.definitions b with
  | error failure => rfl
  | ok stored => cases Schema.orderRecord b <;> rfl

theorem writes_putCell (sim : Simulation a m counting) (row : Int) (column value : String) :
    Writes m g k (putCell a g row column value) fun b =>
      ((Rows.putCell b row column value).mapError .key).map fun b => ((), b) := by
  unfold putCell Rows.putCell
  cases CellKey.make row column with
  | error fault => exact Writes.throw (.key fault)
  | ok key => exact Writes.put sim key.toBytes (encode value)

theorem reads_matching (sim : Simulation a m counting) (filter : Filter) :
    Reads m g k (matching a g filter) fun b => .ok (Rows.matching b filter) := by
  refine ((Reads.items sim []).bind fun entries => Reads.ofExcept (.ok _)).congr fun b => ?_
  have whole : b.items [] = b.entries.entries := List.filter_eq_self.mpr fun _ _ => rfl
  rw [whole]
  rfl

theorem writes_deleteRow (sim : Simulation a m counting) (r : Row) :
    Writes m g k (deleteRow a g r) fun b => .ok ((), Rows.deleteRow b r) := by
  refine (Writes.forM (f := fun b key => .ok (b.delete key)) fun key =>
    Writes.delete sim key).congr fun b => ?_
  have whole : r.keys.foldlM (fun b key => .ok (b.delete key)) b =
      (.ok (r.keys.foldl Bucket.delete b) : Except Failure Bucket) := List.foldlM_pure
  rw [whole]
  rfl

/-! The blocks of the commands -/

/-- What a command does to the contents of its database, if it succeeds. -/
def onContents [Json.Room] (counting : Counting) :
    Command → Contents → Except Failure (Outcome × Contents)
  | .createTable table columns => Execution.createTable table columns
  | .insert table columns values _ => Execution.insert counting table (columns.zip values)
  | .select table columns filter => fun c =>
    (Execution.select table columns filter c).map fun outcome => (outcome, c)
  | .update table column value filter => Execution.update table column value filter
  | .delete table filter => Execution.delete table filter
  | .dropTable table => Execution.dropTable table
  | .createDatabase _ | .useDatabase _ => fun _ => .error .noDatabase

private theorem foldlM_eq {f : Bucket → β → Except Failure Bucket}
    (change : Bucket → List β → Except Failure Bucket) (nil : ∀ b, change b [] = .ok b)
    (cons : ∀ b x xs, change b (x :: xs) = f b x >>= fun d => change d xs) (b : Bucket)
    (xs : List β) : change b xs = xs.foldlM f b := by
  induction xs generalizing b with
  | nil => exact nil b
  | cons x xs ih =>
    rw [cons, List.foldlM_cons]
    exact congrArg (f b x >>= ·) (funext ih)

private theorem declare_eq [Json.Room] (b : Bucket) (columns : List ColumnDefinition) :
    Execution.declare b columns = columns.foldlM (fun b c =>
      (Schema.define b [c]).mapError Execution.schemaFailure) b := by
  refine foldlM_eq Execution.declare (fun _ => rfl) (fun b c columns => ?_) b columns
  rw [Execution.declare]
  cases Schema.define b [c] <;> rfl

private theorem putCells_eq (row : Int) (b : Bucket) (cells : Cells) :
    (Rows.putCells row b cells).mapError Failure.key = cells.foldlM (fun b c =>
      (Rows.putCell b row c.1 c.2).mapError .key) b := by
  refine foldlM_eq (fun b cells => (Rows.putCells row b cells).mapError Failure.key) (fun _ => rfl)
    (fun b c cells => ?_) b cells
  rw [Rows.putCells]
  cases Rows.putCell b row c.1 c.2 <;> rfl

private theorem assign_eq (column value : String) (b : Bucket) (rows : List Row) :
    Execution.assign column value b rows = rows.foldlM (fun b r =>
      (Rows.putCell b r.id column value).mapError .key) b := by
  refine foldlM_eq (Execution.assign column value) (fun _ => rfl) (fun b r rows => ?_) b rows
  rw [Execution.assign]
  cases Rows.putCell b r.id column value <;> rfl

private theorem writes_declare [Json.Room] (sim : Simulation a m counting) (table : String)
    (columns : List ColumnDefinition) :
    Writes m g k (do columns.forM (defineColumn a g); return Outcome.tableCreated table) fun b =>
      (Execution.declare b columns).map fun b => (.tableCreated table, b) := by
  refine ((Writes.forM fun c => writes_defineColumn sim c).bind fun _ =>
    (Reads.ofExcept (.ok (Outcome.tableCreated table))).writes).congr fun b => ?_
  rw [declare_eq]
  cases columns.foldlM (fun b c => (Schema.define b [c]).mapError Execution.schemaFailure) b <;> rfl

theorem updates_createTable [Json.Room] (sim : Simulation a m counting) (table : String)
    (columns : List ColumnDefinition) :
    Updates m (fun id => block a id (.createTable table columns))
      (Execution.createTable table columns) := by
  intro s r id c state writing
  have same := sim.create table state fun _ => Contract.not_isEndedView_of_writing writing
  unfold Contract.create at same
  unfold Execution.createTable
  by_cases unnamed : table = ""
  · rw [if_pos unnamed] at same ⊢
    refine ⟨fun x d done => (by cases done), fun failure failed => ?_⟩
    cases failed
    refine ⟨s, c, bind_of_error (call_of_error same.error), ?_⟩
    rw [Contract.write_of_writing writing]
    exact state
  · rw [if_neg unnamed, writing] at same
    rw [if_neg unnamed]
    obtain ⟨given, here, usable, step⟩ := same.ok
    have start : block a id (.createTable table columns) s =
        (do columns.forM (defineColumn a given.1); return Outcome.tableCreated table :
          Calls σ Outcome) given.2 := bind_of_ok (call_of_ok here)
    have rest := writes_declare sim table columns given.2 _ _ _ step.state usable
      (Contract.writing_write _ r) (SortedMap.get?_insert_self ..)
    simp only [SortedMap.insert_insert] at rest
    obtain ⟨succeeds, fails⟩ := rest
    simp only [start]
    cases declared : Execution.declare ((c.get? table).getD .empty) columns with
    | error failure =>
      refine ⟨fun x d done => (by cases done), fun other failed => ?_⟩
      cases failed
      exact fails failure (by rw [declared]; rfl)
    | ok b =>
      refine ⟨fun x d done => ?_, fun other failed => (by cases failed)⟩
      cases done
      obtain ⟨s', calls, step'⟩ := succeeds _ b (by rw [declared]; rfl)
      exact ⟨s', calls, step'.state⟩

private theorem writes_insertRow (sim : Simulation a m counting) (table : String) (cells : Cells) :
    Writes m g k (do
      let row ← call (a.nextSequence g)
      cells.forM fun c => putCell a g row c.1 c.2
      return Outcome.inserted table) fun b =>
      ((Rows.putCells (b.nextSequence counting).1 (b.nextSequence counting).2 cells).mapError
        .key).map fun b => (.inserted table, b) := by
  have cell (row : Int) : Writes m g k (do
      cells.forM fun c => putCell a g row c.1 c.2
      return Outcome.inserted table) fun b =>
      ((Rows.putCells row b cells).mapError .key).map fun b => (Outcome.inserted table, b) := by
    have each : Writes m g k (cells.forM fun c => putCell a g row c.1 c.2) _ :=
      Writes.forM fun c => writes_putCell sim row c.1 c.2
    refine (each.returning (Outcome.inserted table)).congr fun b => ?_
    rw [putCells_eq]
  exact (Writes.nextSequence sim).before cell

private theorem writes_assign (sim : Simulation a m counting) (table column value : String)
    (filter : Filter) :
    Writes m g k (do
      let rows ← matching a g filter
      rows.forM fun r => putCell a g r.id column value
      return Outcome.updated table rows.length) fun b =>
      (Execution.assign column value b (Rows.matching b filter)).map fun d =>
        (.updated table (Rows.matching b filter).length, d) := by
  have assign (rows : List Row) : Writes m g k (do
      rows.forM fun r => putCell a g r.id column value
      return Outcome.updated table rows.length) fun b =>
      (Execution.assign column value b rows).map fun d => (.updated table rows.length, d) := by
    refine ((Writes.forM fun (r : Row) => writes_putCell sim r.id column value).returning _).congr
      fun b => ?_
    rw [assign_eq]
  exact (reads_matching sim filter).writes.before assign

private theorem writes_deleteRows (sim : Simulation a m counting) (table : String)
    (filter : Filter) :
    Writes m g k (do
      let rows ← matching a g filter
      rows.forM (deleteRow a g)
      return Outcome.deleted table rows.length) fun b =>
      .ok (.deleted table (Rows.matching b filter).length,
        (Rows.matching b filter).foldl Rows.deleteRow b) := by
  have rows (rows : List Row) : Writes m g k (do
      rows.forM (deleteRow a g)
      return Outcome.deleted table rows.length) fun b =>
      .ok (.deleted table rows.length, rows.foldl Rows.deleteRow b) := by
    refine ((Writes.forM (f := fun b r => .ok (Rows.deleteRow b r)) fun r =>
      writes_deleteRow sim r).returning _).congr fun b => ?_
    have whole : rows.foldlM (fun b r => .ok (Rows.deleteRow b r)) b =
        (.ok (rows.foldl Rows.deleteRow b) : Except Failure Bucket) := List.foldlM_pure
    rw [whole]
    rfl
  exact (reads_matching sim filter).writes.before rows

theorem updates_dropTable [Json.Room] (sim : Simulation a m counting) (table : String) :
    Updates m (fun id => block a id (.dropTable table)) (Execution.dropTable table) := by
  intro s r id c state writing
  have same := sim.deleteBucket table state (Contract.not_isEndedView_of_writing writing)
  unfold Contract.deleteBucket at same
  rw [writing] at same
  unfold Execution.dropTable
  dsimp only at same
  by_cases there : c.contains table = true
  · rw [if_pos there] at same ⊢
    obtain ⟨s', here, step⟩ := same.ok
    refine ⟨fun x d done => ?_, fun failure failed => (by cases failed)⟩
    cases done
    exact ⟨s', bind_of_ok (write_of_ok here), step.state⟩
  · rw [if_neg there] at same ⊢
    refine ⟨fun x d done => (by cases done), fun failure failed => ?_⟩
    cases failed
    refine ⟨s, c, bind_of_error (write_of_error same.error), ?_⟩
    rw [Contract.write_of_writing writing]
    exact state

/-- What each command does in its block, it does to the contents. -/
theorem updates_block [Json.Room] (sim : Simulation a m counting) (c : Command)
    (writes : writes c = true) (needs : c.requiresDatabase = true) :
    Updates m (fun id => block a id c) (onContents counting c) := by
  cases c with
  | createDatabase name | useDatabase name => cases needs
  | select table columns filter => cases writes
  | createTable table columns => exact updates_createTable sim table columns
  | insert table columns values sameLength =>
    refine (updates_table sim fun g id => writes_insertRow sim table (columns.zip values)).congr
      fun c => ?_
    show _ = Execution.insert counting table (columns.zip values) c
    unfold Execution.insert
    cases Execution.tableOf c table with
    | error failure => rfl
    | ok b =>
      dsimp only
      cases Rows.putCells (b.nextSequence counting).1 (b.nextSequence counting).2
        (columns.zip values) <;> rfl
  | update table column value filter =>
    refine (updates_table sim fun g id => writes_assign sim table column value filter).congr
      fun c => ?_
    show _ = Execution.update table column value filter c
    unfold Execution.update
    cases Execution.tableOf c table with
    | error failure => rfl
    | ok b =>
      dsimp only
      cases Execution.assign column value b (Rows.matching b filter) <;> rfl
  | delete table filter =>
    refine (updates_table sim fun g id => writes_deleteRows sim table filter).congr fun c => ?_
    show _ = Execution.delete table filter c
    unfold Execution.delete
    cases Execution.tableOf c table <;> rfl
  | dropTable table => exact updates_dropTable sim table

private theorem reads_headers [Json.Room] (sim : Simulation a m counting) (names : List String) :
    Reads m g k (headers a g names) fun b =>
      (if names.isEmpty then Schema.columnNames b else .ok names).mapError
        Execution.schemaFailure := by
  unfold headers
  split_ifs
  · refine ((reads_columns sim).bind fun columns =>
      Reads.ofExcept (.ok (columns.map (·.name)))).congr fun b => ?_
    unfold Schema.columnNames
    cases Schema.columns b <;> rfl
  · exact Reads.ofExcept (.ok names)

theorem views_select [Json.Room] (sim : Simulation a m counting) (table : String)
    (names : List String) (filter : Filter) :
    Views m (fun id => block a id (.select table names filter))
      (Execution.select table names filter) := by
  intro s r id c state visible
  unfold Execution.select Execution.tableOf
  rcases tableOf_spec sim state visible table with ⟨missing, failed⟩ | ⟨b, g, found, usable, done⟩
  · simp only [missing]
    exact bind_of_error failed
  · have content : r.content ⟨id, table⟩ = .ok b := by
      rw [Contract.content, visible]
      simp only [Except.map, found, Option.getD_some]
    have reads : Reads m g ⟨id, table⟩ (do
        let headers ← headers a g names
        let rows ← matching a g filter
        return Outcome.selected headers (rows.map fun r => ⟨headers, Row.project headers r.cells⟩))
        _ := (reads_headers sim names).bind fun headers => (reads_matching sim filter).bind fun rows =>
          Reads.ofExcept (.ok (Outcome.selected headers
            (rows.map fun r => ⟨headers, Row.project headers r.cells⟩)))
    have start : block a id (.select table names filter) s = _ :=
      (bind_of_ok done).trans (reads s r b state usable content)
    simp only [found]
    refine start.trans ?_
    dsimp only
    cases (if names.isEmpty then Schema.columnNames b else .ok names) <;> rfl

variable {s : σ} {c : Contents}

/-- Call by call a command does what it does to the contents as a whole. -/
theorem Holds.execute [Json.Room] (sim : Simulation a m counting) (holds : Holds m s c)
    (command : Command) (needs : command.requiresDatabase = true) :
    (∀ x d, onContents counting command c = .ok (x, d) →
      ∃ s', Calls.execute a command s = (.ok x, s') ∧ Holds m s' d) ∧
    ∀ failure, onContents counting command c = .error failure →
      ∃ s', Calls.execute a command s = (.error failure, s') ∧ Holds m s' c := by
  cases command with
  | select table names filter =>
    obtain ⟨s', calls, holds'⟩ := holds.transaction_view sim (views_select sim table names filter)
    refine ⟨fun x d done => ?_, fun failure failed => ?_⟩
    · obtain ⟨outcome, selected, same⟩ := map_eq_ok_iff.mp done
      cases same
      exact ⟨s', selected ▸ calls, holds'⟩
    · have selected : Execution.select table names filter c = .error failure := by
        unfold onContents at failed
        dsimp only at failed
        cases result : Execution.select table names filter c with
        | error other =>
          rw [result] at failed
          cases failed
          rfl
        | ok outcome =>
          rw [result] at failed
          cases failed
      exact ⟨s', selected ▸ calls, holds'⟩
  | _ => exact holds.transaction_update sim (updates_block sim _ rfl needs)

end Cellstore.Store.Calls
