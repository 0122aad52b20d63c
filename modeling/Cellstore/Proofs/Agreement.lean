import Cellstore.Proofs.Run
import Cellstore.Proofs.Statement.Where
import Cellstore.Proofs.Table.Changes

/-! One WHERE clause in selections, updates and deletions.
In every state that an engine reaches, a deletion removes the rows that the selection shows, and an
update sets one column of these rows. All else that a selection shows stays as it was. -/
namespace Cellstore
open Statement (SpellsName parse quotedValue)

/-- The row with another value in one column, if it has that column. -/
def ResultRow.set (r : ResultRow) (column value : String) : ResultRow :=
  ⟨r.columns, (r.columns.zip r.values).map fun p => if p.1 = column then value else p.2⟩

/-! Rows as a selection shows them. -/

namespace Rows

def shown (headers : List String) (r : Row) : ResultRow := ⟨headers, Row.project headers r.cells⟩

section
variable {headers : List String} {filter : Filter} {column value : String} {r s : Row}

theorem Same.shown_eq (h : Same r s) : shown headers r = shown headers s := by
  simp only [shown, Row.project, h.2]

theorem Same.holds_eq (h : Same r s) : filter.holds r.cells = filter.holds s.cells := by
  simp only [Filter.holds, Predicate.holds, h.2]

theorem SetIn.shown_eq (h : SetIn filter column value r s) : shown headers r =
    if filter.holds s.cells then (shown headers s).set column value else shown headers s := by
  simp only [shown, Row.project, ResultRow.set, ← List.map_prod_left_eq_zip, List.map_map, h.2]
  split_ifs with passes
  · refine congrArg (ResultRow.mk headers) (List.map_congr_left fun name _ => ?_)
    simp only [passes, true_and, Function.comp_apply]
    split_ifs <;> rfl
  · simp [passes]

end

private theorem map_eq_of_forall₂ {α : Type} {R : Row → Row → Prop} {f g : Row → α}
    {rs ss : List Row} (related : List.Forall₂ R rs ss) (same : ∀ r s, R r s → f r = g s) :
    rs.map f = ss.map g := by
  rw [← List.forall₂_eq_eq_eq, List.forall₂_map_left_iff, List.forall₂_map_right_iff]
  exact related.imp same

theorem matching_nil (b : Bucket) : matching b [] = scan b := by
  simp [matching]

variable (headers : List String) (b : Bucket) (filter : Filter)

theorem shown_deleted : (scan ((matching b filter).foldl deleteRow b)).map (shown headers) =
    ((scan b).filter fun r => !filter.holds r.cells).map (shown headers) :=
  map_eq_of_forall₂ (scan_deleted b filter) fun _ _ same => same.shown_eq

theorem matching_deleted : matching ((matching b filter).foldl deleteRow b) filter = [] := by
  -- What is left passes as little as the rows that it comes from.
  have tests : (scan ((matching b filter).foldl deleteRow b)).map (fun r => filter.holds r.cells) =
      ((scan b).filter fun r => !filter.holds r.cells).map fun r => filter.holds r.cells :=
    map_eq_of_forall₂ (scan_deleted b filter) fun _ _ same => same.holds_eq
  refine List.filter_eq_nil_iff.mpr fun r left passes => ?_
  obtain ⟨s, kept, fails⟩ := List.mem_map.mp (tests ▸ List.mem_map.mpr ⟨r, left, passes⟩)
  simp [fails] at kept

variable {b filter} in
theorem shown_assigned {b' : Bucket} {column value : String} (named : IsColumnName column)
    (written : Execution.assign column value b (matching b filter) = .ok b') :
    (scan b').map (shown headers) = (scan b).map fun r =>
      if filter.holds r.cells then (shown headers r).set column value else shown headers r :=
  map_eq_of_forall₂ (scan_assigned named written) fun _ _ set => set.shown_eq

end Rows

/-! Commands on a table. -/

namespace Workspace

/-- The active database has the table, and can begin a transaction. -/
def Offers (w : Workspace) (table : String) (b : Bucket) : Prop :=
  ∃ name store, w.session.active = some (name, store) ∧ store.IsIdle ∧
    (w.storage.contents store.place).get? table = some b

namespace Offers

variable {w : Workspace} {table : String} {b : Bucket} (h : w.Offers table b)
include h

private theorem execute_eq [Json.Room] (request : Execution.Request) :
    Execution.execute w request = Execution.run w request := by
  obtain ⟨name, store, active, -⟩ := h
  rw [Execution.execute, if_neg]
  simp [active]

theorem update {body : Contents → Except Failure (Outcome × Contents)} {outcome : Outcome}
    {b' : Bucket}
    (done : ∀ c, c.get? table = some b → body c = .ok (outcome, c.insert table b')) :
    ∃ w', w.update body = (.ok outcome, w') ∧ w'.Offers table b' := by
  obtain ⟨name, store, active, idle, found⟩ := h
  rw [update_of_idle active idle, done _ found]
  refine ⟨_, rfl, name, store, active, idle, ?_⟩
  rw [Storage.contents_setContents_self, SortedMap.get?_insert_self]

variable {columns : List String} (filter : Filter)

theorem select [Json.Room] (built : Built b columns) :
    Execution.execute w (.command (.select table [] filter)) =
    (.ok (.selected columns ((Rows.matching b filter).map (Rows.shown columns))), w) := by
  rw [h.execute_eq]
  obtain ⟨name, store, active, idle, found⟩ := h
  rw [Execution.run, view_of_idle active idle, Execution.select, Execution.tableOf, found]
  simp only [List.isEmpty_nil, if_true, built.declares.columnNames_eq]
  rfl

theorem delete [Json.Room] : ∃ w', Execution.execute w (.command (.delete table filter)) =
      (.ok (.deleted table (Rows.matching b filter).length), w') ∧
    w'.Offers table ((Rows.matching b filter).foldl Rows.deleteRow b) := by
  rw [h.execute_eq]
  refine h.update fun c found => ?_
  rw [Execution.delete, Execution.tableOf, found]

theorem change [Json.Room] (built : Built b columns) {column : String} (named : IsColumnName column)
    (value : String) :
    ∃ w' b', Execution.execute w (.command (.update table column value filter)) =
        (.ok (.updated table (Rows.matching b filter).length), w') ∧ w'.Offers table b' ∧
      Execution.assign column value b (Rows.matching b filter) = .ok b' ∧ Built b' columns := by
  have given : ∀ r ∈ Rows.matching b filter, 0 < r.id ∧ (r.id : Int) ≤ b.sequence :=
    fun r inside => built.given (List.mem_filter.mp inside).1
  obtain ⟨b', written, after⟩ := built.assign named value given
  have done : ∀ c, c.get? table = some b → Execution.update table column value filter c =
      .ok (.updated table (Rows.matching b filter).length, c.insert table b') := by
    intro c found
    rw [Execution.update, Execution.tableOf, found]
    simp only [written]
  obtain ⟨w', ran, offers⟩ := h.update done
  rw [h.execute_eq]
  exact ⟨w', b', ran, offers, written, after⟩

end Offers
end Workspace

/-! Statements on a table. -/

namespace Engine

/-- The states of engines that begin without any database. -/
inductive Reachable [Json.Room] : Engine → Prop where
  | new (l : Location) {s : Storage} (fresh : ∀ place, s.contents place = .empty) :
      Reachable (.new l s)
  | execute {e : Engine} (reached : Reachable e) (text : String) : Reachable (e.execute text).2
  | close {e : Engine} (reached : Reachable e) : Reachable e.close.2

theorem Reachable.isLaid [Json.Room] {e : Engine} (reached : e.Reachable) : e.workspace.IsLaid := by
  induction reached with
  | new l fresh => exact isLaid_new l fresh
  | execute reached text laid => exact (execute_spec laid text).1
  | @close e reached laid =>
    obtain ⟨s, closed, -, kept⟩ := e.workspace.close_spec
    simp only [Engine.close, Workspace.close, closed]
    exact ⟨kept.laid laid.contents, fun name store active => nomatch active⟩

theorem Reachable.run [Json.Room] {e : Engine} (reached : e.Reachable) (texts : List String) :
    (e.run texts).2.Reachable := by
  induction texts generalizing e with
  | nil => exact reached
  | cons text rest ih => exact ih (reached.execute text)

def HasTable (e : Engine) (table : String) : Prop :=
  ∃ entry ∈ e.workspace.session.active,
    ((e.workspace.storage.contents entry.2.place).get? table).isSome

instance (e : Engine) (table : String) : Decidable (e.HasTable table) :=
  inferInstanceAs (Decidable (∃ entry ∈ _, _))

theorem Reachable.offers [Json.Room] {e : Engine} (reached : e.Reachable) {table : String}
    (there : e.HasTable table) : ∃ b columns, e.workspace.Offers table b ∧ Built b columns := by
  obtain ⟨⟨name, store⟩, active, some_⟩ := there
  obtain ⟨b, found⟩ := Option.isSome_iff_exists.mp some_
  obtain ⟨columns, -, built⟩ := reached.isLaid.contents store.place table b found
  exact ⟨b, columns, ⟨name, store, active, reached.isLaid.idle name store active, found⟩, built⟩

def answers (outcomes : List Outcome) : List (Except Failure Result) :=
  outcomes.map fun outcome => .ok (.ok outcome)

private theorem run_nil [Json.Room] (e : Engine) : (e.run []).1 = answers [] := rfl

theorem run_cons [Json.Room] {e : Engine} {text : String} {c : Command} {outcome : Outcome}
    {w : Workspace} (read : parse text = .ok c)
    (ran : Execution.execute e.workspace (.command c) = (.ok outcome, w)) {rest : List String}
    {outcomes : List Outcome}
    (later : ∀ e' : Engine, e'.workspace = w → (e'.run rest).1 = answers outcomes) :
    (e.run (text :: rest)).1 = answers (outcome :: outcomes) := by
  have answer : (e.execute text).1 = .ok (.ok outcome) := by
    simp only [execute, read, ran, conclude]
  have after : (e.execute text).2.workspace = w := by
    simp only [execute, read, ran, workspace_conclude]
  rw [run, answer, later _ after]
  rfl

section
variable {e : Engine} {table text : String} {b : Bucket} {columns : List String} {filter : Filter}
  {rest : List String} {outcomes : List Outcome} (offers : e.workspace.Offers table b)
include offers

private theorem run_select [Json.Room] (built : Built b columns)
    (read : parse text = .ok (.select table [] filter))
    (later : ∀ e' : Engine, e'.workspace.Offers table b → (e'.run rest).1 = answers outcomes) :
    (e.run (text :: rest)).1 =
      answers (.selected columns ((Rows.matching b filter).map (Rows.shown columns)) :: outcomes) :=
  run_cons read (offers.select filter built) fun e' same => later e' (same ▸ offers)

private theorem run_everything [Json.Room] (built : Built b columns)
    (read : parse text = .ok (.select table [] []))
    (later : ∀ e' : Engine, e'.workspace.Offers table b → (e'.run rest).1 = answers outcomes) :
    (e.run (text :: rest)).1 =
      answers (.selected columns ((Rows.scan b).map (Rows.shown columns)) :: outcomes) := by
  rw [← Rows.matching_nil b]
  exact run_select offers built read later

private theorem run_delete [Json.Room] (read : parse text = .ok (.delete table filter))
    (later : ∀ e' : Engine,
      e'.workspace.Offers table ((Rows.matching b filter).foldl Rows.deleteRow b) →
      (e'.run rest).1 = answers outcomes) :
    (e.run (text :: rest)).1 =
      answers (.deleted table (Rows.matching b filter).length :: outcomes) := by
  obtain ⟨w, ran, left⟩ := offers.delete filter
  exact run_cons read ran fun e' same => later e' (same ▸ left)

private theorem run_update [Json.Room] (built : Built b columns) {column value : String}
    (named : IsColumnName column) (read : parse text = .ok (.update table column value filter))
    (later : ∀ (e' : Engine) (b' : Bucket), e'.workspace.Offers table b' → Built b' columns →
      Execution.assign column value b (Rows.matching b filter) = .ok b' →
      (e'.run rest).1 = answers outcomes) :
    (e.run (text :: rest)).1 =
      answers (.updated table (Rows.matching b filter).length :: outcomes) := by
  obtain ⟨w, b', ran, left, written, after⟩ := offers.change filter built named value
  exact run_cons read ran fun e' same => later e' b' (same ▸ left) after written

end

section
variable {e : Engine} {table column value : String} {b : Bucket} {columns : List String}
  {filter : Filter} {everything selection deletion change : String}
  (offers : e.workspace.Offers table b) (built : Built b columns)
  (all : parse everything = .ok (.select table [] []))
  (selects : parse selection = .ok (.select table [] filter))
include offers built all selects

theorem run_deletion [Json.Room] (deletes : parse deletion = .ok (.delete table filter)) :
    (e.run [everything, selection, deletion, selection, everything]).1 = answers
      [.selected columns ((Rows.scan b).map (Rows.shown columns)),
        .selected columns ((Rows.matching b filter).map (Rows.shown columns)),
        .deleted table (Rows.matching b filter).length,
        .selected columns [],
        .selected columns
          (((Rows.scan b).filter fun r => !filter.holds r.cells).map (Rows.shown columns))] := by
  have left := built.delete filter
  rw [← Rows.shown_deleted columns b filter]
  refine run_everything offers built all fun e₁ offers => ?_
  refine run_select offers built selects fun e₂ offers => ?_
  refine run_delete offers deletes fun e₃ offers => ?_
  have again := run_select offers left selects fun e₄ offers =>
    run_everything offers left all fun e₅ _ => run_nil e₅
  rwa [Rows.matching_deleted b filter] at again

theorem run_change [Json.Room] (named : IsColumnName column)
    (updates : parse change = .ok (.update table column value filter)) :
    (e.run [everything, selection, change, everything]).1 = answers
      [.selected columns ((Rows.scan b).map (Rows.shown columns)),
        .selected columns ((Rows.matching b filter).map (Rows.shown columns)),
        .updated table (Rows.matching b filter).length,
        .selected columns ((Rows.scan b).map fun r => if filter.holds r.cells
          then (Rows.shown columns r).set column value else Rows.shown columns r)] := by
  refine run_everything offers built all fun e₁ offers => ?_
  refine run_select offers built selects fun e₂ offers => ?_
  refine run_update offers built named updates fun e₃ b' offers after written => ?_
  rw [← Rows.shown_assigned columns named written]
  exact run_everything offers after all fun e₄ _ => run_nil e₄

end

/-- Whatever follows WHERE, the three statements fail together or agree: on one filter, and on the
rows that it chooses. -/
theorem statements_agree [Json.Room] {table column t c : String}
    (spells : SpellsName table t.toList) (spellsColumn : SpellsName column c.toList)
    (v w : String) :
    let everything := "SELECT * FROM " ++ t
    let selection := "SELECT * FROM " ++ t ++ " WHERE " ++ w
    let deletion := "DELETE FROM " ++ t ++ " WHERE " ++ w
    let change := "UPDATE " ++ t ++ " SET " ++ c ++ " = " ++ quotedValue v ++ " WHERE " ++ w
    (∃ f g h, parse selection = .error f ∧ parse deletion = .error g ∧ parse change = .error h) ∨
    ∃ filter, parse selection = .ok (.select table [] filter) ∧
      parse deletion = .ok (.delete table filter) ∧
      parse change = .ok (.update table column v filter) ∧
      ∀ e : Engine, e.Reachable → e.HasTable table →
        ∃ (columns : List String) (rows : List (ResultRow × Bool)),
          let all := rows.map Prod.fst
          let chosen := (rows.filter Prod.snd).map Prod.fst
          let others := (rows.filter fun r => !r.2).map Prod.fst
          let changed := rows.map fun r => if r.2 then r.1.set column v else r.1
          (e.run [everything, selection, deletion, selection, everything]).1 =
            answers [.selected columns all, .selected columns chosen, .deleted table chosen.length,
              .selected columns [], .selected columns others] ∧
          (e.run [everything, selection, change, everything]).1 =
            answers [.selected columns all, .selected columns chosen, .updated table chosen.length,
              .selected columns changed] := by
  intro everything selection deletion change
  have parsed : parse everything = .ok (.select table [] []) := Statement.parse_everything spells
  rcases Statement.filters_agree spells spellsColumn v w with
    failed | ⟨filter, selects, deletes, updates⟩
  · exact .inl failed
  refine .inr ⟨filter, selects, deletes, updates, fun e reached there => ?_⟩
  obtain ⟨b, columns, offers, built⟩ := reached.offers there
  have named : IsColumnName column := spellsColumn.isColumnName
  refine ⟨columns, (Rows.scan b).map fun r => (Rows.shown columns r, filter.holds r.cells), ?_⟩
  simp only [List.filter_map, List.map_map, Function.comp_def, List.length_map]
  exact ⟨run_deletion offers built parsed selects deletes,
    run_change offers built parsed selects named updates⟩

theorem statements_agree_goods :
    let l : Location := ⟨Path.ofText "data", ".db"⟩
    let e := ((Engine.new l (.empty .memory)).run ["USE shop",
      "CREATE TABLE goods (price INT)", "INSERT INTO goods (price) VALUES (1)"]).2
    let everything := "SELECT * FROM " ++ "goods"
    let selection := "SELECT * FROM " ++ "goods" ++ " WHERE " ++ "price = 1"
    let change := "UPDATE " ++ "goods" ++ " SET " ++ "price" ++ " = " ++ quotedValue "3" ++
      " WHERE " ++ "price = 1"
    SpellsName "goods" "goods".toList ∧ SpellsName "price" "price".toList ∧ e.Reachable ∧
      e.HasTable "goods" ∧ ∃ (columns : List String) (rows : List (ResultRow × Bool)),
        let chosen := (rows.filter Prod.snd).map Prod.fst
        (e.run [everything, selection, change, everything]).1 =
          answers [.selected columns (rows.map Prod.fst), .selected columns chosen,
            .updated "goods" chosen.length,
            .selected columns (rows.map fun r => if r.2 then r.1.set "price" "3" else r.1)] := by
  intro l e everything selection change
  have spells {s : String} (bare : Token.IsBare s.toList) : SpellsName s s.toList := by
    have written := SpellsName.bare bare
    rwa [String.ofList_toList] at written
  have table : SpellsName "goods" "goods".toList := spells (by decide)
  have column : SpellsName "price" "price".toList := spells (by decide)
  have fresh : ∀ place, (Storage.empty .memory).contents place = .empty := fun _ => rfl
  have reached : e.Reachable := (Reachable.new l fresh).run _
  have there : e.HasTable "goods" := by decide +kernel
  have read : (parse selection).toOption.isSome = true := by decide +kernel
  refine ⟨table, column, reached, there, ?_⟩
  rcases statements_agree table column "3" "price = 1" with
    ⟨f, g, h, failed, -⟩ | ⟨filter, -, -, -, agree⟩
  · rw [failed] at read
    cases read
  · obtain ⟨columns, rows, -, changes⟩ := agree e reached there
    exact ⟨columns, rows, changes⟩

end Engine
end Cellstore
