import Mathlib.Tactic.SplitIfs
import Cellstore.Execution
import Cellstore.Proofs.Relational.Schema

/-! The rows of a table in its bucket.
One cell written to a bucket is one cell set in the table, and the keys of a row that was
read are all the keys it has. The three commands on rows are built from these two. -/
namespace Cellstore.Relational
open Text.Utf8

/-- Sets one cell, in a new row if there is none. -/
def setCell (rows : SortedMap Nat Record) (id : Nat) (column value : String) :
    SortedMap Nat Record :=
  rows.insert id (((rows.get? id).getD .empty).insert column value)

theorem get?_foldl_setCell (cells : Cells) (rows : SortedMap Nat Record) (id other : Nat) :
    (cells.foldl (fun rows c => setCell rows id c.1 c.2) rows).get? other =
      if id = other ∧ cells ≠ [] then
        some (cells.foldl (fun m c => m.insert c.1 c.2) ((rows.get? id).getD .empty))
      else rows.get? other := by
  induction cells generalizing rows with
  | nil => simp
  | cons c cells ih =>
    rw [List.foldl_cons, ih]
    by_cases here : id = other
    · subst here
      by_cases last : cells = []
      · simp [last, setCell]
      · simp [last, setCell]
    · simp only [here, false_and, if_false]
      exact SortedMap.get?_insert_of_ne _ _ here

theorem get?_foldl_assign (ids : List Nat) (rows : SortedMap Nat Record) (column value : String)
    (other : Nat) :
    (ids.foldl (fun rows id => setCell rows id column value) rows).get? other =
      if other ∈ ids then some (((rows.get? other).getD .empty).insert column value)
      else rows.get? other := by
  induction ids generalizing rows with
  | nil => simp
  | cons id ids ih =>
    rw [List.foldl_cons, ih]
    by_cases here : id = other
    · subst here
      have again (m : Record) : (m.insert column value).insert column value =
          m.insert column value := by
        apply SortedMap.ext_get?
        intro name
        simp only [SortedMap.get?_insert]
        split_ifs <;> rfl
      by_cases later : id ∈ ids <;> simp [later, setCell, again]
    · have different : other ≠ id := fun same => here same.symm
      simp only [List.mem_cons, different, false_or]
      rw [setCell, SortedMap.get?_insert_of_ne _ _ here]

private theorem map_id_eq {rows : List Row} {entries : List (Nat × Record)}
    (agrees : List.Forall₂ Agrees rows entries) : rows.map (·.id) = entries.map (·.1) := by
  induction agrees with
  | nil => rfl
  | cons head _ ih => rw [List.map_cons, List.map_cons, head.1, ih]

namespace Encodes

variable {b : Bucket} {t : Table}

theorem put_cell (h : Encodes b t) (k : CellKey) (value : String) (given : k.row ≤ t.counter) :
    Encodes (b.put k.toBytes (encode value)) { t with rows := setCell t.rows k.row k.column value } where
  counter := h.counter
  order := (h.declares.put_cell k _).order
  named := h.named
  declared := (h.declares.put_cell k _).declared
  definitions := (h.declares.put_cell k _).definitions
  cells := by
    intro j
    by_cases same : k = j
    · subst same
      simp [setCell]
    · rw [Bucket.get?_put_of_ne _ _ fun bytes => same (CellKey.toBytes_injective bytes), h.cells j]
      by_cases row : k.row = j.row
      · have column : k.column ≠ j.column := fun column => same (CellKey.ext row column)
        simp only [setCell, ← row, SortedMap.get?_insert_self, Option.bind_some,
          SortedMap.get?_insert_of_ne _ _ column]
        cases t.rows.get? k.row <;> rfl
      · rw [setCell, SortedMap.get?_insert_of_ne _ _ row]
  counted := by
    intro id row found
    rw [setCell, SortedMap.get?_insert] at found
    split_ifs at found with here
    · exact here ▸ ⟨k.positive, given⟩
    · exact h.counted id row found
  inhabited := by
    intro id row found
    rw [setCell, SortedMap.get?_insert] at found
    split_ifs at found with here
    · cases found
      exact ⟨k.column, value, SortedMap.get?_insert_self ..⟩
    · exact h.inhabited id row found
  fields := by
    intro id row found column text cell
    rw [setCell, SortedMap.get?_insert] at found
    split_ifs at found with here
    · cases found
      rw [SortedMap.get?_insert] at cell
      split_ifs at cell with set
      · exact set ▸ k.isColumnName
      · cases old : t.rows.get? k.row with
        | none => simp [old] at cell
        | some record =>
          rw [old] at cell
          exact h.fields k.row record old column text cell
    · exact h.fields id row found column text cell

theorem count (h : Encodes b t) :
    Encodes { b with sequence := t.counter + 1 } { t with counter := t.counter + 1 } where
  counter := rfl
  order := h.order
  named := h.named
  declared := h.declared
  definitions := h.definitions
  cells := h.cells
  counted := by
    intro id row found
    obtain ⟨positive, given⟩ := h.counted id row found
    exact ⟨positive, Nat.le_succ_of_le given⟩
  inhabited := h.inhabited
  fields := h.fields

theorem putCells (h : Encodes b t) {id : Nat} (positive : 0 < id) (given : id ≤ t.counter)
    {cells : Cells} (named : ∀ c ∈ cells, IsColumnName c.1) :
    ∃ b', Rows.putCells id b cells = .ok b' ∧
      Encodes b' { t with rows := cells.foldl (fun rows c => setCell rows id c.1 c.2) t.rows } := by
  induction cells generalizing b t with
  | nil => exact ⟨b, rfl, h⟩
  | cons c cells ih =>
    obtain ⟨column, value⟩ := c
    let k : CellKey := ⟨id, column, positive, named _ (List.mem_cons_self ..)⟩
    have made : CellKey.make id column = .ok k := k.make_eq
    obtain ⟨b', written, encodes⟩ :=
      ih (h.put_cell k value given) given fun c hc => named c (List.mem_cons_of_mem _ hc)
    refine ⟨b', ?_, encodes⟩
    rw [Rows.putCells, Rows.putCell, made]
    exact written

theorem insert (h : Encodes b t) {counting : Counting}
    (room : counting.next t.counter = t.counter + 1) {cells : Cells} (nonempty : cells ≠ [])
    (named : ∀ c ∈ cells, IsColumnName c.1) :
    ∃ b', Rows.putCells (b.nextSequence counting).1 (b.nextSequence counting).2 cells = .ok b' ∧
      Encodes b' (t.insert cells) := by
  have next : b.nextSequence counting =
      (((t.counter + 1 : Nat) : Int), { b with sequence := t.counter + 1 }) := by
    unfold Bucket.nextSequence
    rw [h.counter, room]
    rfl
  obtain ⟨b', written, encodes⟩ := h.count.putCells (Nat.succ_pos t.counter) (Nat.le_refl _) named
  refine ⟨b', by rw [next]; exact written, ?_⟩
  have fresh : t.rows.get? (t.counter + 1) = none := by
    cases found : t.rows.get? (t.counter + 1) with
    | none => rfl
    | some row => exact absurd (h.counted _ row found).2 (by omega)
  have rows : cells.foldl (fun rows c => setCell rows (t.counter + 1) c.1 c.2) t.rows =
      t.rows.insert (t.counter + 1) (.ofList cells) := by
    apply SortedMap.ext_get?
    intro other
    rw [get?_foldl_setCell, SortedMap.get?_insert, fresh]
    simp only [nonempty, ne_eq, not_false_eq_true, and_true]
    rfl
  rw [Table.insert, ← rows]
  exact encodes

theorem assign (h : Encodes b t) {column value : String} (named : IsColumnName column)
    {rows : List Row} (given : ∀ r ∈ rows, 0 < r.id ∧ r.id ≤ t.counter) :
    ∃ b', Execution.assign column value b rows = .ok b' ∧
      Encodes b' { t with
        rows := (rows.map (·.id)).foldl (fun rows id => setCell rows id column value) t.rows } := by
  induction rows generalizing b t with
  | nil => exact ⟨b, rfl, h⟩
  | cons r rows ih =>
    obtain ⟨positive, inside⟩ := given r (List.mem_cons_self ..)
    let k : CellKey := ⟨r.id, column, positive, named⟩
    have made : CellKey.make r.id column = .ok k := k.make_eq
    obtain ⟨b', written, encodes⟩ :=
      ih (h.put_cell k value inside) fun s hs => given s (List.mem_cons_of_mem _ hs)
    refine ⟨b', ?_, encodes⟩
    rw [Execution.assign, Rows.putCell, made]
    exact written

theorem mem_map_id_matching (h : Encodes b t) (short : CellKey.IsReadable t.counter)
    (filter : Filter) (id : Nat) : id ∈ (Rows.matching b filter).map (·.id) ↔
      ∃ row, t.rows.get? id = some row ∧ passes filter row = true := by
  rw [map_id_eq (h.matching_agrees short filter), List.mem_map]
  simp only [Table.matching, List.mem_filter]
  constructor
  · rintro ⟨e, ⟨member, passing⟩, rfl⟩
    exact ⟨e.2, SortedMap.mem_entries_iff.mp member, passing⟩
  · rintro ⟨row, found, passing⟩
    exact ⟨(id, row), ⟨SortedMap.mem_entries_iff.mpr found, passing⟩, rfl⟩

theorem update (h : Encodes b t) (short : CellKey.IsReadable t.counter) {column : String}
    (named : IsColumnName column) (value : String) (filter : Filter) :
    ∃ b', Execution.assign column value b (Rows.matching b filter) = .ok b' ∧
      Encodes b' (t.update column value filter) := by
  have member := h.mem_map_id_matching short filter
  have given : ∀ r ∈ Rows.matching b filter, 0 < r.id ∧ r.id ≤ t.counter := by
    intro r inside
    obtain ⟨row, found, _⟩ := (member r.id).mp (List.mem_map_of_mem inside)
    exact h.counted r.id row found
  obtain ⟨b', written, encodes⟩ := h.assign named given
  refine ⟨b', written, ?_⟩
  have rows : ((Rows.matching b filter).map (·.id)).foldl
      (fun rows id => setCell rows id column value) t.rows = (t.update column value filter).rows := by
    apply SortedMap.ext_get?
    intro id
    rw [get?_foldl_assign, Table.update, SortedMap.get?_mapValues]
    simp only [member id]
    cases t.rows.get? id with
    | none => simp
    | some row => by_cases passing : passes filter row = true <;> simp [passing]
  rw [show t.update column value filter = { t with rows := (t.update column value filter).rows }
    from rfl, ← rows]
  exact encodes

/-- Of a row that passes every stored cell goes, and of another row none. -/
private theorem toBytes_mem_keys_of_found (h : Encodes b t) (short : CellKey.IsReadable t.counter)
    (filter : Filter) {k : CellKey} {row : Record} (found : t.rows.get? k.row = some row) :
    k.toBytes ∈ (Rows.matching b filter).flatMap Row.keys ↔
      passes filter row = true ∧ ∃ raw, b.get? k.toBytes = some raw := by
  rw [Rows.mem_keys_matching_iff]
  constructor
  · rintro ⟨j, same, listed, _, stored⟩
    obtain ⟨other, again, passing⟩ := (h.mem_map_id_matching short filter j.row).mp listed
    rw [← CellKey.toBytes_injective same, found, Option.some.injEq] at again
    exact ⟨again ▸ passing, stored⟩
  · rintro ⟨passing, stored⟩
    have listed := (h.mem_map_id_matching short filter k.row).mpr ⟨row, found, passing⟩
    exact ⟨k, rfl, listed, h.readable short found, stored⟩

theorem delete (h : Encodes b t) (short : CellKey.IsReadable t.counter) (filter : Filter) :
    Encodes ((Rows.matching b filter).foldl Rows.deleteRow b) (t.delete filter) := by
  have gone {k : CellKey} {row : Record} (found : t.rows.get? k.row = some row) :=
    h.toBytes_mem_keys_of_found short filter found
  have keys := @Rows.mem_keys_matching_iff b filter
  rw [Rows.foldl_deleteRow]
  generalize (Rows.matching b filter).flatMap Row.keys = removed at gone keys
  have kept {key : Bytes} (other : ∀ k : CellKey, k.toBytes ≠ key) :
      (removed.foldl Bucket.delete b).get? key = b.get? key := by
    rw [Rows.get?_foldl_delete, if_neg]
    intro inside
    obtain ⟨k, same, _⟩ := keys.mp inside
    exact other k same.symm
  have rows (id : Nat) : (t.delete filter).rows.get? id =
      (t.rows.get? id).filter fun row => !passes filter row := SortedMap.get?_filter ..
  have survives {id : Nat} {row : Record} (left : (t.delete filter).rows.get? id = some row) :
      t.rows.get? id = some row := by
    rw [rows, Option.filter_eq_some_iff] at left
    exact left.1
  have declares := h.declares.of_cells fun key => kept
  refine ⟨?_, declares.order, h.named, declares.declared, declares.definitions, ?_, ?_, ?_, ?_⟩
  · rw [Rows.sequence_foldl_delete]
    exact h.counter
  · intro k
    have stored := h.cells k
    rw [Rows.get?_foldl_delete, rows]
    cases found : t.rows.get? k.row with
    | none =>
      rw [found] at stored
      simp [stored]
    | some row =>
      rw [found, Option.bind_some] at stored
      rw [Option.filter_some]
      cases passing : passes filter row with
      | false => simp [gone found, passing, stored]
      | true => cases value : row.get? k.column <;> simp [gone found, passing, stored, value]
  · exact fun id row left => h.counted id row (survives left)
  · exact fun id row left => h.inhabited id row (survives left)
  · exact fun id row left => h.fields id row (survives left)

end Encodes

end Cellstore.Relational
