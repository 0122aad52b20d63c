import Cellstore.Proofs.Relational.Rows
import Cellstore.Proofs.Relational.Schema

/-! Databases as they are kept in stores.
The contents of a store represent a database when its buckets encode the tables of their
names. Each command has the same outcome on both, and leaves contents that represent the new
database. -/
namespace Cellstore.Relational

def Represents (c : Contents) (d : Database) : Prop :=
  ∀ table, Option.Rel Encodes (c.get? table) (d.get? table)

/-- Only an insertion gives out a row id. -/
def drawsRow : Command → Bool
  | .insert .. => true
  | _ => false

/-- No table of a database has counted further than `n`. -/
def Database.Within (d : Database) (n : Nat) : Prop :=
  ∀ table t, d.get? table = some t → t.counter ≤ n

/-- Row ids up to `n` can be read back, and a counter at `n` can go on. -/
structure Roomy (counting : Counting) (n : Nat) : Prop where
  readable : CellKey.IsReadable n
  next : ∀ k : Nat, k ≤ n → counting.next k = k + 1

/-- The same failure, or the same outcome with contents that represent the database. -/
inductive Simulates : Except Failure (Outcome × Contents) → Except Failure (Outcome × Database) →
    Prop
  | failed (failure : Failure) : Simulates (.error failure) (.error failure)
  | done (outcome : Outcome) {c : Contents} {d : Database} (h : Represents c d) :
    Simulates (.ok (outcome, c)) (.ok (outcome, d))

theorem represents_empty : Represents .empty .empty := fun _ => .none

theorem Database.within_empty (n : Nat) : Database.Within .empty n := by
  intro table t found
  cases found

namespace Database

variable {d : Database} {n : Nat}

theorem change_of_none {table : String} (absent : d.get? table = none)
    (f : Table → Outcome × Table) : d.change table f = .error (.noTable table) := by
  rw [change, absent]

theorem change_of_some {table : String} {t : Table} (kept : d.get? table = some t)
    (f : Table → Outcome × Table) :
    d.change table f = .ok ((f t).1, SortedMap.insert d table (f t).2) := by
  rw [change, kept]

theorem within_insert (h : d.Within n) {t : Table} (short : t.counter ≤ n) (table : String) :
    Within (SortedMap.insert d table t) n := by
  intro other u found
  rw [SortedMap.get?_insert] at found
  split_ifs at found
  · cases found
    exact short
  · exact h other u found

theorem within_mono {m : Nat} (h : d.Within n) (le : n ≤ m) : d.Within m :=
  fun table t found => Nat.le_trans (h table t found) le

private theorem within_change {m : Nat} (h : d.Within n) (le : n ≤ m) {table : String}
    {f : Table → Outcome × Table} (counter : ∀ t : Table, t.counter ≤ n → (f t).2.counter ≤ m)
    {outcome : Outcome} {e : Database} (run : d.change table f = .ok (outcome, e)) :
    e.Within m := by
  cases kept : d.get? table with
  | none =>
    rw [change_of_none kept] at run
    cases run
  | some t =>
    rw [change_of_some kept] at run
    cases run
    exact within_insert (within_mono h le) (counter t (h table t kept)) table

private theorem counter_foldl_declare (columns : List String) (t : Table) :
    (columns.foldl Table.declare t).counter = t.counter := by
  induction columns generalizing t with
  | nil => rfl
  | cons column columns ih => rw [List.foldl_cons, ih, Table.declare_counter]

theorem within_run (h : d.Within n) {c : Command} {outcome : Outcome} {e : Database}
    (run : d.run c = .ok (outcome, e)) : e.Within (n + (drawsRow c).toNat) := by
  cases c with
  | createDatabase => cases run
  | useDatabase => cases run
  | createTable table columns =>
    cases run
    refine within_insert h ?_ table
    rw [counter_foldl_declare]
    cases kept : d.get? table with
    | none => exact Nat.zero_le _
    | some t => exact h table t kept
  | insert => exact within_change h (Nat.le_succ n) (fun t short => Nat.succ_le_succ short) run
  | select => exact within_change h (Nat.le_refl n) (fun t short => short) run
  | update => exact within_change h (Nat.le_refl n) (fun t short => short) run
  | delete => exact within_change h (Nat.le_refl n) (fun t short => short) run
  | dropTable table =>
    rw [Database.run, Database.dropTable] at run
    split_ifs at run
    cases run
    intro other t found
    rw [SortedMap.get?_erase] at found
    split_ifs at found
    exact h other t found

end Database

namespace Represents

variable {c : Contents} {d : Database} {n : Nat}

theorem insert (h : Represents c d) {b : Bucket} {t : Table} (encodes : Encodes b t)
    (table : String) : Represents (c.insert table b) (d.insert table t) := by
  intro other
  rw [SortedMap.get?_insert, SortedMap.get?_insert]
  split_ifs
  · exact .some encodes
  · exact h other

theorem erase (h : Represents c d) (table : String) :
    Represents (c.erase table) (d.erase table) := by
  intro other
  rw [SortedMap.get?_erase, SortedMap.get?_erase]
  split_ifs
  · exact .none
  · exact h other

theorem contains_eq (h : Represents c d) (table : String) :
    c.contains table = d.contains table := by
  have related := h table
  unfold SortedMap.contains
  generalize c.get? table = stored at related
  generalize d.get? table = kept at related
  cases related <;> rfl

theorem getD (h : Represents c d) (table : String) :
    Encodes ((c.get? table).getD .empty) ((d.get? table).getD .empty) := by
  have related := h table
  generalize c.get? table = stored at related
  generalize d.get? table = kept at related
  cases related with
  | none => exact encodes_empty
  | some encodes => exact encodes

theorem createTable [Json.Room] (h : Represents c d) {table : String} (named : table ≠ "")
    (columns : List ColumnDefinition) :
    Simulates (Execution.createTable table columns c)
      (.ok (d.createTable table (columns.map (·.name)))) := by
  obtain ⟨b', declared, encodes⟩ := (h.getD table).declare columns
  rw [Execution.createTable, if_neg named, declared]
  exact .done _ (h.insert encodes table)

theorem tableOf_cases (h : Represents c d) (table : String) :
    (Execution.tableOf c table = .error (.noTable table) ∧ d.get? table = none) ∨
      ∃ b t, Execution.tableOf c table = .ok b ∧ d.get? table = some t ∧ Encodes b t := by
  have related := h table
  unfold Execution.tableOf
  cases stored : c.get? table <;> cases kept : d.get? table <;> rw [stored, kept] at related <;>
    cases related
  · exact Or.inl ⟨rfl, rfl⟩
  · rename_i b t encodes
    exact Or.inr ⟨b, t, rfl, rfl, encodes⟩

theorem insertRow (h : Represents c d) (within : d.Within n) {counting : Counting}
    (roomy : Roomy counting n) (table : String) {columns values : List String}
    (sameLength : columns.length = values.length) (nonempty : columns ≠ [])
    (named : ∀ column ∈ columns, IsColumnName column) :
    Simulates (Execution.insert counting table (columns.zip values) c)
      (d.run (.insert table columns values sameLength)) := by
  unfold Execution.insert
  rw [Database.run]
  rcases h.tableOf_cases table with ⟨missing, absent⟩ | ⟨b, t, found, kept, encodes⟩
  · rw [missing, Database.change_of_none absent]
    exact .failed _
  · have cells : columns.zip values ≠ [] := by
      simp only [ne_eq, List.zip_eq_nil_iff, nonempty, false_or]
      rintro rfl
      exact nonempty (List.length_eq_zero_iff.mp sameLength)
    obtain ⟨b', written, after⟩ := encodes.insert (roomy.next _ (within table t kept)) cells
      fun e member => named e.1 (List.of_mem_zip member).1
    rw [found, Database.change_of_some kept]
    simp only [written]
    exact .done _ (h.insert after table)

theorem updateRows (h : Represents c d) (within : d.Within n) (readable : CellKey.IsReadable n)
    (table : String) {column : String} (named : IsColumnName column) (value : String)
    (filter : Filter) :
    Simulates (Execution.update table column value filter c)
      (d.run (.update table column value filter)) := by
  unfold Execution.update
  rw [Database.run]
  rcases h.tableOf_cases table with ⟨missing, absent⟩ | ⟨b, t, found, kept, encodes⟩
  · rw [missing, Database.change_of_none absent]
    exact .failed _
  · have short : CellKey.IsReadable t.counter :=
      Nat.lt_of_le_of_lt (within table t kept) readable
    obtain ⟨b', written, after⟩ := encodes.update short named value filter
    rw [found, Database.change_of_some kept]
    simp only [written, (encodes.matching_agrees short filter).length_eq]
    exact .done _ (h.insert after table)

theorem deleteRows (h : Represents c d) (within : d.Within n) (readable : CellKey.IsReadable n)
    (table : String) (filter : Filter) :
    Simulates (Execution.delete table filter c) (d.run (.delete table filter)) := by
  unfold Execution.delete
  rw [Database.run]
  rcases h.tableOf_cases table with ⟨missing, absent⟩ | ⟨b, t, found, kept, encodes⟩
  · rw [missing, Database.change_of_none absent]
    exact .failed _
  · have short : CellKey.IsReadable t.counter :=
      Nat.lt_of_le_of_lt (within table t kept) readable
    rw [found, Database.change_of_some kept]
    simp only [(encodes.matching_agrees short filter).length_eq]
    exact .done _ (h.insert (encodes.delete short filter) table)

theorem dropTable (h : Represents c d) (table : String) :
    Simulates (Execution.dropTable table c) (d.run (.dropTable table)) := by
  rw [Execution.dropTable, Database.run, Database.dropTable, h.contains_eq table]
  split_ifs
  · exact .done _ (h.erase table)
  · exact .failed _

theorem select [Json.Room] (h : Represents c d) (within : d.Within n)
    (readable : CellKey.IsReadable n) (table : String) (columns : List String) (filter : Filter) :
    Execution.select table columns filter c =
        (d.run (.select table columns filter)).map (·.1) ∧
      ∀ outcome d', d.run (.select table columns filter) = .ok (outcome, d') → d' = d := by
  unfold Execution.select
  rw [Database.run]
  rcases h.tableOf_cases table with ⟨missing, absent⟩ | ⟨b, t, found, kept, encodes⟩
  · rw [missing, Database.change_of_none absent]
    exact ⟨rfl, by simp⟩
  · have short : CellKey.IsReadable t.counter :=
      Nat.lt_of_le_of_lt (within table t kept) readable
    have headers : (if columns.isEmpty then Schema.columnNames b else .ok columns) =
        .ok (if columns.isEmpty then t.columns else columns) := by
      rw [encodes.columnNames_eq]
      split_ifs <;> rfl
    have rows (headers : List String) :
        (Rows.matching b filter).map (fun r => (⟨headers, Row.project headers r.cells⟩ : ResultRow)) =
          (t.matching filter).map fun e =>
            ⟨headers, headers.map fun c => (SortedMap.get? e.2 c).getD ""⟩ := by
      have agrees := encodes.matching_agrees short filter
      generalize Rows.matching b filter = found at agrees
      generalize t.matching filter = kept at agrees
      induction agrees with
      | nil => rfl
      | cons head _ ih => rw [List.map_cons, List.map_cons, head.project_eq headers, ih]
    rw [found, Database.change_of_some kept]
    constructor
    · simp only [headers, rows]
      rfl
    · intro outcome d' same
      cases same
      exact SortedMap.insert_of_get? kept

end Represents

end Cellstore.Relational
