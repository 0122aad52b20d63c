import Cellstore.Proofs.Agreement
import Cellstore.Proofs.Table.Frame

/-! Changes of a table that are made twice.
Several columns are declared one after the other, which comes to declaring them at once: the first
declaration reads the order, and each later one reads what the one before it wrote. When they are
declared again, the last definition of every name is there already and no name is new. An assignment
may change which rows pass its own filter, but only rows that passed it before. -/
namespace Cellstore
open Text.Utf8 (encode)

/-! Declarations. -/

namespace Schema

variable {b b' : Bucket} {cs : List ColumnDefinition} {state : Bucket × List Json.Units}

def recorded (state : Bucket × List Json.Units) : Bucket :=
  state.1.put SchemaKey.order (encode (Json.writeStrings state.2))

theorem get?_recorded_order (state : Bucket × List Json.Units) :
    (recorded state).get? SchemaKey.order = some (encode (Json.writeStrings state.2)) :=
  Bucket.get?_put_self ..

theorem get?_recorded_of_ne (state : Bucket × List Json.Units) {key : Bytes}
    (other : SchemaKey.order ≠ key) : (recorded state).get? key = state.1.get? key :=
  Bucket.get?_put_of_ne _ _ other

theorem currentOrder_recorded [Json.Room] (state : Bucket × List Json.Units) :
    currentOrder (recorded state) = .ok state.2 := by
  rw [currentOrder, orderRecord, get?_recorded_order]
  dsimp only
  rw [orderOf_writeStrings]

theorem define_eq_ok_iff [Json.Room] : define b cs = .ok b' ↔
    ∃ order, currentOrder b = .ok order ∧ recorded (cs.foldl defineNext (b, order)) = b' := by
  unfold define recorded
  cases currentOrder b <;> simp

/-- What stands under a key: the last definition of its column, or what stood there before. -/
theorem get?_foldl_defineNext (cs : List ColumnDefinition) (state : Bucket × List Json.Units)
    (key : Bytes) : (cs.foldl defineNext state).1.get? key =
    ((cs.reverse.find? fun c => SchemaKey.ofColumn c.name = key).map fun c =>
      encode c.definition).or (state.1.get? key) := by
  induction cs generalizing state with
  | nil => rfl
  | cons c cs ih =>
    rw [List.foldl_cons, ih, List.reverse_cons, List.find?_append]
    cases cs.reverse.find? fun c => decide (SchemaKey.ofColumn c.name = key) with
    | some d => rfl
    | none =>
      by_cases here : SchemaKey.ofColumn c.name = key
      · simp [defineNext, here]
      · simp [defineNext, here, Bucket.get?_put_of_ne _ _ here]

theorem sequence_foldl_defineNext (cs : List ColumnDefinition)
    (state : Bucket × List Json.Units) :
    (cs.foldl defineNext state).1.sequence = state.1.sequence := by
  induction cs generalizing state with
  | nil => rfl
  | cons c cs ih => rw [List.foldl_cons, ih, defineNext, Bucket.sequence_put]

theorem mem_order_foldl {name : Json.Units} : name ∈ (cs.foldl defineNext state).2 ↔
    name ∈ state.2 ∨ ∃ c ∈ cs, Json.units c.name = name := by
  induction cs generalizing state with
  | nil => simp
  | cons c cs ih =>
    have first : name ∈ (defineNext state c).2 ↔ name ∈ state.2 ∨ Json.units c.name = name := by
      unfold defineNext
      dsimp only
      split_ifs with known
      · constructor
        · exact .inl
        · rintro (old | rfl)
          · exact old
          · exact known
      · simp [eq_comm]
    rw [List.foldl_cons, ih, first, or_assoc, List.exists_mem_cons_iff]

theorem order_foldl_of_known (known : ∀ c ∈ cs, Json.units c.name ∈ state.2) :
    (cs.foldl defineNext state).2 = state.2 := by
  induction cs generalizing state with
  | nil => rfl
  | cons c cs ih =>
    obtain ⟨here, others⟩ := List.forall_mem_cons.mp known
    have first : (defineNext state c).2 = state.2 := if_pos here
    rw [List.foldl_cons, ih (by rwa [first]), first]

theorem foldl_defineNext_again (cs : List ColumnDefinition) (state : Bucket × List Json.Units) :
    cs.foldl defineNext (cs.foldl defineNext state) = cs.foldl defineNext state := by
  apply Prod.ext
  · refine Bucket.ext_get? (fun key => ?_) ?_
    · rw [get?_foldl_defineNext, get?_foldl_defineNext]
      cases cs.reverse.find? fun c => decide (SchemaKey.ofColumn c.name = key) <;> rfl
    · exact sequence_foldl_defineNext ..
  · exact order_foldl_of_known fun c inside => mem_order_foldl.mpr (.inr ⟨c, inside, rfl⟩)

theorem order_foldl_congr (cs : List ColumnDefinition) (b b' : Bucket) (order : List Json.Units) :
    (cs.foldl defineNext (b, order)).2 = (cs.foldl defineNext (b', order)).2 := by
  induction cs generalizing b b' order with
  | nil => rfl
  | cons c cs ih => exact ih ..

theorem recorded_foldl_recorded (cs : List ColumnDefinition) (state : Bucket × List Json.Units) :
    recorded (cs.foldl defineNext (recorded state, state.2)) = recorded (cs.foldl defineNext state) := by
  refine Bucket.ext_get? (fun key => ?_) ?_
  · by_cases here : SchemaKey.order = key
    · subst here
      rw [get?_recorded_order, get?_recorded_order, order_foldl_congr]
    · rw [get?_recorded_of_ne _ here, get?_recorded_of_ne _ here, get?_foldl_defineNext,
        get?_foldl_defineNext, get?_recorded_of_ne _ here]
  · show (cs.foldl defineNext (recorded state, state.2)).1.sequence =
      (cs.foldl defineNext state).1.sequence
    rw [sequence_foldl_defineNext, sequence_foldl_defineNext]
    rfl

theorem define_recorded [Json.Room] (cs : List ColumnDefinition)
    (state : Bucket × List Json.Units) :
    define (recorded state) cs = .ok (recorded (cs.foldl defineNext state)) :=
  define_eq_ok_iff.mpr ⟨state.2, currentOrder_recorded state, recorded_foldl_recorded cs state⟩

theorem declare_recorded [Json.Room] (cs : List ColumnDefinition)
    (state : Bucket × List Json.Units) :
    Execution.declare (recorded state) cs = .ok (recorded (cs.foldl defineNext state)) := by
  induction cs generalizing state with
  | nil => rfl
  | cons c cs ih =>
    rw [Execution.declare, define_recorded]
    exact ih _

theorem declare_cons [Json.Room] (b : Bucket) (c : ColumnDefinition) (cs : List ColumnDefinition) :
    Execution.declare b (c :: cs) = (define b (c :: cs)).mapError Execution.schemaFailure := by
  unfold Execution.declare define
  cases currentOrder b with
  | error fault => rfl
  | ok order => exact declare_recorded cs (defineNext (b, order) c)

theorem declare_again [Json.Room] (declared : Execution.declare b cs = .ok b') :
    Execution.declare b' cs = .ok b' := by
  cases cs with
  | nil => rfl
  | cons c cs =>
    rw [declare_cons] at declared
    cases defined : define b (c :: cs) with
    | error fault => simp [defined, Except.mapError] at declared
    | ok next =>
      rw [defined] at declared
      cases declared
      obtain ⟨order, -, rfl⟩ := define_eq_ok_iff.mp defined
      rw [declare_recorded, foldl_defineNext_again]

end Schema

/-! Assignments. -/

namespace Rows

variable {b b' : Bucket} {filter : Filter} {column value : String}

theorem mem_matching_of_assigned {id : Nat}
    (written : Execution.assign column value b (matching b filter) = .ok b')
    (passes : id ∈ (matching b' filter).map (·.id)) : id ∈ (matching b filter).map (·.id) := by
  by_contra left
  have cells : cellsOf b' id = cellsOf b id := by
    refine cellsOf_congr fun name raw => and_congr_right fun cell => ?_
    rw [← cell.toBytes_toKey, get?_assigned written, if_neg]
    exact fun set => left set.1
  rw [mem_map_id_matching, cells] at passes
  exact left (mem_map_id_matching.mpr passes)

theorem isColumnName_of_assign {r : Row} {rows : List Row}
    (written : Execution.assign column value b (r :: rows) = .ok b') : IsColumnName column := by
  unfold Execution.assign putCell at written
  cases made : CellKey.make r.id column with
  | error fault => simp [made] at written
  | ok k => exact (CellKey.make_inv made).2 ▸ k.isColumnName

theorem assign_again (written : Execution.assign column value b (matching b filter) = .ok b') :
    Execution.assign column value b' (matching b' filter) = .ok b' := by
  cases rows : matching b filter with
  | nil =>
    -- Nothing was written, so the second assignment is the first one.
    have unchanged : b = b' := by
      rw [rows] at written
      exact Except.ok.inj written
    rwa [← unchanged] at written ⊢
  | cons r rest =>
    have named : IsColumnName column := isColumnName_of_assign (rows ▸ written)
    have positive : ∀ r ∈ matching b' filter, 0 < r.id := fun r inside => pos_of_mem_matching inside
    obtain ⟨b'', again⟩ : ∃ b'', Execution.assign column value b' (matching b' filter) = .ok b'' :=
      exists_assign named positive b'
    rw [again]
    refine congrArg Except.ok (Bucket.ext_get? (fun key => ?_) (AddsNoRow.assign again).sequence)
    by_cases cell : ∃ k : CellKey, k.toBytes = key
    · obtain ⟨k, rfl⟩ := cell
      rw [get?_assigned again]
      split_ifs with set
      · rw [get?_assigned written, if_pos ⟨mem_matching_of_assigned written set.1, set.2⟩]
      · rfl
    · exact (KeepsSchema.assign again).foreign key (not_exists.mp cell)

end Rows
end Cellstore
