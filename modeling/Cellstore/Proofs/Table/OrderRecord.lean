import Cellstore.Proofs.Table.Declarations
import Cellstore.Proofs.Table.Repetition

/-! What passes through the order record.
A written record gives back its names, also those that hold halves of surrogate pairs. So nothing is
lost when a sequence of definitions is cut into batches, each of which reads the record of the one
before it, whatever the first of them finds in the bucket. A definition that is read further in, where
less room is left, may fail at a record that a batch passes over. -/
namespace Cellstore.Schema
open Text.Utf8 (encode)

/-- The names in a record, if there is one that can be read and all of them are texts. -/
def recordedNames? [Json.Room] (b : Bucket) : Option (List String) :=
  match orderRecord b with
  | .names order => order.mapM fun name => (Json.textOf? name).map String.ofList
  | _ => none

theorem orderRecord_writeStrings [Json.Room] (b : Bucket) (order : List Json.Units) :
    orderRecord (b.put SchemaKey.order (encode (Json.writeStrings order))) = .names order := by
  rw [orderRecord, Bucket.get?_put_self]
  exact orderOf_writeStrings order

private theorem mapM_textOf? (names : List String) :
    ((names.map Json.units).mapM fun name => (Json.textOf? name).map String.ofList) =
      some names := by
  induction names with
  | nil => rfl
  | cons name names ih =>
    rw [List.map_cons, List.mapM_cons, ih, Json.textOf?_units, Option.map_some,
      String.ofList_toList]
    rfl

theorem recordedNames?_writeStrings [Json.Room] (b : Bucket) (names : List String) :
    recordedNames? (b.put SchemaKey.order (encode (Json.writeStrings (names.map Json.units)))) =
      some names := by
  rw [recordedNames?, orderRecord_writeStrings]
  exact mapM_textOf? names

private theorem order_foldl_defineNext (b : Bucket) (names : List String)
    (cs : List ColumnDefinition) : (cs.foldl defineNext (b, names.map Json.units)).2 =
      ((cs.map (·.name)).foldl extended names).map Json.units := by
  induction cs generalizing b names with
  | nil => rfl
  | cons c cs ih =>
    rw [List.foldl_cons, defineNext_eq]
    exact ih _ (extended names c.name)

theorem exists_define_written [Json.Room] (b : Bucket) (names : List String)
    (cs : List ColumnDefinition) :
    ∃ b', define (b.put SchemaKey.order (encode (Json.writeStrings (names.map Json.units)))) cs =
        .ok b' ∧ recordedNames? b' = some ((cs.map (·.name)).foldl extended names) := by
  refine ⟨_, define_recorded cs (b, names.map Json.units), ?_⟩
  rw [recorded, order_foldl_defineNext]
  exact recordedNames?_writeStrings _ _

theorem define_eq_map [Json.Room] (b : Bucket) (cs : List ColumnDefinition) : define b cs =
    (currentOrder b).map fun order => recorded (cs.foldl defineNext (b, order)) := by
  unfold define recorded
  cases currentOrder b <;> rfl

/-- A batch can be cut anywhere: its second part reads the record of the first. -/
theorem define_append [Json.Room] (b : Bucket) (first second : List ColumnDefinition) :
    define b (first ++ second) = define b first >>= fun b' => define b' second := by
  rw [define_eq_map, define_eq_map]
  cases currentOrder b with
  | error fault => rfl
  | ok order =>
    have later := define_recorded second (first.foldl defineNext (b, order))
    rw [← List.foldl_append] at later
    exact later.symm

theorem foldlM_define [Json.Room] (b : Bucket) (first : List ColumnDefinition)
    (batches : List (List ColumnDefinition)) :
    (first :: batches).foldlM define b = define b (first ++ batches.flatten) := by
  induction batches generalizing b first with
  | nil =>
    rw [List.flatten_nil, List.append_nil, List.foldlM_cons]
    exact bind_pure (define b first)
  | cons next batches ih =>
    rw [List.foldlM_cons, List.flatten_cons, define_append]
    exact bind_congr fun b' => ih b' next

/-- A record gives back the list of names that was written, and the names that are defined next go
to its end, each once. Columns that are defined one after the other are defined as by one call, with
the same fault or the same bucket. -/
theorem order_record_lossless [Json.Room] :
    (∀ (b : Bucket) (names : List String), recordedNames?
      (b.put SchemaKey.order (encode (Json.writeStrings (names.map Json.units)))) = some names) ∧
    (∀ (b : Bucket) (names : List String) (cs : List ColumnDefinition), ∃ b',
      define (b.put SchemaKey.order (encode (Json.writeStrings (names.map Json.units)))) cs =
        .ok b' ∧ recordedNames? b' = some ((cs.map (·.name)).foldl extended names)) ∧
    (∀ (b : Bucket) (c : ColumnDefinition) (cs : List ColumnDefinition),
      (c :: cs).foldlM (fun b c => define b [c]) b = define b (c :: cs) ∧
      Execution.declare b (c :: cs) = (define b (c :: cs)).mapError Execution.schemaFailure) := by
  refine ⟨recordedNames?_writeStrings, exists_define_written, fun b c cs => ⟨?_, declare_cons b c cs⟩⟩
  have single := foldlM_define b [c] (cs.map ([·]))
  rw [← List.map_cons (f := ([·])), List.foldlM_map, ← List.flatMap_def,
    List.flatMap_singleton'] at single
  exact single

variable {less more : Json.Room}

/-- Single definitions that are made further in come to what one batch comes to, unless the record
finds no room there. -/
theorem foldlM_define_cases_of_le (le : less.brackets ≤ more.brackets) (b : Bucket)
    (c : ColumnDefinition) (cs : List ColumnDefinition) :
    (c :: cs).foldlM (fun b c => @define less b [c]) b = @define more b (c :: cs) ∨
      ∃ bracket, (c :: cs).foldlM (fun b c => @define less b [c]) b =
        .error (.nesting bracket) := by
  rw [(@order_record_lossless less).2.2 b c cs |>.1]
  exact define_cases_of_le le b (c :: cs)

/-- One call makes the difference for a record that takes all the room there is. -/
theorem exists_define_further [Json.Room] (roomy : 1 < Json.Room.brackets) :
    ∃ b, (∀ cs, ∃ b', define b cs = .ok b') ∧
      ∀ cs, @define Json.Room.further b cs = .error (.nesting .array) := by
  refine ⟨nested Json.Room.brackets, fun cs => exists_define_iff.mpr ⟨?_, ?_⟩, fun cs => ?_⟩
  · rw [orderRecord_nested, if_neg (Nat.lt_irrefl _)]
    simp
  · exact fun _ key raw found marked => absurd marked (not_isPrefixOf_of_nested found)
  · have full : Json.Room.further.brackets < Json.Room.brackets := by
      show max 1 _ < _
      omega
    have record := @orderRecord_nested Json.Room.further Json.Room.brackets
    rw [if_pos full] at record
    unfold define currentOrder
    rw [record]

end Cellstore.Schema
