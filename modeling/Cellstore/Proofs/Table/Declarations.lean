import Mathlib.Data.Set.List
import Cellstore.Proofs.Table.Damage
import Cellstore.Proofs.Table.Listing

/-! The declared columns after any history of a table.
A table may begin with definitions but without a readable order record. Its columns then come first,
in the order of their keys, and the names that are declared later follow in the order of their first
declarations. Every column has the last of its definitions, and cells never matter. An order record
with too many brackets inside each other is not passed over: such a table cannot be listed. -/
namespace Cellstore.Schema
open Text.Utf8 (encode)

/-- What some calls make of a bucket, with all definitions that they gave. Every call may find more
room than the least. A call that fails leaves the bucket as it was, so it is left out. -/
inductive History [least : Json.Room] (start : Bucket) : List ColumnDefinition → Bucket → Prop
  | start : History start [] start
  | define {given cs : List ColumnDefinition} {b b' : Bucket} (before : History start given b)
      (defined : ∃ room : Json.Room, least.brackets ≤ room.brackets ∧ @define room b cs = .ok b') :
      History start (given ++ cs) b'
  | putCell {given : List ColumnDefinition} {b b' : Bucket} {row : Int} {column value : String}
      (before : History start given b) (written : Rows.putCell b row column value = .ok b') :
      History start given b'
  | deleteRow {given : List ColumnDefinition} {b : Bucket} (before : History start given b)
      (r : Row) : History start given (Rows.deleteRow b r)

/-- No order record can be read, and the definitions are texts under column names. -/
structure IsUnrecorded [Json.Room] (b : Bucket) : Prop where
  unread : ∀ order, orderRecord b ≠ .names order
  columns : ∀ key raw, b.get? key = some raw → SchemaKey.columnMark.isPrefixOf key = true →
    ∃ c, (key, raw) = entry c

/-- The columns that some definitions make of older ones. -/
structure Declared (old given cols : List ColumnDefinition) : Prop where
  distinct : (cols.map (·.name)).Nodup
  /-- The old names stay first. The others follow in the order of their first definitions. -/
  order : cols.map (·.name) = old.map (·.name) ++
    ((given.map (·.name)).filter (· ∉ old.map (·.name))).eraseDups
  latest : ∀ c ∈ cols, (old ++ given).reverse.find? (fun d => d.name = c.name) = some c

namespace Declared

variable {old given cols : List ColumnDefinition}

theorem start (distinct : (old.map (·.name)).Nodup) : Declared old [] old where
  distinct := distinct
  order := by simp
  latest := by
    intro c inside
    rw [List.append_nil]
    refine find?_eq_some_of_unique (List.mem_reverse.mpr inside) (decide_eq_true rfl) ?_
    intro d member hit
    exact List.inj_on_of_nodup_map distinct (List.mem_reverse.mp member) inside
      (of_decide_eq_true hit)

private theorem eraseDups_concat (names : List String) (name : String) :
    (names ++ [name]).eraseDups = extended names.eraseDups name := by
  rw [List.eraseDups_append, List.removeAll, extended]
  by_cases known : name ∈ names <;> simp [known, List.eraseDups_cons]

private theorem order_extended (old given : List String) (name : String) :
    extended (old ++ (given.filter (· ∉ old)).eraseDups) name =
      old ++ ((given ++ [name]).filter (· ∉ old)).eraseDups := by
  rw [List.filter_append]
  by_cases known : name ∈ old
  · simp [known, extended]
  · have kept : [name].filter (· ∉ old) = [name] := by simp [known]
    rw [kept, eraseDups_concat]
    simp only [extended, List.mem_append, known, false_or]
    split_ifs
    · rfl
    · exact List.append_assoc ..

theorem define (h : Declared old given cols) (c : ColumnDefinition) :
    Declared old (given ++ [c]) (redefined cols c) where
  distinct := nodup_redefined h.distinct c
  order := by
    rw [map_name_redefined, h.order, order_extended, List.map_append, List.map_singleton]
  latest := by
    intro d inside
    rw [← List.append_assoc, List.reverse_append, List.reverse_singleton, List.singleton_append,
      List.find?_cons]
    rcases mem_redefined.mp inside with rfl | ⟨kept, other⟩
    · simp
    · rw [decide_eq_false other.symm]
      exact h.latest d kept

theorem foldl (h : Declared old given cols) (cs : List ColumnDefinition) :
    Declared old (given ++ cs) (cs.foldl redefined cols) := by
  induction cs generalizing given cols with
  | nil => rwa [List.append_nil]
  | cons c cs ih =>
    have next := ih (h.define c)
    rwa [List.append_assoc] at next

end Declared

theorem names_prefix_foldl (cols cs : List ColumnDefinition) :
    cols.map (·.name) <+: (cs.foldl redefined cols).map (·.name) := by
  induction cs generalizing cols with
  | nil => exact List.prefix_rfl
  | cons c cs ih =>
    refine List.IsPrefix.trans ?_ (ih _)
    rw [map_name_redefined, extended]
    split_ifs
    · exact List.prefix_rfl
    · exact List.prefix_append ..

theorem IsUnrecorded.exists_lists [Json.Room] {b : Bucket} (h : IsUnrecorded b)
    (shallow : ∀ bracket, orderRecord b ≠ .tooDeep bracket) :
    ∃ old, b.items SchemaKey.columnMark = old.map entry ∧ Lists b old := by
  have entries : b.items SchemaKey.columnMark ∈ Set.range (List.map entry) := by
    rw [Set.range_list_map]
    intro e member
    obtain ⟨found, marked⟩ := mem_items_iff.mp member
    obtain ⟨c, same⟩ := h.columns e.1 e.2 found marked
    exact ⟨c, same.symm⟩
  obtain ⟨old, items⟩ := entries
  have unordered : IsUnordered b := by
    cases record : orderRecord b with
    | absent => exact .inl record
    | unreadable => exact .inr record
    | tooDeep bracket => exact absurd record (shallow bracket)
    | names order => exact absurd record (h.unread order)
  have keys : ((old.map (·.name)).map SchemaKey.ofColumn).Nodup := by
    have ascending : (b.items SchemaKey.columnMark).Pairwise fun e d => e.1 ≠ d.1 :=
      (b.entries.ascending.filter _).imp KeyOrder.ne_of_lt
    rw [← items, List.pairwise_map] at ascending
    rw [List.map_map, List.Nodup, List.pairwise_map]
    exact ascending
  refine ⟨old, items.symm, keys.of_map _, fun e => ?_, .inr ⟨unordered, items.symm⟩⟩
  rw [← items, List.mem_map]
  exact exists_congr fun c => and_congr_right fun _ => eq_comm

theorem History.lists [Json.Room] {start b : Bucket} {old given : List ColumnDefinition}
    (h : History start given b) (lists : Lists start old) :
    ∃ cols, Lists b cols ∧ Declared old given cols := by
  induction h with
  | start => exact ⟨old, lists, .start lists.distinct⟩
  | @define given cs b b' _ defined ih =>
    obtain ⟨cols, lists, declared⟩ := ih
    obtain ⟨next, same, more⟩ := lists.define cs
    obtain rfl : b' = next := by
      obtain ⟨room, roomy, defined⟩ := defined
      rcases define_cases_of_le roomy b cs with alike | ⟨_, stopped⟩
      · exact Except.ok.inj ((alike.trans defined).symm.trans same)
      · cases stopped.symm.trans same
    exact ⟨_, more, declared.foldl cs⟩
  | putCell _ written ih =>
    obtain ⟨cols, lists, declared⟩ := ih
    exact ⟨cols, lists.putCell written, declared⟩
  | deleteRow _ r ih =>
    obtain ⟨cols, lists, declared⟩ := ih
    exact ⟨cols, lists.deleteRow r, declared⟩

/-- Whatever the history, the columns are listed in the order of their declaration, each once and
with its last definition. More definitions succeed and leave them at their places, and no change of
cells matters. -/
theorem declarations_survive_every_history [least : Json.Room] {start b : Bucket}
    {given : List ColumnDefinition} (unrecorded : IsUnrecorded start)
    (shallow : ∀ bracket, orderRecord start ≠ .tooDeep bracket)
    (history : History start given b) : ∃ old cols,
    start.items SchemaKey.columnMark = old.map entry ∧ Declared old given cols ∧
    ∀ room : Json.Room, least.brackets ≤ room.brackets → @columns room b = .ok cols ∧
      (∀ cs, ∃ b' more, @define room b cs = .ok b' ∧ @columns room b' = .ok more ∧
        cols.map (·.name) <+: more.map (·.name)) ∧
      (∀ row column value b', Rows.putCell b row column value = .ok b' →
        @columns room b' = .ok cols) ∧
      ∀ r, @columns room (Rows.deleteRow b r) = .ok cols := by
  obtain ⟨old, items, first⟩ := unrecorded.exists_lists shallow
  obtain ⟨cols, lists, declared⟩ := history.lists first
  refine ⟨old, cols, items, declared, fun room roomy => ?_⟩
  have lists := lists.of_brackets_le roomy
  refine ⟨lists.columns_eq, fun cs => ?_,
    fun row column value b' written => (lists.putCell written).columns_eq,
    fun r => (lists.deleteRow r).columns_eq⟩
  obtain ⟨b', defined, more⟩ := lists.define cs
  exact ⟨b', _, defined, more.columns_eq, names_prefix_foldl cols cs⟩

/-- Two definitions, and a record that ends before its bracket is closed. -/
def unclosed : Bucket where
  entries := .ofList [entry ⟨"b", "b", by decide⟩, entry ⟨"a", "a", by decide⟩,
    (SchemaKey.order, encode "[")]
  sequence := 0

theorem declarations_survive_every_history_unclosed : IsUnrecorded unclosed ∧
    (∀ bracket, orderRecord unclosed ≠ .tooDeep bracket) ∧
    ∃ b cols, History unclosed [⟨"c", "c", by decide⟩, ⟨"b", "b int", by decide⟩] b ∧
      columns b = .ok cols ∧ cols.map (·.name) = ["a", "b", "c"] := by
  have items : unclosed.items SchemaKey.columnMark =
      [entry ⟨"a", "a", by decide⟩, entry ⟨"b", "b", by decide⟩] := by decide +kernel
  have stored : unclosed.get? SchemaKey.order = some (encode "[") := by decide +kernel
  have refused : Json.read "[" = .error .malformed := by rfl
  have record : orderRecord unclosed = .unreadable := by
    simp only [orderRecord, stored, orderOf, Text.Utf8.decode_encode, refused]
  have unrecorded : IsUnrecorded unclosed := by
    refine ⟨fun order => by simp [record], fun key raw found marked => ?_⟩
    have member := mem_items_iff (e := (key, raw)).mpr ⟨found, marked⟩
    rw [items] at member
    rcases List.mem_pair.mp member with same | same <;> exact ⟨_, same⟩
  have shallow : ∀ bracket, orderRecord unclosed ≠ .tooDeep bracket := by simp [record]
  obtain ⟨_, _, -, -, answers⟩ := declarations_survive_every_history unrecorded shallow .start
  obtain ⟨b, -, defined, -⟩ := (answers _ (Nat.le_refl _)).2.1
    [⟨"c", "c", by decide⟩, ⟨"b", "b int", by decide⟩]
  have history := History.start.define ⟨_, Nat.le_refl _, defined⟩
  obtain ⟨old, cols, stored, declared, answers⟩ :=
    declarations_survive_every_history unrecorded shallow history
  refine ⟨unrecorded, shallow, b, cols, history, (answers _ (Nat.le_refl _)).1, ?_⟩
  have first : old = [⟨"a", "a", by decide⟩, ⟨"b", "b", by decide⟩] :=
    List.map_injective_iff.mpr entry_injective (stored.symm.trans items)
  rw [declared.order, first]
  decide

/-- A table whose order record has this many brackets inside each other. -/
def nested (n : Nat) : Bucket :=
  Bucket.empty.put SchemaKey.order (encode (String.ofList (List.replicate n '[')))

theorem orderRecord_nested [Json.Room] (n : Nat) : orderRecord (nested n) =
    if Json.Room.brackets < n then .tooDeep .array else .unreadable := by
  rw [orderRecord, nested, Bucket.get?_put_self]
  simp only [orderOf, Text.Utf8.decode_encode]
  split_ifs with deep
  · have refused := Json.read_nested deep []
    rw [List.append_nil] at refused
    rw [refused]
  · rw [Json.read_unclosed (by omega)]

theorem not_isPrefixOf_of_nested {n : Nat} {key raw : Bytes}
    (found : (nested n).get? key = some raw) :
    ¬ SchemaKey.columnMark.isPrefixOf key = true := by
  intro marked
  have elsewhere : SchemaKey.order ≠ key := by
    rintro rfl
    rw [SchemaKey.columnMark_isPrefixOf_order] at marked
    cases marked
  rw [nested, Bucket.get?_put_of_ne _ _ elsewhere] at found
  cases found

theorem isUnrecorded_nested [Json.Room] (n : Nat) : IsUnrecorded (nested n) where
  unread order := by
    rw [orderRecord_nested]
    split_ifs <;> simp
  columns _ _ found marked := absurd marked (not_isPrefixOf_of_nested found)

/-- Columns cannot be added to such a table, and those of an empty one cannot be listed. -/
theorem nested_record_is_not_passed_over : IsUnrecorded (nested 3000) ∧
    (∀ cols, columns (nested 3000) ≠ .ok cols) ∧
    ∀ cs, define (nested 3000) cs = .error (.nesting .array) := by
  have record : orderRecord (nested 3000) = .tooDeep .array := orderRecord_nested 3000
  refine ⟨isUnrecorded_nested 3000, fun cols listed => ?_, fun cs => ?_⟩
  · exact (exists_columns_iff.mp ⟨cols, listed⟩).shallow _ record
  · rw [define, currentOrder, record]

end Cellstore.Schema
