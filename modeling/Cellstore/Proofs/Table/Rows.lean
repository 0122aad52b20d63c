import Mathlib.Data.List.Forall2
import Mathlib.Tactic.SplitIfs
import Cellstore.Table.Rows
import Cellstore.Proofs.SortedMap
import Cellstore.Proofs.Table.CellKey

/-! What reading the rows of a bucket finds.
A row has the cells whose keys are in the bucket, each once: reading loses none, merges none
and makes up none, in whatever order the keys of several rows are mixed. -/
namespace Cellstore.Rows
open Text.Utf8

theorem cellOf?_eq_some_iff {e : Bytes × Bytes} {c : StoredCell} :
    cellOf? e = some c ↔ ∃ k : CellKey, k.toBytes = e.1 ∧ CellKey.IsReadable k.row ∧
      c = ⟨k.row, k.column, decodeLossy e.2⟩ := by
  unfold cellOf?
  constructor
  · intro h
    split_ifs at h with schema
    split at h
    · rename_i k read
      obtain ⟨stored, readable⟩ := CellKey.ofBytes_inv read
      exact ⟨k, stored, readable, (Option.some.inj h).symm⟩
    · cases h
  · rintro ⟨k, stored, readable, rfl⟩
    rw [← stored, CellKey.isSchema_toBytes, CellKey.ofBytes_toBytes k readable]
    rfl

theorem mem_cells_iff {b : Bucket} {c : StoredCell} :
    c ∈ cells b ↔ ∃ k : CellKey, CellKey.IsReadable k.row ∧ ∃ raw, b.get? k.toBytes = some raw ∧
      c = ⟨k.row, k.column, decodeLossy raw⟩ := by
  simp only [cells, List.mem_filterMap, cellOf?_eq_some_iff]
  constructor
  · rintro ⟨e, member, k, stored, readable, rfl⟩
    refine ⟨k, readable, e.2, ?_, rfl⟩
    rw [stored]
    exact SortedMap.mem_entries_iff.mp member
  · rintro ⟨k, readable, raw, found, rfl⟩
    exact ⟨(k.toBytes, raw), SortedMap.mem_entries_iff.mpr found, k, rfl, readable, rfl⟩

def ofRow (id : Nat) (cs : List StoredCell) : Cells :=
  (cs.filter (·.row = id)).map fun c => (c.column, c.value)

theorem get?_foldl_collect (cs : List StoredCell) (rows : SortedMap Nat Cells) (id : Nat) :
    (cs.foldl collect rows).get? id =
      if ofRow id cs = [] then rows.get? id else some ((rows.get? id).getD [] ++ ofRow id cs) := by
  induction cs generalizing rows with
  | nil => simp [ofRow]
  | cons c cs ih =>
    rw [List.foldl_cons, ih, collect, SortedMap.get?_insert]
    by_cases here : c.row = id
    · have parts : ofRow id (c :: cs) = (c.column, c.value) :: ofRow id cs := by simp [ofRow, here]
      rw [parts, if_pos here, here]
      by_cases last : ofRow id cs = [] <;> simp [last]
    · have parts : ofRow id (c :: cs) = ofRow id cs := by simp [ofRow, here]
      rw [parts, if_neg here]

def cellsOf (b : Bucket) (id : Nat) : Cells := ofRow id (cells b)

theorem mem_cellsOf_iff {b : Bucket} {id : Nat} {column value : String} :
    (column, value) ∈ cellsOf b id ↔ CellKey.IsReadable id ∧ ∃ k : CellKey, k.row = id ∧
      k.column = column ∧ ∃ raw, b.get? k.toBytes = some raw ∧ value = decodeLossy raw := by
  simp only [cellsOf, ofRow, List.mem_map, List.mem_filter, mem_cells_iff, decide_eq_true_eq,
    Prod.mk.injEq]
  constructor
  · rintro ⟨c, ⟨⟨k, readable, raw, found, rfl⟩, rfl⟩, rfl, rfl⟩
    exact ⟨readable, k, rfl, rfl, raw, found, rfl⟩
  · rintro ⟨readable, k, rfl, rfl, raw, found, rfl⟩
    exact ⟨_, ⟨⟨k, readable, raw, found, rfl⟩, rfl⟩, rfl, rfl⟩

theorem mem_scan_iff {b : Bucket} {r : Row} :
    r ∈ scan b ↔ r.cells = cellsOf b r.id ∧ cellsOf b r.id ≠ [] := by
  have found : r ∈ scan b ↔ ((cells b).foldl collect .empty).get? r.id = some r.cells := by
    rw [← SortedMap.mem_entries_iff, scan, List.mem_map]
    constructor
    · rintro ⟨e, member, rfl⟩
      exact member
    · intro member
      exact ⟨_, member, rfl⟩
  rw [found, get?_foldl_collect]
  by_cases none : ofRow r.id (cells b) = []
  · simp [cellsOf, none]
  · simp only [cellsOf, none, if_false, SortedMap.get?_empty, Option.getD_none, List.nil_append,
      Option.some.injEq, ne_eq, not_false_eq_true, and_true]
    exact eq_comm

theorem lookup_cellsOf (b : Bucket) (k : CellKey) (readable : CellKey.IsReadable k.row) :
    (cellsOf b k.row).lookup k.column = (b.get? k.toBytes).map decodeLossy := by
  have unique : ∀ value, (k.column, value) ∈ cellsOf b k.row ↔
      (b.get? k.toBytes).map decodeLossy = some value := by
    intro value
    rw [mem_cellsOf_iff]
    constructor
    · rintro ⟨_, j, row, column, raw, found, rfl⟩
      rw [← CellKey.ext row column, found]
      rfl
    · intro found
      obtain ⟨raw, stored, rfl⟩ := Option.map_eq_some_iff.mp found
      exact ⟨readable, k, rfl, rfl, raw, stored, rfl⟩
  cases hit : (cellsOf b k.row).lookup k.column with
  | some value =>
    obtain ⟨before, after, parts, _⟩ := List.lookup_eq_some_iff.mp hit
    exact ((unique value).mp (by rw [parts]; simp)).symm
  | none =>
    rw [List.lookup_eq_none_iff] at hit
    cases stored : (b.get? k.toBytes).map decodeLossy with
    | none => rfl
    | some value =>
      have absent := hit _ ((unique value).mpr stored)
      simp at absent

theorem lookup_cellsOf_eq_none {b : Bucket} {id : Nat} {column : String}
    (h : ∀ k : CellKey, k.row = id → k.column = column → ¬ CellKey.IsReadable id) :
    (cellsOf b id).lookup column = none := by
  rw [List.lookup_eq_none_iff]
  rintro ⟨name, value⟩ member
  obtain ⟨readable, k, row, named, _⟩ := mem_cellsOf_iff.mp member
  rw [bne_iff_ne]
  rintro rfl
  exact h k row named readable

theorem forall₂_of_map_eq {α β κ : Type} {R : α → β → Prop} {f : α → κ} {g : β → κ}
    {s : List α} {t : List β} (keys : s.map f = t.map g)
    (related : ∀ a ∈ s, ∀ b ∈ t, f a = g b → R a b) : List.Forall₂ R s t := by
  induction s generalizing t with
  | nil =>
    cases t with
    | nil => exact .nil
    | cons b t => simp at keys
  | cons a s ih =>
    cases t with
    | nil => simp at keys
    | cons b t =>
      simp only [List.map_cons, List.cons.injEq] at keys
      refine .cons (related a (by simp) b (by simp) keys.1) (ih keys.2 fun x hx y hy => ?_)
      exact related x (List.mem_cons_of_mem a hx) y (List.mem_cons_of_mem b hy)

theorem map_id_scan (b : Bucket) :
    (scan b).map (·.id) = ((cells b).foldl collect .empty).keys := by
  simp [scan, SortedMap.keys, Function.comp_def]

theorem scan_pairwise (b : Bucket) : ((scan b).map (·.id)).Pairwise (· < ·) := by
  rw [map_id_scan]
  exact (SortedMap.keys_pairwise _).imp fun h => of_decide_eq_true h

/-! Deleting rows. -/

theorem get?_foldl_delete (keys : List Bytes) (b : Bucket) (key : Bytes) :
    (keys.foldl Bucket.delete b).get? key = if key ∈ keys then none else b.get? key := by
  induction keys generalizing b with
  | nil => simp
  | cons first keys ih =>
    rw [List.foldl_cons, ih]
    by_cases here : first = key
    · simp [here]
    · have different : key ≠ first := fun same => here same.symm
      simp only [List.mem_cons, different, false_or]
      rw [Bucket.get?_delete_of_ne b here]

theorem sequence_foldl_delete (keys : List Bytes) (b : Bucket) :
    (keys.foldl Bucket.delete b).sequence = b.sequence := by
  induction keys generalizing b with
  | nil => rfl
  | cons first keys ih => rw [List.foldl_cons, ih, Bucket.sequence_delete]

theorem foldl_deleteRow (b : Bucket) (rows : List Row) :
    rows.foldl deleteRow b = (rows.flatMap Row.keys).foldl Bucket.delete b :=
  (List.foldl_flatMap ..).symm

theorem mem_keys_iff {b : Bucket} {r : Row} (inside : r ∈ scan b) {key : Bytes} :
    key ∈ r.keys ↔ ∃ k : CellKey, key = k.toBytes ∧ k.row = r.id ∧ CellKey.IsReadable k.row ∧
      ∃ raw, b.get? key = some raw := by
  rw [Row.keys, List.mem_filterMap, (mem_scan_iff.mp inside).1]
  constructor
  · rintro ⟨⟨column, value⟩, member, made⟩
    obtain ⟨readable, k, row, rfl, raw, found, -⟩ := mem_cellsOf_iff.mp member
    have same : CellKey.make r.id k.column = .ok k := row ▸ k.make_eq
    simp only [same, Option.some.injEq] at made
    exact ⟨k, made.symm, row, row ▸ readable, raw, made ▸ found⟩
  · rintro ⟨k, rfl, row, readable, raw, found⟩
    refine ⟨(k.column, decodeLossy raw), ?_, ?_⟩
    · exact mem_cellsOf_iff.mpr ⟨row ▸ readable, k, row, rfl, raw, found, rfl⟩
    · have same : CellKey.make r.id k.column = .ok k := row ▸ k.make_eq
      simp only [same]

theorem mem_keys_matching_iff {b : Bucket} {filter : Filter} {key : Bytes} :
    key ∈ (matching b filter).flatMap Row.keys ↔ ∃ k : CellKey, key = k.toBytes ∧
      k.row ∈ (matching b filter).map (·.id) ∧ CellKey.IsReadable k.row ∧
      ∃ raw, b.get? key = some raw := by
  have keys {r : Row} (member : r ∈ matching b filter) : key ∈ r.keys ↔ _ :=
    mem_keys_iff (List.mem_filter.mp member).1
  rw [List.mem_flatMap]
  constructor
  · rintro ⟨r, member, listed⟩
    obtain ⟨k, same, row, stored⟩ := (keys member).mp listed
    exact ⟨k, same, row ▸ List.mem_map_of_mem member, stored⟩
  · rintro ⟨k, same, listed, stored⟩
    obtain ⟨r, member, row⟩ := List.mem_map.mp listed
    exact ⟨r, member, (keys member).mpr ⟨k, same, row.symm, stored⟩⟩

end Cellstore.Rows
