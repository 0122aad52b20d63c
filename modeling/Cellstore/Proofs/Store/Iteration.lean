import Mathlib.Data.List.TakeWhile
import Cellstore.Proofs.Store.Deletion
import Cellstore.Proofs.Store.Tables

/-! Iterations over the entries of a bucket.
Either kind of store lists the entries whose keys begin with some bytes, each once and in key
order: a file by a range that ends early, a store in memory by a selection that is sorted. What an
iteration hands out is fixed when it is started, whatever becomes of the store before it ends. -/
namespace Cellstore.Store

variable {σ η : Type} {stored : List (Bytes × Bytes)} {b : Bucket} {lead : Bytes}

/-- The entries with keys that begin with `lead`, from a listing in any order, sorted as pairs. -/
def selected (stored : List (Bytes × Bytes)) (lead : Bytes) : List (Bytes × Bytes) :=
  (stored.filter fun e => lead.isPrefixOf e.1).mergeSort fun d e => !KeyOrder.lt e d

section
open KeyOrder

variable {κ : Type} [KeyOrder κ]

private theorem not_lt_trans (x y z : κ) (first : (!lt y x) = true) (second : (!lt z y) = true) :
    (!lt z x) = true := by
  rw [Bool.not_eq_true'] at first second ⊢
  cases below : lt x y with
  | true =>
    cases back : lt z x with
    | false => rfl
    | true => rw [trans z x y back below] at second; cases second
  | false => rwa [connected x y below first]

private theorem not_lt_total (x y : κ) : (!lt y x || !lt x y) = true := by
  cases below : lt x y with
  | false => exact Bool.or_true _
  | true => rw [asymm below]; rfl

private theorem ascending_mergeSort {entries : List (Bytes × Bytes)}
    (distinct : entries.Pairwise fun d e => d.1 ≠ e.1) :
    Ascending (entries.mergeSort fun d e => !lt e d) := by
  have sorted := List.pairwise_mergeSort not_lt_trans not_lt_total entries
  have apart := ((List.mergeSort_perm entries fun d e => !lt e d).pairwise_iff
    fun different => Ne.symm different).mpr distinct
  refine (sorted.and apart).imp fun {d e} ⟨least, different⟩ => ?_
  cases before : lt d.1 e.1 with
  | true => rfl
  | false =>
    have parts : (lt e.1 d.1 || (!lt d.1 e.1 && lt e.2 d.2)) = false :=
      (Bool.not_eq_true' _).mp least
    rw [Bool.or_eq_false_iff] at parts
    exact absurd (connected d.1 e.1 before parts.1) different

end

theorem items_eq_selected (order : stored.Perm b.entries.entries) :
    b.items lead = selected stored lead := by
  have perm : (b.items lead).Perm (selected stored lead) :=
    (order.symm.filter _).trans (List.mergeSort_perm ..).symm
  have distinct : stored.Pairwise fun d e => d.1 ≠ e.1 :=
    (order.pairwise_iff fun different => Ne.symm different).mpr
      (b.entries.ascending.imp KeyOrder.ne_of_lt)
  refine perm.eq_of_pairwise (fun d e _ _ before after => ?_)
    (b.entries.ascending.sublist List.filter_sublist)
    (ascending_mergeSort (distinct.sublist List.filter_sublist))
  rw [KeyOrder.asymm before] at after
  cases after

/-- An iteration: what is left of the rows that were fetched for it, and the bytes that keys have to
begin with. -/
structure Cursor where
  rows : List (Bytes × Bytes)
  lead : Bytes

namespace Cursor

/-- The next entry, until a key does not begin with `lead`. -/
def next? : Cursor → Option ((Bytes × Bytes) × Cursor)
  | ⟨[], _⟩ => none
  | ⟨e :: rows, lead⟩ => if lead.isPrefixOf e.1 then some (e, ⟨rows, lead⟩) else none

def remaining (c : Cursor) : List (Bytes × Bytes) :=
  c.rows.takeWhile fun e => c.lead.isPrefixOf e.1

theorem next?_cases (c : Cursor) : (c.next? = none ∧ c.remaining = []) ∨
    ∃ e d, c.next? = some (e, d) ∧ c.remaining = e :: d.remaining := by
  obtain ⟨rows, lead⟩ := c
  cases rows with
  | nil => exact .inl ⟨rfl, rfl⟩
  | cons e rows =>
    cases inside : lead.isPrefixOf e.1 with
    | false => exact .inl (by simp [next?, remaining, inside])
    | true => exact .inr ⟨e, ⟨rows, lead⟩, by simp [next?, remaining, inside]⟩

end Cursor

/-- The rows from `lead` on are fetched, and read up to the first key that does not begin with it. -/
def File.cursor (h : File.Handle) (lead : Bytes) (s : File.State) : Except StoreFault Cursor :=
  (File.tables h.transaction s).map fun t =>
    ⟨(t.entries.entries.filter fun e => e.1.1 == h.name && !KeyOrder.lt e.1.2 lead).map
      fun e => (e.1.2, e.2), lead⟩

/-- The entries that begin with `lead` are listed, and all of them are read. -/
def Memory.cursor (h : Memory.Handle) (lead : Bytes) (s : Memory.State) :
    Except StoreFault Cursor :=
  (Memory.content h s).map fun b => ⟨b.items lead, []⟩

/-- What happens in the course of an iteration: it is asked for an entry, or the store is used. -/
inductive Move where
  | next
  | perform (op : Operation)

namespace Move

def operation? : Move → Option Operation
  | next => none
  | perform op => some op

def turns (moves : List Move) : Nat := moves.countP (·.operation?.isNone)

def operations (moves : List Move) : List Operation := moves.filterMap operation?

/-- A loop that deletes the key of every entry that it is handed. -/
def deleting (label : String) (entries : List (Bytes × Bytes)) : List Move :=
  entries.flatMap fun e => [next, perform (.delete label e.1)]

theorem turns_next (moves : List Move) : turns (next :: moves) = turns moves + 1 :=
  List.countP_cons_of_pos rfl

theorem turns_deleting (label : String) (entries : List (Bytes × Bytes)) :
    turns (deleting label entries) = entries.length := by
  induction entries with
  | nil => rfl
  | cons e entries ih => exact (turns_next _).trans (congrArg (· + 1) ih)

theorem operations_deleting (label : String) (entries : List (Bytes × Bytes)) :
    operations (deleting label entries) = (entries.map (·.1)).map (.delete label) := by
  induction entries with
  | nil => rfl
  | cons e entries ih => exact congrArg (.delete label e.1 :: ·) ih

end Move

section
variable (a : Adapter σ η)

/-- What an iteration hands out in the course of some moves, and the store after them. -/
def iterate (c : Cursor) (s : Labelled σ η) :
    List Move → List (Option (Bytes × Bytes)) × Labelled σ η
  | [] => ([], s)
  | .next :: moves => match c.next? with
    | some (e, c) =>
      let (entries, s) := iterate c s moves
      (some e :: entries, s)
    | none =>
      let (entries, s) := iterate c s moves
      (none :: entries, s)
  | .perform op :: moves => iterate c (perform a s op).2 moves

/-- The entries come from the cursor alone, and the store from the operations alone. -/
theorem iterate_eq (c : Cursor) (s : Labelled σ η) (moves : List Move) :
    iterate a c s moves = ((List.range (Move.turns moves)).map (c.remaining[·]?),
      after a s (Move.operations moves)) := by
  induction moves generalizing c s with
  | nil => rfl
  | cons move moves ih =>
    cases move with
    | perform op => exact ih c (perform a s op).2
    | next =>
      have rest : Move.operations (.next :: moves) = Move.operations moves := rfl
      rw [Move.turns_next, rest, List.range_succ_eq_map, List.map_cons, List.map_map]
      obtain ⟨ended, none⟩ | ⟨e, d, handed, entries⟩ := c.next?_cases
      · simp only [iterate, ended, ih, none]
        rfl
      · simp only [iterate, handed, ih, entries]
        rfl

end

theorem after_deletes {a : Adapter σ η} {s : Labelled σ η} {label : String} {h : η}
    {keys : List Bytes} {store : σ} (given : s.handle? label = some h)
    (deleted : deleteAll a h keys s.store = .ok store) :
    after a s (keys.map (.delete label)) = s.withStore store := by
  induction keys generalizing s with
  | nil =>
    cases deleted
    rfl
  | cons key keys ih =>
    rw [deleteAll] at deleted
    cases one : a.delete h key s.store with
    | error fault =>
      rw [one] at deleted
      cases deleted
    | ok next =>
      rw [one] at deleted
      have performed : perform a s (.delete label key) = (.ok .done, s.withStore next) := by
        simp only [perform, attempt, onHandle, given, one]
        rfl
      rw [List.map_cons, after, performed]
      exact ih (s := s.withStore next) given deleted

/-- A loop that deletes each key as it is handed out does what is done when all entries are listed
before the first deletion. -/
theorem iterate_deleting {a : Adapter σ η} {c : Cursor} {s s' : Labelled σ η} {label : String}
    {h : η} (given : s.handle? label = some h) (read : a.items h lead s.store = .ok c.remaining)
    (done : perform a s (.itemsDeleting label lead) = (.ok (.entries c.remaining), s')) :
    iterate a c s (Move.deleting label c.remaining) = (c.remaining.map some, s') := by
  have all : (List.range c.remaining.length).map (c.remaining[·]?) = c.remaining.map some := by
    apply List.ext_getElem?
    intro i
    by_cases inside : i < c.remaining.length <;> simp [inside]
  obtain ⟨store, deleted, rfl⟩ : ∃ store,
      deleteAll a h (c.remaining.map (·.1)) s.store = .ok store ∧ s.withStore store = s' := by
    simp only [perform, attempt, onHandle, given, read] at done
    cases deleted : deleteAll a h (c.remaining.map (·.1)) s.store with
    | error fault =>
      simp only [bind, Except.bind, deleted] at done
      cases done
    | ok store =>
      simp only [bind, Except.bind, deleted] at done
      exact ⟨store, rfl, (Prod.ext_iff.mp done).2⟩
  rw [iterate_eq, Move.turns_deleting, Move.operations_deleting, all, after_deletes given deleted]

/-- The handle with this label can be read, and these are the entries of its bucket. -/
def Holds (a : Adapter σ η) (s : Labelled σ η) (label : String) (b : Bucket) : Prop :=
  ∃ h, s.handle? label = some h ∧ ∀ key, a.get h key s.store = .ok (b.get? key)

/-- The entries are listed for a handle. An iteration that is started on it hands out just these,
one after the other, whatever operations come between, and then ends. -/
structure Iterates (a : Adapter σ η) (cursor : η → Bytes → σ → Except StoreFault Cursor)
    (s : Labelled σ η) (label : String) (lead : Bytes) (entries : List (Bytes × Bytes)) : Prop where
  listed : perform a s (.items label lead) = (.ok (.entries entries), s)
  handedOut : ∃ h c, s.handle? label = some h ∧ cursor h lead s.store = .ok c ∧ ∀ moves,
    iterate a c s moves = ((List.range (Move.turns moves)).map (entries[·]?),
      after a s (Move.operations moves))

private theorem Iterates.of_cursor {a : Adapter σ η}
    {cursor : η → Bytes → σ → Except StoreFault Cursor} {s : Labelled σ η} {label : String} {h : η}
    {c : Cursor} (given : s.handle? label = some h) (started : cursor h lead s.store = .ok c)
    (read : a.items h lead s.store = .ok c.remaining) :
    Iterates a cursor s label lead c.remaining := by
  refine ⟨?_, h, c, given, started, iterate_eq a c s⟩
  simp only [perform, attempt, onHandle, given, read]
  rfl

theorem Holds.file {s : Labelled File.State File.Handle} {label : String}
    (holds : Holds fileAdapter s label b) (lead : Bytes) :
    Iterates fileAdapter File.cursor s label lead (b.items lead) := by
  obtain ⟨h, given, found⟩ := holds
  obtain ⟨t, readable, -⟩ := map_eq_ok_iff.mp (found [])
  have same (key : Bytes) : t.get? h.name key = b.get? key := by
    obtain ⟨u, again, value⟩ := map_eq_ok_iff.mp (found key)
    obtain rfl : t = u := Except.ok.inj (readable.symm.trans again)
    exact value
  have read : File.items h lead s.store = .ok (t.scan h.name lead) := by
    rw [File.items, readable]
    rfl
  rw [← File.Tables.scan_eq_items same lead]
  refine .of_cursor (h := h) (c := ⟨_, lead⟩) given ?_ read
  rw [File.cursor, readable]
  rfl

theorem Holds.memory {s : Labelled Memory.State Memory.Handle} {label : String}
    (holds : Holds memoryAdapter s label b) (lead : Bytes) :
    Iterates memoryAdapter Memory.cursor s label lead (b.items lead) := by
  obtain ⟨h, given, found⟩ := holds
  obtain ⟨d, readable, -⟩ := map_eq_ok_iff.mp (found [])
  have same : d.entries = b.entries := by
    apply SortedMap.ext_get?
    intro key
    obtain ⟨u, again, value⟩ := map_eq_ok_iff.mp (found key)
    obtain rfl : d = u := Except.ok.inj (readable.symm.trans again)
    exact value
  have items : b.items lead = d.items lead := by
    rw [Bucket.items, Bucket.items, same]
  have whole : Cursor.remaining ⟨d.items lead, []⟩ = d.items lead :=
    by
    rw [Cursor.remaining, List.takeWhile_eq_self_iff]
    exact fun _ _ => rfl
  have read : Memory.items h lead s.store = .ok (Cursor.remaining ⟨d.items lead, []⟩) := by
    rw [Memory.items, readable, whole]
    rfl
  rw [items, ← whole]
  refine .of_cursor given ?_ read
  rw [Memory.cursor, readable]
  rfl

/-- Both kinds of stores list the entries with keys that begin with `lead`, each once and in key
order, and hand out this list as it was at the start. -/
theorem items_snapshot (order : stored.Perm b.entries.entries) (lead : Bytes) :
    Ascending (selected stored lead) ∧
    (∀ e, e ∈ selected stored lead ↔ e ∈ stored ∧ lead <+: e.1) ∧
    (∀ s label, Holds fileAdapter s label b →
      Iterates fileAdapter File.cursor s label lead (selected stored lead)) ∧
    (∀ s label, Holds memoryAdapter s label b →
      Iterates memoryAdapter Memory.cursor s label lead (selected stored lead)) := by
  have items : b.items lead = selected stored lead := items_eq_selected order
  refine ⟨?_, fun e => ?_, fun s label holds => ?_, fun s label holds => ?_⟩
  · rw [← items]
    exact b.entries.ascending.sublist List.filter_sublist
  · rw [selected, (List.mergeSort_perm ..).mem_iff, List.mem_filter, List.isPrefixOf_iff_prefix]
  · rw [← items]
    exact holds.file lead
  · rw [← items]
    exact holds.memory lead

/-- Among the keys are some that begin with the largest byte, one of them the bytes looked for. -/
theorem items_snapshot_largest_bytes :
    let start : List Operation := [.begin true "t", .create "t" "b" "x", .put "b" [255, 255] [1],
      .put "b" [255] [2], .put "b" [255, 0] [3], .put "b" [7] []]
    let file := after fileAdapter (.ofStore (File.open_ "shelf")) start
    let memory := after memoryAdapter (.ofStore (Memory.open_ "shelf")) start
    let entries : List (Bytes × Bytes) := [([255], [2]), ([255, 0], [3]), ([255, 255], [1])]
    Iterates fileAdapter File.cursor file "b" [255] entries ∧
      Iterates memoryAdapter Memory.cursor memory "b" [255] entries := by
  intro start file memory entries
  let stored : List (Bytes × Bytes) := [([255, 255], [1]), ([255], [2]), ([255, 0], [3]), ([7], [])]
  let b : Bucket := stored.foldl (fun b e => b.put e.1 e.2) .empty
  have order : stored.Perm b.entries.entries := by decide
  have sorted : selected stored [255] = entries := (items_eq_selected order).symm.trans (by decide)
  obtain ⟨-, -, listed, held⟩ := items_snapshot order [255]
  rw [sorted] at listed held
  have put {t : File.Tables} {c : Bucket} (same : File.Represents t (.insert .empty "x" c))
      (key value : Bytes) :
      File.Represents (t.put "x" key value) (.insert .empty "x" (c.put key value)) :=
    SortedMap.insert_insert .empty "x" c (c.put key value) ▸
      same.put (SortedMap.get?_insert_self ..) key value
  have created : File.Represents (File.Tables.empty.create "x") (.insert .empty "x" .empty) :=
    File.Represents.empty.create rfl
  have same := put (put (put (put created [255, 255] [1]) [255] [2]) [255, 0] [3]) [7] []
  exact ⟨listed file "b" ⟨⟨0, "x"⟩, rfl, fun key =>
      congrArg Except.ok (same.get?_eq (SortedMap.get?_insert_self ..) key)⟩,
    held memory "b" ⟨⟨0, "x", .number 0⟩, rfl, fun key => rfl⟩⟩

end Cellstore.Store
