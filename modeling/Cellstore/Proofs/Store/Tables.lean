import Mathlib.Tactic.SplitIfs
import Cellstore.Proofs.SortedMap
import Cellstore.Store.File

/-! Contents in two tables.
The tables of a file represent some contents when every bucket is listed with its counter and
has its entries under its name. Every change of a bucket has its counterpart on the tables,
and a range of them is read as the entries of one bucket. -/
namespace Cellstore.Store.File

structure Represents (t : Tables) (c : Contents) : Prop where
  counters : ∀ name, t.buckets.get? name = (c.get? name).map (·.sequence)
  entries : ∀ name key, t.entries.get? (name, key) = (c.get? name).bind (·.get? key)

private def range (t : Tables) (name : String) : SortedMap Bytes Bytes :=
  ⟨(t.entries.entries.filter fun e => e.1.1 == name).map fun e => (e.1.2, e.2), by
    rw [Ascending, List.pairwise_map]
    refine (t.entries.ascending.sublist List.filter_sublist).imp_of_mem ?_
    intro d e first second above
    have here : d.1.1 = name := eq_of_beq (List.mem_filter.mp first).2
    have there : e.1.1 = name := eq_of_beq (List.mem_filter.mp second).2
    have parts : (KeyOrder.lt d.1.1 e.1.1 ||
        (!KeyOrder.lt e.1.1 d.1.1 && KeyOrder.lt d.1.2 e.1.2)) = true := above
    rw [here, there, KeyOrder.irrefl] at parts
    exact parts⟩

private theorem get?_range (t : Tables) (name : String) (key : Bytes) :
    (range t name).get? key = t.entries.get? (name, key) := by
  ext value
  rw [← SortedMap.mem_entries_iff, ← SortedMap.mem_entries_iff]
  simp only [range, List.mem_map, List.mem_filter, Prod.mk.injEq, beq_iff_eq]
  constructor
  · rintro ⟨⟨⟨_, _⟩, _⟩, ⟨member, rfl⟩, rfl, rfl⟩
    exact member
  · intro member
    exact ⟨((name, key), value), ⟨member, rfl⟩, rfl, rfl⟩

private theorem range_eq_entries {t : Tables} {name : String} {b : Bucket}
    (same : ∀ key, t.get? name key = b.get? key) : range t name = b.entries := by
  apply SortedMap.ext_get?
  intro key
  rw [get?_range]
  exact same key

/-- A range of the table is read as the entries under its name that begin with `lead`. -/
private theorem scan_eq_filter (t : Tables) (name : String) (lead : Bytes) :
    t.scan name lead = (range t name).entries.filter fun e => lead.isPrefixOf e.1 := by
  have parts : (t.entries.entries.filter fun e => e.1.1 == name && !KeyOrder.lt e.1.2 lead).map
      (fun e => (e.1.2, e.2)) =
      (range t name).entries.filter fun e => !KeyOrder.lt e.1 lead := by
    rw [range, List.filter_map, List.filter_filter]
    simp only [Function.comp_def, Bool.and_comm]
  unfold Tables.scan
  simp only [parts]
  exact SortedMap.takeWhile_isPrefixOf (range t name).ascending lead

private theorem get?_contents (t : Tables) (name : String) :
    t.contents.get? name = (t.buckets.get? name).map fun n => ⟨range t name, n⟩ := by
  have whole (name : String) : SortedMap.ofList (t.scan name []) = range t name := by
    have all : (range t name).entries.filter (fun e => [].isPrefixOf e.1) = (range t name).entries :=
      List.filter_eq_self.mpr fun _ _ => rfl
    rw [scan_eq_filter, all, SortedMap.ofList_entries]
  rw [Tables.contents, SortedMap.get?_foldl_entries]
  simp only [whole]

namespace Tables

theorem scan_eq_items {t : Tables} {name : String} {b : Bucket}
    (same : ∀ key, t.get? name key = b.get? key) (lead : Bytes) : t.scan name lead = b.items lead := by
  rw [scan_eq_filter, range_eq_entries same]
  rfl

theorem sequence_of_contents (t : Tables) (name : String) :
    (t.contents.get? name).map (·.sequence) = t.buckets.get? name := by
  rw [get?_contents]
  cases t.buckets.get? name <;> rfl

theorem get?_of_contents {t : Tables} {name : String} {b : Bucket}
    (found : t.contents.get? name = some b) (key : Bytes) : b.get? key = t.get? name key := by
  rw [get?_contents] at found
  obtain ⟨n, -, rfl⟩ := Option.map_eq_some_iff.mp found
  exact get?_range t name key

end Tables

namespace Represents

variable {t : Tables} {c : Contents} {name : String}

theorem empty : Represents .empty .empty := ⟨fun _ => rfl, fun _ _ => rfl⟩

theorem contains_eq (h : Represents t c) (name : String) :
    t.buckets.contains name = c.contains name := by
  rw [SortedMap.contains, SortedMap.contains, h.counters, Option.isSome_map]

theorem keys_eq (h : Represents t c) : t.buckets.keys = c.keys := by
  refine SortedMap.eq_of_pairwise_lt t.buckets.keys_pairwise c.keys_pairwise fun name => ?_
  rw [SortedMap.mem_keys_iff, SortedMap.mem_keys_iff, ← SortedMap.contains_eq_true_iff,
    ← SortedMap.contains_eq_true_iff, h.contains_eq]

theorem get?_eq (h : Represents t c) {b : Bucket} (found : c.get? name = some b) (key : Bytes) :
    t.get? name key = b.get? key := by
  rw [Tables.get?, h.entries, found, Option.bind_some]

theorem scan_eq (h : Represents t c) {b : Bucket} (found : c.get? name = some b) (lead : Bytes) :
    t.scan name lead = b.items lead := Tables.scan_eq_items (h.get?_eq found) lead

private theorem replace {u : Tables} (h : Represents t c) (b : Bucket)
    (counters : ∀ other, u.buckets.get? other =
      if name = other then some b.sequence else t.buckets.get? other)
    (entries : ∀ other key, u.entries.get? (other, key) =
      if name = other then b.get? key else t.entries.get? (other, key)) :
    Represents u (c.insert name b) := by
  refine ⟨fun other => ?_, fun other key => ?_⟩
  · rw [counters, SortedMap.get?_insert, h.counters]
    split_ifs <;> rfl
  · rw [entries, SortedMap.get?_insert, h.entries]
    split_ifs <;> rfl

private theorem counters_of_found (h : Represents t c) {b : Bucket} (found : c.get? name = some b)
    (other : String) : t.buckets.get? other =
      if name = other then some b.sequence else t.buckets.get? other := by
  split_ifs with here
  · rw [← here, h.counters, found, Option.map_some]
  · rfl

theorem put (h : Represents t c) {b : Bucket} (found : c.get? name = some b) (key value : Bytes) :
    Represents (t.put name key value) (c.insert name (b.put key value)) := by
  have counters := h.counters_of_found found
  refine h.replace _ counters fun other k => ?_
  rw [Tables.put, SortedMap.get?_insert]
  by_cases here : name = other
  · subst here
    rw [if_pos rfl, Bucket.get?, Bucket.put, SortedMap.get?_insert, h.entries, found]
    simp
    rfl
  · simp [here]

theorem delete (h : Represents t c) {b : Bucket} (found : c.get? name = some b) (key : Bytes) :
    Represents (t.delete name key) (c.insert name (b.delete key)) := by
  have counters := h.counters_of_found found
  refine h.replace _ counters fun other k => ?_
  rw [Tables.delete, SortedMap.get?_erase]
  by_cases here : name = other
  · subst here
    rw [if_pos rfl, Bucket.get?, Bucket.delete, SortedMap.get?_erase, h.entries, found]
    simp
    rfl
  · simp [here]

theorem count (h : Represents t c) {b : Bucket} (found : c.get? name = some b) (n : Int) :
    Represents { t with buckets := t.buckets.insert name n }
      (c.insert name { b with sequence := n }) := by
  refine h.replace _ (fun other => SortedMap.get?_insert ..) fun other k => ?_
  split_ifs with here
  · rw [← here, h.entries, found]
    rfl
  · rfl

theorem create (h : Represents t c) (missing : c.get? name = none) :
    Represents (t.create name) (c.insert name .empty) := by
  have unlisted : t.buckets.contains name = false := by
    rw [h.contains_eq, SortedMap.contains, missing]
    rfl
  rw [Tables.create, unlisted, if_neg Bool.false_ne_true]
  refine h.replace _ (fun other => SortedMap.get?_insert ..) fun other k => ?_
  split_ifs with here
  · rw [← here, h.entries, missing]
    rfl
  · rfl

theorem deleteBucket (h : Represents t c) (name : String) :
    Represents (t.deleteBucket name) (c.erase name) := by
  refine ⟨fun other => ?_, fun other key => ?_⟩
  · rw [Tables.deleteBucket, SortedMap.get?_erase, SortedMap.get?_erase, h.counters]
    split_ifs <;> rfl
  · rw [Tables.deleteBucket, SortedMap.get?_filter, SortedMap.get?_erase, h.entries]
    by_cases here : name = other
    · subst here
      cases (c.get? name).bind (·.get? key) <;> simp
    · rw [if_neg here]
      cases (c.get? other).bind (·.get? key) <;> simp [Ne.symm here]

theorem contents_eq (h : Represents t c) : t.contents = c := by
  apply SortedMap.ext_get?
  intro name
  rw [get?_contents, h.counters]
  cases found : c.get? name with
  | none => rfl
  | some b =>
    rw [Option.map_some, Option.map_some, range_eq_entries (h.get?_eq found)]

private theorem foldl_put (h : Represents t c) {b : Bucket} (found : c.get? name = some b)
    (entries : List (Bytes × Bytes)) :
    Represents (entries.foldl (fun t d => t.put name d.1 d.2) t)
      (c.insert name { b with entries := entries.foldl (fun m d => m.insert d.1 d.2) b.entries }) := by
  induction entries generalizing t c b with
  | nil =>
    rw [List.foldl_nil, List.foldl_nil, SortedMap.insert_of_get? found]
    exact h
  | cons d entries ih =>
    have next := ih (h.put found d.1 d.2) (SortedMap.get?_insert_self ..)
    rw [SortedMap.insert_insert] at next
    exact next

private theorem add (h : Represents t c) (missing : c.get? name = none) (b : Bucket) :
    Represents (b.entries.entries.foldl (fun t d => t.put name d.1 d.2)
      { t with buckets := t.buckets.insert name b.sequence }) (c.insert name b) := by
  have listed : Represents { t with buckets := t.buckets.insert name b.sequence }
      (c.insert name ⟨.empty, b.sequence⟩) := by
    refine h.replace _ (fun other => SortedMap.get?_insert ..) fun other k => ?_
    split_ifs with here
    · rw [← here, h.entries, missing]
      rfl
    · rfl
  have filled := listed.foldl_put (SortedMap.get?_insert_self ..) b.entries.entries
  rw [SortedMap.insert_insert] at filled
  have same : b.entries.entries.foldl (fun m d => m.insert d.1 d.2) .empty = b.entries :=
    SortedMap.ofList_entries b.entries
  simpa only [same] using filled

private theorem foldl_add (h : Represents t c) {buckets : List (String × Bucket)}
    (distinct : buckets.Pairwise fun d e => d.1 ≠ e.1)
    (missing : ∀ e ∈ buckets, c.get? e.1 = none) :
    Represents (buckets.foldl (fun t e => e.2.entries.entries.foldl (fun t d => t.put e.1 d.1 d.2)
      { t with buckets := t.buckets.insert e.1 e.2.sequence }) t)
      (buckets.foldl (fun c e => c.insert e.1 e.2) c) := by
  induction buckets generalizing t c with
  | nil => exact h
  | cons e buckets ih =>
    obtain ⟨apart, distinct⟩ := List.pairwise_cons.mp distinct
    obtain ⟨first, missing⟩ := List.forall_mem_cons.mp missing
    refine ih (h.add first e.2) distinct fun d member => ?_
    rw [SortedMap.get?_insert_of_ne _ _ (apart d member)]
    exact missing d member

theorem ofContents (c : Contents) : Represents (.ofContents c) c := by
  have distinct : c.entries.Pairwise fun d e => d.1 ≠ e.1 := c.ascending.imp KeyOrder.ne_of_lt
  have filled := empty.foldl_add distinct fun _ _ => rfl
  have same : c.entries.foldl (fun c e => c.insert e.1 e.2) .empty = c :=
    SortedMap.ofList_entries c
  rw [same] at filled
  exact filled

end Represents
end Cellstore.Store.File
