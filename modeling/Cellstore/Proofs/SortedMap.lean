import Mathlib.Data.List.Pairwise
import Mathlib.Tactic.SplitIfs
import Cellstore.SortedMap

namespace Cellstore

theorem find?_eq_some_of_unique {α : Type} {p : α → Bool} {items : List α} {a : α}
    (inside : a ∈ items) (passes : p a = true) (unique : ∀ d ∈ items, p d = true → d = a) :
    items.find? p = some a := by
  cases found : items.find? p with
  | none => exact absurd passes (List.find?_eq_none.mp found a inside)
  | some d => rw [unique d (List.mem_of_find?_eq_some found) (List.find?_some found)]

namespace SortedMap
open KeyOrder

variable {κ ν μ : Type} [KeyOrder κ]

private theorem hasKey_self (k : κ) (v : ν) : hasKey k (k, v) = true := hasKey_iff.mpr rfl

theorem eq_of_mem_entries {m : SortedMap κ ν} {e d : κ × ν} (he : e ∈ m.entries)
    (hd : d ∈ m.entries) (same : e.1 = d.1) : e = d := by
  have distinct : m.entries.Pairwise fun a b => a.1 ≠ b.1 := m.ascending.imp KeyOrder.ne_of_lt
  by_contra different
  have : Std.Symm fun a b : κ × ν => a.1 ≠ b.1 := ⟨fun _ _ h => h.symm⟩
  exact distinct.forall he hd different same

theorem mem_entries_iff {m : SortedMap κ ν} {k : κ} {v : ν} :
    (k, v) ∈ m.entries ↔ m.get? k = some v := by
  constructor
  · intro member
    have found : m.entries.find? (hasKey k) = some (k, v) :=
      find?_eq_some_of_unique member (hasKey_self k v) fun e inside hit =>
        eq_of_mem_entries inside member (hasKey_iff.mp hit)
    rw [get?, found]
    rfl
  · intro found
    simp only [get?, Option.map_eq_some_iff] at found
    obtain ⟨e, first, rfl⟩ := found
    have key : e.1 = k := hasKey_iff.mp (List.find?_some first)
    rw [← key]
    exact List.mem_of_find?_eq_some first

theorem get?_eq_none_iff {m : SortedMap κ ν} {k : κ} :
    m.get? k = none ↔ ∀ v, (k, v) ∉ m.entries := by
  simp only [mem_entries_iff]
  exact Option.eq_none_iff_forall_ne_some

theorem mem_keys_iff {m : SortedMap κ ν} {k : κ} : k ∈ m.keys ↔ ∃ v, m.get? k = some v := by
  simp only [keys, List.mem_map, ← mem_entries_iff]
  constructor
  · rintro ⟨e, member, rfl⟩
    exact ⟨e.2, member⟩
  · rintro ⟨v, member⟩
    exact ⟨(k, v), member, rfl⟩

theorem contains_eq_true_iff {m : SortedMap κ ν} {k : κ} :
    m.contains k = true ↔ ∃ v, m.get? k = some v := by
  rw [contains, Option.isSome_iff_exists]

theorem get?_insert [DecidableEq κ] (m : SortedMap κ ν) (k j : κ) (v : ν) :
    (m.insert k v).get? j = if k = j then some v else m.get? j := by
  by_cases same : k = j
  · rw [if_pos same, ← same, get?_insert_self]
  · rw [if_neg same, get?_insert_of_ne m v same]

theorem insert_of_get? [DecidableEq κ] {m : SortedMap κ ν} {k : κ} {v : ν}
    (h : m.get? k = some v) : m.insert k v = m := by
  apply ext_get?
  intro j
  rw [get?_insert]
  split_ifs with same
  · exact same ▸ h.symm
  · rfl

theorem insert_insert [DecidableEq κ] (m : SortedMap κ ν) (k : κ) (v w : ν) :
    (m.insert k v).insert k w = m.insert k w := by
  apply ext_get?
  intro j
  rw [get?_insert, get?_insert, get?_insert]
  split_ifs <;> rfl

private theorem get?_foldl_insert (f : κ × ν → μ) {entries : List (κ × ν)}
    (distinct : entries.Pairwise fun a b => a.1 ≠ b.1) (acc : SortedMap κ μ) (k : κ) :
    (entries.foldl (fun m e => m.insert e.1 (f e)) acc).get? k =
      ((entries.find? (hasKey k)).map f).or (acc.get? k) := by
  induction entries generalizing acc with
  | nil => rfl
  | cons e entries ih =>
    obtain ⟨apart, distinct⟩ := List.pairwise_cons.mp distinct
    rw [List.foldl_cons, ih distinct]
    by_cases here : e.1 = k
    · have once : entries.find? (hasKey k) = none := by
        rw [List.find?_eq_none]
        exact fun d member hit => apart d member (here.trans (hasKey_iff.mp hit).symm)
      rw [once, List.find?_cons_of_pos (hasKey_iff.mpr here), ← here, get?_insert_self]
      rfl
    · rw [List.find?_cons_of_neg fun hit => here (hasKey_iff.mp hit), get?_insert_of_ne acc _ here]

theorem get?_foldl_entries (f : κ × ν → μ) (m : SortedMap κ ν) (k : κ) :
    (m.entries.foldl (fun n e => n.insert e.1 (f e)) empty).get? k =
      (m.get? k).map fun v => f (k, v) := by
  rw [get?_foldl_insert f (m.ascending.imp KeyOrder.ne_of_lt), get?_empty, Option.or_none, get?]
  cases found : m.entries.find? (hasKey k) with
  | none => rfl
  | some e =>
    have key : e.1 = k := hasKey_iff.mp (List.find?_some found)
    rw [← key]
    rfl

theorem ofList_entries (m : SortedMap κ ν) : ofList m.entries = m := by
  apply ext_get?
  intro k
  refine (get?_foldl_entries (·.2) m k).trans ?_
  rw [Option.map_id']

theorem get?_erase [DecidableEq κ] (m : SortedMap κ ν) (k j : κ) :
    (m.erase k).get? j = if k = j then none else m.get? j := by
  by_cases same : k = j
  · rw [if_pos same, ← same, get?_erase_self]
  · rw [if_neg same, get?_erase_of_ne m same]

theorem get?_filter (m : SortedMap κ ν) (p : κ × ν → Bool) (k : κ) :
    (m.filter p).get? k = (m.get? k).filter fun v => p (k, v) := by
  ext v
  rw [← mem_entries_iff, filter, List.mem_filter, mem_entries_iff, Option.filter_eq_some_iff]

def mapValues (f : ν → μ) (m : SortedMap κ ν) : SortedMap κ μ :=
  ⟨m.entries.map fun e => (e.1, f e.2), by
    rw [Ascending, List.pairwise_map]
    exact m.ascending⟩

theorem get?_mapValues (f : ν → μ) (m : SortedMap κ ν) (k : κ) :
    (m.mapValues f).get? k = (m.get? k).map f := by
  ext v
  rw [← mem_entries_iff]
  simp only [mapValues, List.mem_map, Option.map_eq_some_iff, ← mem_entries_iff, Prod.mk.injEq]
  constructor
  · rintro ⟨e, member, rfl, rfl⟩
    exact ⟨e.2, member, rfl⟩
  · rintro ⟨w, member, rfl⟩
    exact ⟨(k, w), member, rfl, rfl⟩

theorem keys_pairwise (m : SortedMap κ ν) : m.keys.Pairwise fun a b => lt a b = true :=
  List.pairwise_map.mpr m.ascending

theorem eq_of_pairwise_lt {s t : List κ} (hs : s.Pairwise fun a b => lt a b = true)
    (ht : t.Pairwise fun a b => lt a b = true) (same : ∀ k, k ∈ s ↔ k ∈ t) : s = t := by
  have perm : s.Perm t := (List.perm_ext_iff_of_nodup (hs.imp KeyOrder.ne_of_lt)
    (ht.imp KeyOrder.ne_of_lt)).mpr same
  refine perm.eq_of_pairwise (fun a b _ _ ab ba => ?_) hs ht
  rw [asymm ab] at ba
  exact absurd ba Bool.false_ne_true

theorem lt_of_lead {α : Type} [KeyOrder α] {lead key : List α} (h : lead <+: key) :
    lt key lead = false := by
  obtain ⟨rest, rfl⟩ := h
  induction lead with
  | nil => cases rest <;> rfl
  | cons a lead ih =>
    show (lt a a || (!lt a a && listLt (lead ++ rest) lead)) = false
    rw [KeyOrder.irrefl]
    exact ih

/-- What lies between a sequence and one that continues it continues it too. -/
theorem prefix_of_between {α : Type} [KeyOrder α] {lead key later : List α}
    (low : lt key lead = false) (high : lt key later = true) (h : lead <+: later) :
    lead <+: key := by
  obtain ⟨rest, rfl⟩ := h
  induction lead generalizing key with
  | nil => exact List.nil_prefix
  | cons a lead ih =>
    cases key with
    | nil => cases low
    | cons b key =>
      simp only [lt, listLt, List.cons_append, Bool.or_eq_false_iff, Bool.and_eq_false_iff,
        Bool.not_eq_false', Bool.or_eq_true, Bool.and_eq_true, Bool.not_eq_true'] at low high
      obtain ⟨notBelow, tail⟩ := low
      rw [notBelow] at high
      obtain ⟨notAbove, between⟩ := high.resolve_left Bool.false_ne_true
      rw [notAbove] at tail
      obtain rfl := connected a b notAbove notBelow
      exact List.cons_prefix_cons.mpr ⟨rfl, ih (tail.resolve_left Bool.false_ne_true) between⟩

/-- The keys that continue `lead` are a range that starts at `lead`. -/
theorem takeWhile_isPrefixOf {entries : List (Bytes × ν)} (ascending : Ascending entries)
    (lead : Bytes) :
    (entries.filter fun e => !lt e.1 lead).takeWhile (fun e => lead.isPrefixOf e.1) =
      entries.filter fun e => lead.isPrefixOf e.1 := by
  induction entries with
  | nil => rfl
  | cons e entries ih =>
    obtain ⟨above, ascending⟩ := List.pairwise_cons.mp ascending
    cases below : lt e.1 lead with
    | true =>
      have outside : lead.isPrefixOf e.1 = false := by
        rw [← Bool.not_eq_true, List.isPrefixOf_iff_prefix]
        intro inside
        rw [lt_of_lead inside] at below
        cases below
      rw [List.filter_cons_of_neg (by simp [below]), List.filter_cons_of_neg (by simp [outside])]
      exact ih ascending
    | false =>
      rw [List.filter_cons_of_pos (by simp [below])]
      cases inside : lead.isPrefixOf e.1 with
      | true =>
        rw [List.takeWhile_cons_of_pos (by exact inside), List.filter_cons_of_pos (by exact inside),
          ih ascending]
      | false =>
        rw [List.takeWhile_cons_of_neg (by simp [inside]), eq_comm, List.filter_eq_nil_iff]
        intro d member continues
        rcases List.mem_cons.mp member with rfl | later
        · rw [inside] at continues
          cases continues
        · have between := prefix_of_between below (above d later)
            (List.isPrefixOf_iff_prefix.mp continues)
          rw [List.isPrefixOf_iff_prefix.mpr between] at inside
          cases inside

end SortedMap
end Cellstore
