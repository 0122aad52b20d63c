import Cellstore.KeyOrder

/-! Finite maps kept as ascending lists of entries.
The list has one entry per key and its keys ascend, so two maps with the same lookups have
the same list; `SortedMap.ext_get?` says so. -/
namespace Cellstore

def Ascending {κ ν : Type} [KeyOrder κ] (entries : List (κ × ν)) : Prop :=
  entries.Pairwise fun a b => KeyOrder.lt a.1 b.1 = true

structure SortedMap (κ ν : Type) [KeyOrder κ] where
  entries : List (κ × ν)
  ascending : Ascending entries

namespace SortedMap
open KeyOrder

variable {κ ν : Type} [KeyOrder κ]

/-- Puts an entry at its place, in the stead of one with the same key. -/
def insertEntry (k : κ) (v : ν) : List (κ × ν) → List (κ × ν)
  | [] => [(k, v)]
  | e :: rest =>
    if lt k e.1 then (k, v) :: e :: rest
    else if lt e.1 k then e :: insertEntry k v rest
    else (k, v) :: rest

/-- Is this the key of the entry? Two keys are the same when neither comes first. -/
def hasKey (k : κ) (e : κ × ν) : Bool := !lt k e.1 && !lt e.1 k

theorem hasKey_iff {k : κ} {e : κ × ν} : hasKey k e = true ↔ e.1 = k := by
  simp only [hasKey, Bool.and_eq_true, Bool.not_eq_true']
  constructor
  · rintro ⟨h, g⟩
    exact connected e.1 k g h
  · intro h
    subst h
    exact ⟨KeyOrder.irrefl e.1, KeyOrder.irrefl e.1⟩

theorem mem_insertEntry {k : κ} {v : ν} {entries : List (κ × ν)} {e : κ × ν}
    (h : e ∈ insertEntry k v entries) : e = (k, v) ∨ e ∈ entries := by
  induction entries with
  | nil => simpa [insertEntry] using h
  | cons d rest ih =>
    simp only [insertEntry] at h
    split at h
    · simpa using h
    · split at h
      · rcases List.mem_cons.mp h with same | later
        · exact Or.inr (by simp [same])
        · rcases ih later with new | old
          · exact Or.inl new
          · exact Or.inr (List.mem_cons_of_mem _ old)
      · rcases List.mem_cons.mp h with new | old
        · exact Or.inl new
        · exact Or.inr (List.mem_cons_of_mem _ old)

theorem ascending_insertEntry (k : κ) (v : ν) {entries : List (κ × ν)} (h : Ascending entries) :
    Ascending (insertEntry k v entries) := by
  induction entries with
  | nil => exact List.pairwise_singleton _ _
  | cons d rest ih =>
    obtain ⟨below, sorted⟩ := List.pairwise_cons.mp h
    simp only [insertEntry]
    split
    · rename_i front
      refine List.pairwise_cons.mpr ⟨fun e he => ?_, h⟩
      rcases List.mem_cons.mp he with same | later
      · subst same; exact front
      · exact trans _ _ _ front (below e later)
    · split
      · rename_i behind
        refine List.pairwise_cons.mpr ⟨fun e he => ?_, ih sorted⟩
        rcases mem_insertEntry he with new | old
        · subst new; exact behind
        · exact below e old
      · rename_i notFront notBehind
        have same : k = d.1 := connected k d.1 (by simpa using notFront) (by simpa using notBehind)
        refine List.pairwise_cons.mpr ⟨fun e he => ?_, sorted⟩
        rw [same]
        exact below e he

def empty : SortedMap κ ν := ⟨[], List.Pairwise.nil⟩

instance : Inhabited (SortedMap κ ν) := ⟨empty⟩

def get? (m : SortedMap κ ν) (k : κ) : Option ν := (m.entries.find? (hasKey k)).map (·.2)

def contains (m : SortedMap κ ν) (k : κ) : Bool := (m.get? k).isSome

def insert (m : SortedMap κ ν) (k : κ) (v : ν) : SortedMap κ ν :=
  ⟨insertEntry k v m.entries, ascending_insertEntry k v m.ascending⟩

def filter (m : SortedMap κ ν) (p : κ × ν → Bool) : SortedMap κ ν :=
  ⟨m.entries.filter p, m.ascending.sublist List.filter_sublist⟩

def erase (m : SortedMap κ ν) (k : κ) : SortedMap κ ν := m.filter fun e => !hasKey k e

def keys (m : SortedMap κ ν) : List κ := m.entries.map (·.1)

/-- Inserts the entries one after the other: of two with one key the later stays. -/
def ofList (entries : List (κ × ν)) : SortedMap κ ν :=
  entries.foldl (fun m e => m.insert e.1 e.2) empty

@[ext] theorem ext {m n : SortedMap κ ν} (h : m.entries = n.entries) : m = n := by
  cases m
  cases n
  simpa using h

@[simp] theorem get?_empty (k : κ) : (empty : SortedMap κ ν).get? k = none := rfl

theorem find?_insertEntry_self (k : κ) (v : ν) (entries : List (κ × ν)) :
    (insertEntry k v entries).find? (hasKey k) = some (k, v) := by
  induction entries with
  | nil => simp [insertEntry, hasKey, KeyOrder.irrefl]
  | cons d rest ih =>
    simp only [insertEntry]
    split
    · simp [hasKey, KeyOrder.irrefl]
    · split
      · rename_i behind
        simp [hasKey, behind, ih]
      · simp [hasKey, KeyOrder.irrefl]

theorem find?_insertEntry_of_ne {k j : κ} (v : ν) (entries : List (κ × ν)) (h : k ≠ j) :
    (insertEntry k v entries).find? (hasKey j) = entries.find? (hasKey j) := by
  have miss : hasKey j (k, v) = false := by
    cases hit : hasKey j (k, v) with
    | false => rfl
    | true => exact absurd (hasKey_iff.mp hit) h
  induction entries with
  | nil => simp [insertEntry, miss]
  | cons d rest ih =>
    simp only [insertEntry]
    split
    · rw [List.find?_cons, miss]
    · split
      · rw [List.find?_cons, List.find?_cons, ih]
      · rename_i notFront notBehind
        have same : k = d.1 := connected k d.1 (by simpa using notFront) (by simpa using notBehind)
        have missOld : hasKey j d = false := by
          cases hit : hasKey j d with
          | false => rfl
          | true => exact absurd (same.trans (hasKey_iff.mp hit)) h
        rw [List.find?_cons, List.find?_cons, miss, missOld]

@[simp] theorem get?_insert_self (m : SortedMap κ ν) (k : κ) (v : ν) :
    (m.insert k v).get? k = some v := by
  simp [get?, insert, find?_insertEntry_self]

theorem get?_insert_of_ne (m : SortedMap κ ν) {k j : κ} (v : ν) (h : k ≠ j) :
    (m.insert k v).get? j = m.get? j := by
  simp [get?, insert, find?_insertEntry_of_ne v m.entries h]

@[simp] theorem get?_erase_self (m : SortedMap κ ν) (k : κ) : (m.erase k).get? k = none := by
  simp only [get?, erase, filter, Option.map_eq_none_iff, List.find?_eq_none, List.mem_filter]
  rintro e ⟨_, kept⟩
  simpa using kept

theorem get?_erase_of_ne (m : SortedMap κ ν) {k j : κ} (h : k ≠ j) :
    (m.erase k).get? j = m.get? j := by
  have keep : (fun e : κ × ν => decide ((!hasKey k e) = true ∧ hasKey j e = true)) = hasKey j := by
    funext e
    cases hit : hasKey j e with
    | false => simp
    | true =>
      have missing : hasKey k e = false := by
        cases other : hasKey k e with
        | false => rfl
        | true => exact absurd ((hasKey_iff.mp other).symm.trans (hasKey_iff.mp hit)) h
      simp [missing]
  simp only [get?, erase, filter, List.find?_filter]
  rw [keep]

theorem ext_get? {m n : SortedMap κ ν} (h : ∀ k, m.get? k = n.get? k) : m = n := by
  obtain ⟨xs, ascXs⟩ := m
  obtain ⟨ys, ascYs⟩ := n
  apply ext
  simp only [get?] at h ⊢
  have head : ∀ {e : κ × ν} {rest : List (κ × ν)} {d : κ × ν}, Ascending (e :: rest) →
      lt d.1 e.1 = true → (e :: rest).find? (hasKey d.1) = none := by
    intro e rest d asc before
    rw [List.find?_eq_none]
    intro f hf hit
    have same : f.1 = d.1 := hasKey_iff.mp hit
    rcases List.mem_cons.mp hf with here | later
    · subst here
      exact ne_of_lt before same.symm
    · have above := (List.pairwise_cons.mp asc).1 f later
      exact ne_of_lt (trans _ _ _ before above) same.symm
  have self : ∀ (e : κ × ν) (rest : List (κ × ν)),
      (e :: rest).find? (hasKey e.1) = some e := by
    intro e rest
    simp [hasKey_iff.mpr rfl]
  induction xs generalizing ys with
  | nil =>
    cases ys with
    | nil => rfl
    | cons e rest =>
      have seen := h e.1
      rw [self] at seen
      simp at seen
  | cons d xs ih =>
    cases ys with
    | nil =>
      have seen := h d.1
      rw [self] at seen
      simp at seen
    | cons e ys =>
      have same : d.1 = e.1 := by
        apply connected
        · cases before : lt d.1 e.1 with
          | false => rfl
          | true =>
            have seen := h d.1
            rw [self, head ascYs before] at seen
            simp at seen
        · cases before : lt e.1 d.1 with
          | false => rfl
          | true =>
            have seen := h e.1
            rw [self, head ascXs before] at seen
            simp at seen
      have entry : d = e := by
        have seen := h d.1
        rw [self, same, self] at seen
        exact Prod.ext same (by simpa using seen)
      subst entry
      have tails : xs = ys := by
        apply ih (List.pairwise_cons.mp ascXs).2 ys (List.pairwise_cons.mp ascYs).2
        intro k
        cases hit : hasKey k d with
        | false =>
          have seen := h k
          simpa [List.find?_cons, hit] using seen
        | true =>
          have here : d.1 = k := hasKey_iff.mp hit
          have none : ∀ {zs : List (κ × ν)}, Ascending (d :: zs) → zs.find? (hasKey k) = none := by
            intro zs asc
            rw [List.find?_eq_none]
            intro f hf again
            have above := (List.pairwise_cons.mp asc).1 f hf
            exact ne_of_lt above (here.trans (hasKey_iff.mp again).symm)
          rw [none ascXs, none ascYs]
      rw [tails]

end SortedMap
end Cellstore
