import Mathlib.Tactic.SplitIfs
import Cellstore.Bucket
import Cellstore.Proofs.SortedMap

/-! What is kept under the names of buckets.
A ledger says for every name what counter and what entries are kept under it. It is the same for both
kinds of stores, so that the writes of a block can be told without a look inside. -/
namespace Cellstore.Store

/-- Counters and entries by the names of their buckets. A bucket without a counter is not listed. -/
@[ext]
structure Ledger where
  counters : String → Option Int
  entries : String → Bytes → Option Bytes

namespace Ledger

def ofContents (c : Contents) : Ledger where
  counters name := (c.get? name).map (·.sequence)
  entries name key := (c.get? name).bind (·.get? key)

/-- These contents are exactly the listed buckets. -/
structure Lists (l : Ledger) (c : Contents) : Prop where
  counters : ∀ name, (c.get? name).map (·.sequence) = l.counters name
  entries : ∀ name b, c.get? name = some b → ∀ key, b.get? key = l.entries name key

def count (name : String) (n : Int) (l : Ledger) : Ledger :=
  { l with counters := fun other => if name = other then some n else l.counters other }

/-- A bucket that is listed already keeps its counter. -/
def create (name : String) (l : Ledger) : Ledger := l.count name ((l.counters name).getD 0)

def deleteBucket (name : String) (l : Ledger) : Ledger where
  counters other := if name = other then none else l.counters other
  entries other key := if name = other then none else l.entries other key

def set (name : String) (key : Bytes) (value : Option Bytes) (l : Ledger) : Ledger :=
  { l with entries := fun other k => if name = other ∧ key = k then value else l.entries other k }

/-- Changes what is kept under a name, if there is one. -/
def on (name : Option String) (f : String → Ledger → Ledger) (l : Ledger) : Ledger :=
  name.elim l fun name => f name l

theorem lists_ofContents (c : Contents) : (ofContents c).Lists c where
  counters _ := rfl
  entries name b found key := by
    show _ = (c.get? name).bind _
    rw [found]
    rfl

variable {c : Contents} {name : String} {b : Bucket}

theorem create_of_listed {l : Ledger} {n : Int} (listed : l.counters name = some n) :
    l.create name = l := by
  unfold create count
  rw [listed]
  ext1
  · funext other
    dsimp only
    split_ifs with here
    · rw [← here, listed]
      rfl
    · rfl
  · rfl

theorem set_of_same {l : Ledger} {key : Bytes} {value : Option Bytes}
    (same : l.entries name key = value) : l.set name key value = l := by
  ext1
  · rfl
  · funext other k
    show (if name = other ∧ key = k then value else l.entries other k) = l.entries other k
    split_ifs with here
    · rw [← here.1, ← here.2, same]
    · rfl

private theorem eq_ofContents_insert {l : Ledger} (b : Bucket)
    (counters : ∀ other, l.counters other =
      if name = other then some b.sequence else (ofContents c).counters other)
    (entries : ∀ other key, l.entries other key =
      if name = other then b.get? key else (ofContents c).entries other key) :
    l = ofContents (c.insert name b) := by
  ext1
  · funext other
    rw [counters]
    show _ = ((c.insert name b).get? other).map _
    rw [SortedMap.get?_insert]
    split_ifs <;> rfl
  · funext other key
    rw [entries]
    show _ = ((c.insert name b).get? other).bind _
    rw [SortedMap.get?_insert]
    split_ifs <;> rfl

theorem create_ofContents (missing : c.get? name = none) :
    (ofContents c).create name = ofContents (c.insert name .empty) := by
  apply eq_ofContents_insert
  · intro other
    show (if name = other then some (((c.get? name).map _).getD 0) else _) = _
    rw [missing]
    rfl
  · intro other key
    split_ifs with here
    · show (c.get? other).bind _ = _
      rw [← here, missing]
      rfl
    · rfl

theorem deleteBucket_ofContents (c : Contents) (name : String) :
    (ofContents c).deleteBucket name = ofContents (c.erase name) := by
  ext1
  · funext other
    show _ = ((c.erase name).get? other).map _
    rw [SortedMap.get?_erase]
    show (if name = other then _ else _) = _
    split_ifs <;> rfl
  · funext other key
    show _ = ((c.erase name).get? other).bind _
    rw [SortedMap.get?_erase]
    show (if name = other then _ else _) = _
    split_ifs <;> rfl

theorem count_ofContents (found : c.get? name = some b) (n : Int) :
    (ofContents c).count name n = ofContents (c.insert name { b with sequence := n }) := by
  apply eq_ofContents_insert
  · exact fun _ => rfl
  · intro other key
    split_ifs with here
    · show (c.get? other).bind _ = _
      rw [← here, found]
      rfl
    · rfl

private theorem set_ofContents (found : c.get? name = some b) {key : Bytes} {value : Option Bytes}
    {d : Bucket} (sequence : d.sequence = b.sequence)
    (entries : ∀ k, d.get? k = if key = k then value else b.get? k) :
    (ofContents c).set name key value = ofContents (c.insert name d) := by
  apply eq_ofContents_insert
  · intro other
    split_ifs with here
    · show (c.get? other).map _ = _
      rw [← here, found, sequence]
      rfl
    · rfl
  · intro other k
    rw [entries]
    show (if name = other ∧ key = k then value else (c.get? other).bind _) = _
    by_cases here : name = other
    · subst here
      rw [found]
      simp
    · simp [here, ofContents]

theorem put_ofContents (found : c.get? name = some b) (key value : Bytes) :
    (ofContents c).set name key (some value) = ofContents (c.insert name (b.put key value)) :=
  set_ofContents found rfl fun _ => SortedMap.get?_insert ..

theorem delete_ofContents (found : c.get? name = some b) (key : Bytes) :
    (ofContents c).set name key none = ofContents (c.insert name (b.delete key)) :=
  set_ofContents found rfl fun _ => SortedMap.get?_erase ..

end Ledger

end Cellstore.Store
