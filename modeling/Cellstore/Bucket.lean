import Cellstore.SortedMap

/-! Buckets: isolated ordered keyspaces with a counter.
A table is one bucket. The entries of a bucket are listed in byte order of their keys. -/
namespace Cellstore

inductive Counting where
  | endless
  /-- A counter that has reached the last count stays there. -/
  | upTo (last : Int)
  deriving DecidableEq, Repr

namespace Counting

/-- Counters in 64 bits go one beyond the largest signed number, and stay there. -/
def signed64 : Counting := .upTo 0x8000000000000000

def next : Counting → Int → Int
  | .endless, n => n + 1
  | .upTo last, n => if n < last then n + 1 else n

/-- Can a counter start at this number? -/
def admits : Counting → Int → Bool
  | .endless, _ => true
  | .upTo last, n => decide (-last ≤ n ∧ n < last)

theorem next_of_lt {last n : Int} (h : n < last) : (upTo last).next n = n + 1 := if_pos h

end Counting

structure Bucket where
  entries : SortedMap Bytes Bytes
  sequence : Int

namespace Bucket

def empty : Bucket := ⟨.empty, 0⟩

def get? (b : Bucket) (key : Bytes) : Option Bytes := b.entries.get? key

def put (b : Bucket) (key value : Bytes) : Bucket := { b with entries := b.entries.insert key value }

/-- Removes a key; a missing one is no fault. -/
def delete (b : Bucket) (key : Bytes) : Bucket := { b with entries := b.entries.erase key }

def items (b : Bucket) (lead : Bytes) : List (Bytes × Bytes) :=
  b.entries.entries.filter fun e => lead.isPrefixOf e.1

def nextSequence (c : Counting) (b : Bucket) : Int × Bucket :=
  (c.next b.sequence, { b with sequence := c.next b.sequence })

@[simp] theorem get?_put_self (b : Bucket) (key value : Bytes) :
    (b.put key value).get? key = some value := SortedMap.get?_insert_self ..

theorem get?_put_of_ne (b : Bucket) {key other : Bytes} (value : Bytes) (h : key ≠ other) :
    (b.put key value).get? other = b.get? other := SortedMap.get?_insert_of_ne _ _ h

@[simp] theorem get?_delete_self (b : Bucket) (key : Bytes) : (b.delete key).get? key = none :=
  SortedMap.get?_erase_self ..

theorem get?_delete_of_ne (b : Bucket) {key other : Bytes} (h : key ≠ other) :
    (b.delete key).get? other = b.get? other := SortedMap.get?_erase_of_ne _ h

@[simp] theorem sequence_put (b : Bucket) (key value : Bytes) :
    (b.put key value).sequence = b.sequence := rfl

@[simp] theorem sequence_delete (b : Bucket) (key : Bytes) :
    (b.delete key).sequence = b.sequence := rfl

theorem ext_get? {a b : Bucket} (entries : ∀ key, a.get? key = b.get? key)
    (sequence : a.sequence = b.sequence) : a = b := by
  obtain ⟨xs, n⟩ := a
  obtain ⟨ys, m⟩ := b
  have same : xs = ys := SortedMap.ext_get? entries
  subst same
  simp only [Bucket.mk.injEq, true_and]
  exact sequence

theorem delete_of_get?_eq_none {b : Bucket} {key : Bytes} (missing : b.get? key = none) :
    b.delete key = b := by
  refine ext_get? (fun other => ?_) rfl
  by_cases here : key = other
  · rw [← here, get?_delete_self, missing]
  · exact get?_delete_of_ne b here

end Bucket

abbrev Contents := SortedMap String Bucket

end Cellstore
