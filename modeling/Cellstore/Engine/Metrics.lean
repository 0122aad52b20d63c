import Cellstore.Command
import Cellstore.SortedMap

/-! Counters of an engine.
A labelled counter exists from its first count on. -/
namespace Cellstore

abbrev Label := Option CommandKind

namespace Label

/-- Statements that could not be read have no kind. -/
def text : Label → String
  | some kind => kind.label
  | none => "unknown"

end Label

inductive Status where
  | success
  | error
  deriving DecidableEq, Repr

def Status.label : Status → String
  | .success => "success"
  | .error => "error"

structure Metrics where
  statements : SortedMap (String × String) Nat
  latencies : SortedMap String Nat
  affected : SortedMap String Nat

/-- One value with its two labels, which are empty where a counter has none. -/
structure Sample where
  counter : String
  command : String
  status : String
  value : Nat
  deriving DecidableEq, Repr

namespace Metrics

variable {κ : Type} [KeyOrder κ]

def empty : Metrics := ⟨.empty, .empty, .empty⟩

def add (m : SortedMap κ Nat) (k : κ) (n : Nat) : SortedMap κ Nat :=
  m.insert k ((m.get? k).getD 0 + n)

def record (m : Metrics) (label : Label) (status : Status) : Metrics :=
  { m with
    statements := add m.statements (label.text, status.label) 1
    latencies := add m.latencies label.text 1 }

def recordRows (m : Metrics) (label : Label) (rows : Nat) : Metrics :=
  if rows = 0 then m else { m with affected := add m.affected label.text rows }

def samples (m : Metrics) (switches : Nat) : List Sample :=
  ⟨"kvsql_database_switches_total", "", "", switches⟩ ::
    m.affected.entries.map (fun e => ⟨"kvsql_rows_affected_total", e.1, "", e.2⟩) ++
    m.latencies.entries.map (fun e => ⟨"kvsql_statement_latency_seconds_count", e.1, "", e.2⟩) ++
    m.statements.entries.map fun e => ⟨"kvsql_statements_total", e.1.1, e.1.2, e.2⟩

theorem get?_add_self (m : SortedMap κ Nat) (k : κ) (n : Nat) :
    (add m k n).get? k = some ((m.get? k).getD 0 + n) :=
  SortedMap.get?_insert_self ..

theorem get?_add_of_ne (m : SortedMap κ Nat) {k j : κ} (n : Nat) (h : k ≠ j) :
    (add m k n).get? j = m.get? j :=
  SortedMap.get?_insert_of_ne _ _ h

end Metrics
end Cellstore
