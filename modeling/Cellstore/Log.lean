import Cellstore.Text.Uppercase

/-! Log lines with fields.
Events below the threshold are dropped. A line has the fields of the logger, the fields of
the event, the event itself, and its level; later ones take the place of earlier ones. -/
namespace Cellstore.Log

inductive Level where
  | debug
  | info
  | warning
  | error
  | critical
  deriving DecidableEq, Repr

namespace Level

def severity : Level → Nat
  | .debug => 10
  | .info => 20
  | .warning => 30
  | .error => 40
  | .critical => 50

def label : Level → String
  | .debug => "debug"
  | .info => "info"
  | .warning => "warning"
  | .error => "error"
  | .critical => "critical"

def all : List Level := [.debug, .info, .warning, .error, .critical]

def ofLabel? (label : String) : Option Level := all.find? fun l => l.label == label

/-- The level of a logging call; some calls have a second name. -/
def ofCall? (call : String) : Option Level :=
  match call with
  | "msg" => some .info
  | "warn" => some .warning
  | "exception" => some .error
  | "fatal" => some .critical
  | call => ofLabel? call

def name (l : Level) : String := Text.upperText l.label

theorem mem_all (l : Level) : l ∈ all := by cases l <;> decide

theorem ofLabel?_label (l : Level) : ofLabel? l.label = some l := by cases l <;> decide

end Level

/-- The least severity that is logged, by name in any case. -/
def threshold? (name : String) : Option Nat :=
  [("DEBUG", 10), ("INFO", 20), ("WARNING", 30), ("WARN", 30), ("ERROR", 40), ("CRITICAL", 50),
    ("FATAL", 50), ("NOTSET", 0)].lookup (Text.upperText name)

structure Event (α : Type) where
  level : Level
  name : String
  fields : List (String × α)

variable {α : Type}

/-- Puts fields over others: a field with an earlier name takes its place. -/
def override (old new : List (String × α)) : List (String × α) :=
  old.filter (fun f => !new.any (fun g => g.1 == f.1)) ++ new

/-- Fields that the logger keeps for itself. -/
def reserved : List String := ["timestamp", "exc_info", "stack_info"]

/-- The fields of one line; `ofText` makes a field value of a text. -/
def line (ofText : String → α) (context : List (String × α)) (e : Event α) : List (String × α) :=
  override ((override context e.fields).filter fun f => !reserved.contains f.1)
    [("event", ofText e.name), ("level", ofText e.level.label)]

def lines (ofText : String → α) (threshold : Nat) (context : List (String × α))
    (events : List (Event α)) : List (List (String × α)) :=
  (events.filter fun e => decide (threshold ≤ e.level.severity)).map (line ofText context)

end Cellstore.Log
