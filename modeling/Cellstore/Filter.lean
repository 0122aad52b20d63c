/-! Conjunctions of equality tests, as a WHERE clause states them. -/
namespace Cellstore

structure Predicate where
  column : String
  value : String
  deriving DecidableEq, Repr

/-- All tests have to hold; without tests every row passes. -/
abbrev Filter := List Predicate

abbrev Cells := List (String × String)

namespace Predicate

/-- A row without the cell fails the test. -/
def holds (p : Predicate) (cells : Cells) : Bool := cells.lookup p.column == some p.value

def describe (p : Predicate) : String := s!"{p.column} = {p.value}"

end Predicate

namespace Filter

def holds (f : Filter) (cells : Cells) : Bool := f.all (·.holds cells)

def columns (f : Filter) : List String := f.map (·.column)

def describe (f : Filter) : String := " AND ".intercalate (f.map (·.describe))

@[simp] theorem holds_nil (cells : Cells) : Filter.holds [] cells = true := rfl

@[simp] theorem holds_cons (p : Predicate) (f : Filter) (cells : Cells) :
    Filter.holds (p :: f) cells = (p.holds cells && f.holds cells) := rfl

end Filter
end Cellstore
