import Cellstore.Failure
import Cellstore.Path

/-! The active database of a session.
At most one store is open at a time. Switching closes the old store before it opens the next
one, so a failure in between leaves no database active. -/
namespace Cellstore

/-- How a session reaches its stores: `ω` is what holds them, `η` an open store. -/
structure Opener (ω η : Type) where
  pathOf : String → Path
  open_ : Path → ω → Except OpenFault η × ω
  close : η → ω → Except StoreFault Unit × ω

structure Session (η : Type) where
  active : Option (String × η)
  switches : Nat

namespace Session

variable {ω η : Type}

def empty : Session η := ⟨none, 0⟩

def databaseName (s : Session η) : Option String := s.active.map (·.1)

/-- Names of databases become names of files: they stay inside the data directory. -/
def IsDatabaseName (name : String) : Prop :=
  name ≠ "" ∧ name ≠ "." ∧ name ≠ ".." ∧ ∀ c ∈ name.toList, c ≠ '/' ∧ c ≠ '\\' ∧ c ≠ '\x00'

instance (name : String) : Decidable (IsDatabaseName name) :=
  letI := List.decidableBAll (fun c => c ≠ '/' ∧ c ≠ '\\' ∧ c ≠ '\x00') name.toList
  inferInstanceAs (Decidable (_ ∧ _ ∧ _ ∧ _))

/-- Closes the active store, if there is one. It is given up even if closing fails. -/
def close (o : Opener ω η) (s : Session η) (w : ω) : Except Failure Unit × Session η × ω :=
  match s.active with
  | none => (.ok (), s, w)
  | some (name, store) =>
    let (outcome, w) := o.close store w
    (outcome.mapError (.closing name), { s with active := none }, w)

def use (o : Opener ω η) (name : String) (s : Session η) (w : ω) :
    Except Failure Path × Session η × ω :=
  if ¬ IsDatabaseName name then (.error (.invalidDatabaseName name), s, w)
  else match close o s w with
    | (.error failure, s, w) => (.error failure, s, w)
    | (.ok (), s, w) => match o.open_ (o.pathOf name) w with
      | (.error fault, w) => (.error (.opening name fault), s, w)
      | (.ok store, w) => (.ok (o.pathOf name), ⟨some (name, store), s.switches + 1⟩, w)

theorem active_close (o : Opener ω η) (s : Session η) (w : ω) :
    (close o s w).2.1.active = none := by
  unfold close
  split
  · assumption
  · rfl

theorem use_of_not_isDatabaseName (o : Opener ω η) {name : String} (s : Session η) (w : ω)
    (h : ¬ IsDatabaseName name) : use o name s w = (.error (.invalidDatabaseName name), s, w) := by
  rw [use, if_pos h]

end Session
end Cellstore
