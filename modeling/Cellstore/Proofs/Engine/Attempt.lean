import Cellstore.Proofs.Run

/-! Attempts at statements, and what an engine makes of them.
A statement that cannot be read fails at once. What is read runs on the workspace. Either way the
engine answers the attempt, ends the span of the statement and counts it. -/
namespace Cellstore
open Statement (parse)

namespace Engine

/-- The outcome of a statement, before it is known where a failure goes. -/
def attempt [Json.Room] (e : Engine) (text : String) : Except Failure Outcome × Workspace :=
  match parse text with
  | .error fault => (.error (.statement fault), e.workspace)
  | .ok c => Execution.execute e.workspace (.command c)

/-- Failures that are not reported leave the engine. -/
def answer : Except Failure Outcome → Except Failure Result
  | .ok outcome => .ok (.ok outcome)
  | .error failure => match failure.severity with
    | .reported => .ok (.error failure)
    | _ => .error failure

/-- The status that an answer counts under. A failure that escapes counts under none. -/
def statusOf : Except Failure Result → Option Status
  | .ok (.ok _) => some .success
  | .ok (.error _) => some .error
  | .error failure => if failure.kind = .databaseOpen then some .error else none

def affectedRows : Except Failure Result → Nat
  | .ok (.ok outcome) => outcome.affectedRows
  | _ => 0

end Engine

def Label.ofText (text : String) : Label :=
  match parse text with
  | .error _ => none
  | .ok c => some c.kind

def Span.ofText (database : Option String) (text : String) : Span :=
  match parse text with
  | .error _ => .start text
  | .ok c => (Span.start text).tag c.kind database

def Span.ended (s : Span) : Except Failure Outcome → Span
  | .ok _ => s
  | .error failure => match failure.severity with
    | .reported => s.fail failure
    | _ => s.escape failure

def Metrics.counted (m : Metrics) (label : Label) (answer : Except Failure Result) : Metrics :=
  ((Engine.statusOf answer).elim m (m.record label)).recordRows label (Engine.affectedRows answer)

theorem Failure.fatal_iff {failure : Failure} :
    failure.severity = .fatal ↔ failure.kind = .databaseOpen := by
  unfold severity
  cases failure.kind <;> simp

namespace Engine

theorem eq_ok_of_answer {attempt : Except Failure Outcome} {outcome : Outcome}
    (done : answer attempt = .ok (.ok outcome)) : attempt = .ok outcome := by
  unfold answer at done
  split at done
  · cases done
    rfl
  · split at done <;> cases done

theorem affectedRows_answer_error (failure : Failure) :
    affectedRows (answer (.error failure)) = 0 := by
  rw [answer]
  split <;> rfl

theorem statusOf_answer_error (failure : Failure) : statusOf (answer (.error failure)) =
    if failure.severity = .escaping then none else some .error := by
  cases severity : failure.severity with
  | reported => simp only [answer, severity, statusOf, reduceCtorEq, if_false]
  | fatal =>
    simp only [answer, severity, statusOf, Failure.fatal_iff.mp severity, reduceCtorEq, if_true,
      if_false]
  | escaping =>
    have other : failure.kind ≠ .databaseOpen := fun opening => by
      simp [Failure.fatal_iff.mpr opening] at severity
    simp only [answer, severity, statusOf, other, if_true, if_false]

theorem conclude_eq (e : Engine) (label : Label) (span : Span) (attempt : Except Failure Outcome) :
    e.conclude label span attempt = (answer attempt, { e with
      spans := e.spans ++ [span.ended attempt]
      metrics := e.metrics.counted label (answer attempt) }) := by
  cases attempt with
  | ok outcome => rfl
  | error failure =>
    rw [Metrics.counted, affectedRows_answer_error, statusOf_answer_error]
    cases severity : failure.severity <;> simp only [conclude, answer, Span.ended, severity] <;> rfl

/-- All that a statement does, in terms of its attempt. -/
theorem execute_eq [Json.Room] (e : Engine) (text : String) :
    e.execute text = (answer (e.attempt text).1, {
    workspace := (e.attempt text).2
    metrics := e.metrics.counted (.ofText text) (answer (e.attempt text).1)
    spans := e.spans ++ [(Span.ofText e.databaseName text).ended (e.attempt text).1] }) := by
  unfold execute attempt Label.ofText Span.ofText
  cases parse text with
  | error fault => exact conclude_eq ..
  | ok c => exact conclude_eq ..

end Engine
end Cellstore
