import Cellstore.Proofs.Engine.Attempt

/-! What the span of a statement says.
Its command, its database and its status agree with the statement and with the answer, whatever the
state of the engine. The type of a failure is there only if the failure is reported. -/
namespace Cellstore
open Statement (parse)

namespace Span

def attribute? (s : Span) (key : String) : Option String := s.attributes.lookup key

def keys (s : Span) : List String := s.attributes.map (·.1)

variable (s : Span)

theorem attribute?_setAttribute (key value other : String) :
    (s.setAttribute key value).attribute? other =
      (s.attribute? other).or (if other = key then some value else none) := by
  rw [attribute?, setAttribute, List.lookup_append, ← attribute?, List.lookup_cons]
  by_cases same : other = key
  · simp [same]
  · rw [beq_eq_false_iff_ne.mpr same, if_neg same]
    rfl

theorem attribute?_start (text : String) {key : String}
    (other : key ∉ ["db.system", "db.statement"]) : (start text).attribute? key = none := by
  rw [attribute?, List.lookup_eq_none_iff]
  simpa [start] using other

/-- Behind the text of a statement, its span has the command and the database. -/
theorem attribute?_ofText (database : Option String) (text : String) {key : String}
    (other : key ∉ ["db.system", "db.statement"]) :
    (ofText database text).attribute? key = match parse text with
      | .error _ => none
      | .ok c => if key = "kvsql.command" then some c.kind.label
        else if key = "kvsql.database" then database else none := by
  unfold ofText
  cases parse text with
  | error fault => exact attribute?_start text other
  | ok c =>
    cases database with
    | none =>
      dsimp only [tag]
      rw [attribute?_setAttribute, attribute?_start text other]
      simp
    | some name =>
      dsimp only [tag]
      rw [attribute?_setAttribute, attribute?_setAttribute, attribute?_start text other]
      split_ifs <;> rfl

theorem attribute?_ended_of_ne (attempt : Except Failure Outcome) {key : String}
    (other : key ≠ "kvsql.error_type") : (s.ended attempt).attribute? key = s.attribute? key := by
  cases attempt with
  | ok outcome => rfl
  | error failure =>
    cases severity : failure.severity with
    | reported =>
      simp only [ended, severity]
      exact (attribute?_setAttribute ..).trans (by rw [if_neg other, Option.or_none])
    | fatal | escaping =>
      simp only [ended, severity]
      rfl

theorem errorType_ended (none : s.attribute? "kvsql.error_type" = none)
    (attempt : Except Failure Outcome) (type : String) :
    (s.ended attempt).attribute? "kvsql.error_type" = some type ↔
      ∃ failure, Engine.answer attempt = .ok (.error failure) ∧ failure.kind.label = type := by
  cases attempt with
  | ok outcome => simp [ended, Engine.answer, none]
  | error failure =>
    cases severity : failure.severity with
    | reported =>
      simp only [ended, Engine.answer, severity, Except.ok.injEq, Except.error.injEq,
        exists_eq_left']
      rw [show (s.fail failure).attribute? "kvsql.error_type" = some failure.kind.label from
        (attribute?_setAttribute ..).trans (by rw [none, if_pos rfl, Option.none_or])]
      exact Option.some_inj
    | fatal | escaping =>
      simp only [ended, Engine.answer, severity, reduceCtorEq, false_and, exists_false, iff_false]
      have kept : (s.escape failure).attribute? "kvsql.error_type" = Option.none := none
      rw [kept]
      exact (Option.some_ne_none type).symm

theorem nodup_keys (database : Option String) (text : String) (attempt : Except Failure Outcome) :
    ((ofText database text).ended attempt).keys.Nodup := by
  have shapes : (ofText database text).keys ∈ [["db.system", "db.statement"],
      ["db.system", "db.statement", "kvsql.command"],
      ["db.system", "db.statement", "kvsql.command", "kvsql.database"]] := by
    unfold ofText
    cases parse text <;> cases database <;> simp [keys, start, tag, setAttribute]
  have more : ((ofText database text).ended attempt).keys = (ofText database text).keys ∨
      ((ofText database text).ended attempt).keys =
        (ofText database text).keys ++ ["kvsql.error_type"] := by
    cases attempt with
    | ok outcome => exact .inl rfl
    | error failure =>
      cases severity : failure.severity <;> simp [ended, severity, keys, fail, escape, setAttribute]
  generalize (ofText database text).keys = before at shapes more
  simp only [List.mem_cons, List.not_mem_nil, or_false] at shapes
  rcases more with same | more
  · rw [same]
    rcases shapes with rfl | rfl | rfl <;> decide
  · rw [more]
    rcases shapes with rfl | rfl | rfl <;> decide

theorem isError_ofText (database : Option String) (text : String) :
    (ofText database text).isError = false := by
  unfold ofText
  cases parse text <;> cases database <;> rfl

theorem isError_ended (fine : s.isError = false) (attempt : Except Failure Outcome) :
    (s.ended attempt).isError = true ↔ (∃ failure, Engine.answer attempt = .ok (.error failure)) ∨
      ∃ failure, Engine.answer attempt = .error failure := by
  cases attempt with
  | ok outcome => simp [ended, Engine.answer, fine]
  | error failure =>
    cases severity : failure.severity <;>
      simp [ended, Engine.answer, severity, fail, escape, isError]

theorem status_eq_error_iff : s.status = "ERROR" ↔ s.isError = true := by
  unfold status
  split_ifs <;> simp_all

end Span

namespace Engine

theorem kind_of_raised {attempt : Except Failure Outcome} {failure : Failure}
    (raised : answer attempt = .error failure) :
    failure.kind = .databaseOpen ∨ failure.severity = .escaping := by
  cases attempt with
  | ok outcome => cases raised
  | error other =>
    cases severity : other.severity with
    | reported =>
      simp only [answer, severity] at raised
      cases raised
    | fatal =>
      simp only [answer, severity, Except.error.injEq] at raised
      exact .inl (raised ▸ Failure.fatal_iff.mp severity)
    | escaping =>
      simp only [answer, severity, Except.error.injEq] at raised
      exact .inr (raised ▸ severity)

/-- Whatever the state, a statement leaves one span, and it is truthful. It has a command if the
statement could be read and, beside it, the database that was active before. It is an error if the
statement failed, and then it has the type of the failure unless the failure is raised: that of a
database that cannot be opened, or one that escapes. -/
theorem statement_leaves_truthful_span [Json.Room] (e : Engine) (text : String) :
    ∃ span : Span, (e.execute text).2.spans = e.spans ++ [span] ∧ span.keys.Nodup ∧
      (∀ kind, span.attribute? "kvsql.command" = some kind ↔
        ∃ c, parse text = .ok c ∧ c.kind.label = kind) ∧
      (∀ name, span.attribute? "kvsql.database" = some name ↔
        (∃ c, parse text = .ok c) ∧ e.databaseName = some name) ∧
      (span.status = "ERROR" ↔ (∃ failure, (e.execute text).1 = .ok (.error failure)) ∨
        ∃ failure, (e.execute text).1 = .error failure) ∧
      (∀ type, span.attribute? "kvsql.error_type" = some type ↔
        ∃ failure, (e.execute text).1 = .ok (.error failure) ∧ failure.kind.label = type) ∧
      ∀ failure, (e.execute text).1 = .error failure →
        failure.kind = .databaseOpen ∨ failure.severity = .escaping := by
  refine ⟨(Span.ofText e.databaseName text).ended (e.attempt text).1, ?_⟩
  rw [execute_eq]
  refine ⟨rfl, Span.nodup_keys .., fun kind => ?_, fun name => ?_, ?_, fun type => ?_,
    fun failure => kind_of_raised⟩
  · rw [Span.attribute?_ended_of_ne _ _ (by decide), Span.attribute?_ofText _ _ (by decide)]
    cases parse text <;> simp
  · rw [Span.attribute?_ended_of_ne _ _ (by decide), Span.attribute?_ofText _ _ (by decide)]
    cases parse text <;> simp
  · rw [Span.status_eq_error_iff]
    exact Span.isError_ended _ (Span.isError_ofText ..) _
  · refine Span.errorType_ended _ ?_ _ _
    rw [Span.attribute?_ofText _ _ (by decide)]
    cases parse text <;> simp

/-- A database that cannot be opened marks its span as an error without the type of the failure. -/
theorem unopened_database_leaves_no_type :
    let l : Location := ⟨Path.ofText "Dbs", ".db"⟩
    let s := (Storage.empty .file).setNode (l.pathOf "shop") .directory
    let r := (Engine.new l s).execute "USE shop"
    ∃ failure span, r.1 = .error failure ∧ failure.kind = .databaseOpen ∧ r.2.spans = [span] ∧
      span.status = "ERROR" ∧ span.attribute? "kvsql.error_type" = none := by
  intro l s r
  refine ⟨.opening "shop" (.store (.directory "Dbs/shop.db")), ⟨[("db.system", "kvsql"),
    ("db.statement", "USE shop"), ("kvsql.command", "use_database")], some ("DatabaseOpenError: " ++
    "cannot open database shop: path points to a directory, expected a file: Dbs/shop.db"),
    ["exception"]⟩, ?_, rfl, ?_, rfl, rfl⟩ <;> decide +kernel

end Engine
end Cellstore
