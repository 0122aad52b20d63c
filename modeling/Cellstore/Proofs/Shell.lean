import Mathlib.Tactic.SplitIfs
import Cellstore.Shell
import Cellstore.Proofs.Grid

/-! What a shell does with its input.
The service is watched, so that all its calls are known with their answers. A run is then told by
the lines that were executed and shown, in their order, and by the call that ended it, if one did. -/
namespace Cellstore.Shell

section
variable {σ : Type} {v : Service σ} {s : Settings} {state after : σ} {line : String}
  {rest : List String} {result : Result}

theorem loop_exit (exits : isExit line = true) :
    loop v s state (line :: rest) = ⟨s.prompt, .normal, state⟩ := by
  rw [loop, step, if_pos exits]

theorem loop_failed (stays : ¬ isExit line = true) {failure : Failure}
    (answered : v.execute line state = (.error failure, after)) :
    loop v s state (line :: rest) = ⟨s.prompt, .failed failure, after⟩ := by
  rw [loop, step, if_neg stays, answered]

theorem loop_unshowable (stays : ¬ isExit line = true)
    (answered : v.execute line state = (.ok result, after))
    (rendered : Grid.render s.width result = none) :
    loop v s state (line :: rest) = ⟨s.prompt, .unshowable, after⟩ := by
  rw [loop, step, if_neg stays, answered]
  simp only [rendered]

theorem loop_shown (stays : ¬ isExit line = true)
    (answered : v.execute line state = (.ok result, after)) {text : String}
    (rendered : Grid.render s.width result = some text) :
    loop v s state (line :: rest) =
      { loop v s after rest with output := s.prompt ++ text ++ (loop v s after rest).output } := by
  rw [loop, step, if_neg stays, answered]
  simp only [rendered]

end

inductive Call where
  | execute (line : String) (answer : Except Failure Result)
  | close

/-- A service with the calls that it got so far. -/
structure Watched (σ : Type) where
  state : σ
  calls : List Call

structure Exchange where
  line : String
  result : Result
  text : String

/-- The course of a loop. A call that fails, or whose result cannot be shown, stops it early. -/
structure Course where
  shown : List Exchange
  stop : Option (String × Except Failure Result)

namespace Course

variable (c : Course) (x : Exchange)

def calls : List Call :=
  c.shown.map (fun x => .execute x.line (.ok x.result)) ++
    c.stop.toList.map fun last => .execute last.1 last.2

def lines : List String := c.shown.map (·.line) ++ c.stop.toList.map (·.1)

/-- A prompt and a text for each line that was shown, and the prompt before the last line or the end
of the input. -/
def output (prompt : String) : String :=
  String.join (c.shown.map fun x => prompt ++ x.text) ++ prompt

def ending : Ending := match c.stop with
  | none => .normal
  | some (_, .error failure) => .failed failure
  | some (_, .ok _) => .unshowable

def cons : Course := ⟨x :: c.shown, c.stop⟩

/-- The loop went on to the end of its input. -/
def IsToEnd (lines : List String) : Prop := c.stop.isNone ∧ ∀ line ∈ lines, isExit line = false

instance (lines : List String) : Decidable (c.IsToEnd lines) := inferInstanceAs (Decidable (_ ∧ _))

theorem output_nil (stop : Option (String × Except Failure Result)) (prompt : String) :
    output ⟨[], stop⟩ prompt = prompt := String.empty_append

theorem output_cons (prompt : String) :
    (c.cons x).output prompt = prompt ++ x.text ++ c.output prompt := by
  unfold output cons
  rw [List.map_cons, String.join_cons, String.append_assoc]

/-- A course over these lines, with texts of this width. -/
structure IsOver (width : Int) (lines : List String) : Prop where
  shown : ∀ x ∈ c.shown, Grid.render width x.result = some x.text
  stop : ∀ line result, c.stop = some (line, .ok result) → Grid.render width result = none
  entered : c.lines <+: lines.takeWhile fun line => !isExit line
  complete : c.stop = none → c.lines = lines.takeWhile fun line => !isExit line

variable {c x} {width : Int} {line : String} {rest : List String}

theorem takeWhile_of_stays (stays : ¬ isExit line = true) :
    ((line :: rest).takeWhile fun line => !isExit line) =
      line :: rest.takeWhile fun line => !isExit line := by
  rw [List.takeWhile_cons, Bool.eq_false_iff.mpr stays]
  rfl

theorem isToEnd_cons (stays : ¬ isExit x.line = true) :
    (c.cons x).IsToEnd (x.line :: rest) ↔ c.IsToEnd rest := by
  unfold IsToEnd cons
  rw [List.forall_mem_cons]
  exact and_congr_right fun _ => and_iff_right (Bool.eq_false_iff.mpr stays)

theorem IsOver.cons (told : c.IsOver width rest) (stays : ¬ isExit x.line = true)
    (shown : Grid.render width x.result = some x.text) :
    (c.cons x).IsOver width (x.line :: rest) := by
  refine ⟨List.forall_mem_cons.mpr ⟨shown, told.shown⟩, told.stop, ?_, fun none => ?_⟩
  · rw [takeWhile_of_stays stays]
    exact (List.prefix_cons_inj x.line).mpr told.entered
  · rw [takeWhile_of_stays stays]
    exact congrArg (x.line :: ·) (told.complete none)

theorem isOver_nil {lines : List String} (ended : lines.takeWhile (fun line => !isExit line) = []) :
    IsOver ⟨[], none⟩ width lines where
  shown := nofun
  stop := nofun
  entered := List.nil_prefix
  complete _ := ended.symm

theorem isOver_stop (stays : ¬ isExit line = true) {answer : Except Failure Result}
    (unshown : ∀ result, answer = .ok result → Grid.render width result = none) :
    IsOver ⟨[], some (line, answer)⟩ width (line :: rest) where
  shown := nofun
  stop := by
    rintro _ result ⟨⟩
    exact unshown result rfl
  entered := by
    rw [takeWhile_of_stays stays]
    exact (List.prefix_cons_inj line).mpr List.nil_prefix
  complete := nofun

theorem mem_calls {answer : Except Failure Result} : .execute line answer ∈ c.calls ↔
    (∃ x ∈ c.shown, x.line = line ∧ answer = .ok x.result) ∨ c.stop = some (line, answer) := by
  unfold calls
  rw [List.mem_append, List.mem_map, List.mem_map]
  refine or_congr ?_ ?_
  · simp only [Call.execute.injEq, eq_comm]
  · simp only [Option.mem_toList, Call.execute.injEq]
    constructor
    · rintro ⟨last, stopped, rfl, rfl⟩
      exact stopped
    · intro stopped
      exact ⟨_, stopped, rfl, rfl⟩

theorem ending_eq_failed_iff {failure : Failure} :
    c.ending = .failed failure ↔ ∃ line, .execute line (.error failure) ∈ c.calls := by
  simp only [mem_calls, reduceCtorEq, and_false, exists_false, false_or]
  rcases c with ⟨shown, _ | ⟨line, other | result⟩⟩
  · exact ⟨nofun, nofun⟩
  · constructor
    · rintro ⟨⟩
      exact ⟨line, rfl⟩
    · rintro ⟨_, ⟨⟩⟩
      rfl
  · exact ⟨nofun, nofun⟩

variable {lines : List String}

theorem IsOver.exists_of_unshowable (told : c.IsOver width lines)
    (unshowable : c.ending = .unshowable) :
    ∃ line result, .execute line (.ok result) ∈ c.calls ∧ Grid.render width result = none := by
  rcases c with ⟨shown, _ | ⟨line, failure | result⟩⟩
  · cases unshowable
  · cases unshowable
  · exact ⟨line, result, mem_calls.mpr (Or.inr rfl), told.stop line result rfl⟩

theorem IsOver.ending_eq_unshowable_iff (told : c.IsOver width lines) : c.ending = .unshowable ↔
    ∃ line headers rows, .execute line (.ok (.ok (.selected headers rows))) ∈ c.calls ∧
      ∃ row ∈ rows, headers.length < row.values.length := by
  constructor
  · intro unshowable
    obtain ⟨line, result, executed, missing⟩ := told.exists_of_unshowable unshowable
    obtain ⟨headers, rows, rfl, longer⟩ := Grid.render_eq_none_iff.mp missing
    exact ⟨line, headers, rows, executed, longer⟩
  · rintro ⟨line, headers, rows, executed, longer⟩
    have missing : Grid.render width (.ok (.selected headers rows)) = none :=
      Grid.render_eq_none_iff.mpr ⟨headers, rows, rfl, longer⟩
    rcases mem_calls.mp executed with ⟨x, member, -, same⟩ | stopped
    · have shown := told.shown x member
      rw [← Except.ok.inj same, missing] at shown
      cases shown
    · rw [ending, stopped]

theorem IsOver.ending_eq_normal_iff (told : c.IsOver width lines)
    (rendered : ∀ line result, .execute line (.ok result) ∈ c.calls →
      ∃ text, Grid.render width result = some text) :
    c.ending = .normal ↔ ∀ line failure, .execute line (.error failure) ∉ c.calls := by
  constructor
  · intro normal line failure executed
    cases normal.symm.trans (ending_eq_failed_iff.mpr ⟨line, executed⟩)
  · intro none
    cases last : c.ending with
    | normal => rfl
    | unshowable =>
      obtain ⟨line, result, executed, missing⟩ := told.exists_of_unshowable last
      obtain ⟨text, shown⟩ := rendered line result executed
      cases missing.symm.trans shown
    | failed failure =>
      obtain ⟨line, executed⟩ := ending_eq_failed_iff.mp last
      exact absurd executed (none line failure)

end Course

section
variable {σ : Type} (v : Service σ) (s : Settings)

def watched : Service (Watched σ) where
  execute line w := ((v.execute line w.state).1,
    ⟨(v.execute line w.state).2, w.calls ++ [.execute line (v.execute line w.state).1]⟩)
  close w := ⟨v.close w.state, w.calls ++ [.close]⟩

variable {v}

theorem execute_watched (w : Watched σ) {line : String} {answer : Except Failure Result} {after : σ}
    (answered : v.execute line w.state = (answer, after)) :
    (watched v).execute line w = (answer, ⟨after, w.calls ++ [.execute line answer]⟩) := by
  show ((v.execute line w.state).1, (⟨(v.execute line w.state).2, _⟩ : Watched σ)) = _
  rw [answered]

/-- Watching changes nothing. -/
theorem loop_watched (w : Watched σ) (lines : List String) :
    let r := loop (watched v) s w lines
    loop v s w.state lines = ⟨r.output, r.ending, r.service.state⟩ := by
  intro r
  induction lines generalizing w with
  | nil => rfl
  | cons line rest ih =>
    by_cases exits : isExit line = true
    · rw [loop_exit exits, show r = _ from loop_exit exits]
    · rcases answered : v.execute line w.state with ⟨_ | result, after⟩
      · rw [loop_failed exits answered,
          show r = _ from loop_failed exits (execute_watched w answered)]
      · cases rendered : Grid.render s.width result with
        | none =>
          rw [loop_unshowable exits answered rendered,
            show r = _ from loop_unshowable exits (execute_watched w answered) rendered]
        | some text =>
          rw [loop_shown exits answered rendered,
            show r = _ from loop_shown exits (execute_watched w answered) rendered, ih ⟨after, _⟩]

theorem loop_course (w : Watched σ) (lines : List String) :
    let r := loop (watched v) s w lines
    ∃ c : Course, c.IsOver s.width lines ∧ r.service.calls = w.calls ++ c.calls ∧
      r.output = c.output s.prompt ++ (if c.IsToEnd lines then "\n" else "") ∧
      r.ending = c.ending := by
  intro r
  -- Unless the first line ends the loop, its course is that of the rest behind what was shown for
  -- this line.
  induction lines generalizing w with
  | nil =>
    refine ⟨⟨[], none⟩, Course.isOver_nil rfl, (List.append_nil _).symm, ?_, rfl⟩
    rw [Course.output_nil, if_pos ⟨rfl, nofun⟩]
    rfl
  | cons line rest ih =>
    by_cases exits : isExit line = true
    · rw [show r = _ from loop_exit exits]
      refine ⟨⟨[], none⟩, Course.isOver_nil ?_, (List.append_nil _).symm, ?_, rfl⟩
      · rw [List.takeWhile_cons, exits]
        rfl
      · have entered : ¬ Course.IsToEnd ⟨[], none⟩ (line :: rest) := fun toEnd =>
          Bool.eq_false_iff.mp (toEnd.2 line List.mem_cons_self) exits
        rw [Course.output_nil, if_neg entered, String.append_empty]
    · rcases answered : v.execute line w.state with ⟨failure | result, after⟩
      · rw [show r = _ from loop_failed exits (execute_watched w answered)]
        refine ⟨⟨[], some (line, .error failure)⟩, Course.isOver_stop exits nofun, rfl, ?_, rfl⟩
        rw [Course.output_nil, if_neg nofun, String.append_empty]
      · cases rendered : Grid.render s.width result with
        | none =>
          rw [show r = _ from loop_unshowable exits (execute_watched w answered) rendered]
          refine ⟨⟨[], some (line, .ok result)⟩, Course.isOver_stop exits ?_, rfl, ?_, rfl⟩
          · rintro _ ⟨⟩
            exact rendered
          · rw [Course.output_nil, if_neg nofun, String.append_empty]
        | some text =>
          rw [show r = _ from loop_shown exits (execute_watched w answered) rendered]
          obtain ⟨c, told, calls, output, ending⟩ := ih ⟨after, _⟩
          refine ⟨c.cons ⟨line, result, text⟩, told.cons exits rendered, ?_, ?_, ending⟩
          · rw [calls, List.append_assoc]
            rfl
          · have toEnd : (c.cons ⟨line, result, text⟩).IsToEnd (line :: rest) ↔ c.IsToEnd rest :=
              Course.isToEnd_cons exits
            simp only [output, Course.output_cons, toEnd, String.append_assoc]

/-- For any service and any lines, the lines before the exit command are executed in their order,
once each, until one fails or has a result that cannot be shown. Each is prompted for, and so is the
exit command or the end of the input. Results are printed as they render. The service is closed
once, in the end. A failure leaves the run, as does a row that is longer than its headers; else the
run ends normally. -/
theorem run_exact (v : Service σ) (s : Settings) (state : σ) (lines : List String) :
    let r := run (watched v) s ⟨state, []⟩ lines
    run v s state lines = ⟨r.output, r.ending, r.service.state⟩ ∧
    ∃ c : Course, c.IsOver s.width lines ∧
      r.service.calls = c.calls ++ [.close] ∧
      r.output = c.output s.prompt ++ (if c.IsToEnd lines then "\n" else "") ∧
      r.ending = c.ending ∧
      (∀ failure, r.ending = .failed failure ↔
        ∃ line, .execute line (.error failure) ∈ r.service.calls) ∧
      (r.ending = .unshowable ↔ ∃ line headers rows,
        .execute line (.ok (.ok (.selected headers rows))) ∈ r.service.calls ∧
        ∃ row ∈ rows, headers.length < row.values.length) ∧
      ((∀ line result, .execute line (.ok result) ∈ r.service.calls →
          ∃ text, Grid.render s.width result = some text) →
        (r.ending = .normal ↔
          ∀ line failure, .execute line (.error failure) ∉ r.service.calls)) := by
  intro r
  have unwatched := loop_watched (v := v) s ⟨state, []⟩ lines
  obtain ⟨c, told, calls, output, ending⟩ := loop_course (v := v) s ⟨state, []⟩ lines
  have closed : r.service.calls = c.calls ++ [.close] := congrArg (· ++ [Call.close]) calls
  have ended : r.ending = c.ending := ending
  have member {line : String} {answer : Except Failure Result} :
      .execute line answer ∈ r.service.calls ↔ .execute line answer ∈ c.calls := by
    rw [closed]
    simp
  refine ⟨?_, c, told, closed, output, ended, ?_⟩
  · unfold run
    rw [unwatched]
    rfl
  · simp only [member]
    rw [ended]
    exact ⟨fun failure => Course.ending_eq_failed_iff, told.ending_eq_unshowable_iff,
      told.ending_eq_normal_iff⟩

end

end Cellstore.Shell
