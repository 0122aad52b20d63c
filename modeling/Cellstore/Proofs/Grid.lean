import Mathlib.Tactic.SplitIfs
import Cellstore.Grid

/-! Which results can be shown.
A grid needs a header for every value. The rows of a selection have as many values as it has headers,
so every result of an engine can be shown. -/
namespace Cellstore.Grid

theorem length_of_widen {widths ws : List Nat} {row : List (List Char)}
    (widened : widen widths row = some ws) : ws.length = widths.length := by
  induction widths generalizing row ws with
  | nil =>
    cases row with
    | nil =>
      cases widened
      rfl
    | cons v row => cases widened
  | cons w widths ih =>
    cases row with
    | nil =>
      cases widened
      rfl
    | cons v row =>
      obtain ⟨more, next, rfl⟩ := Option.map_eq_some_iff.mp widened
      rw [List.length_cons, List.length_cons, ih next]

theorem exists_widen_iff {widths : List Nat} {row : List (List Char)} :
    (∃ ws, widen widths row = some ws) ↔ row.length ≤ widths.length := by
  induction widths generalizing row with
  | nil => cases row <;> simp [widen]
  | cons w widths ih =>
    cases row with
    | nil => simp [widen]
    | cons v row =>
      rw [List.length_cons, List.length_cons, Nat.add_le_add_iff_right, ← ih, widen]
      constructor
      · rintro ⟨_, widened⟩
        obtain ⟨ws, next, -⟩ := Option.map_eq_some_iff.mp widened
        exact ⟨ws, next⟩
      · rintro ⟨ws, next⟩
        exact ⟨_, Option.map_eq_some_iff.mpr ⟨ws, next, rfl⟩⟩

theorem exists_widenAll_iff {widths : List Nat} {rows : List (List (List Char))} :
    (∃ ws, widenAll widths rows = some ws) ↔ ∀ row ∈ rows, row.length ≤ widths.length := by
  induction rows generalizing widths with
  | nil => simp [widenAll]
  | cons row rows ih =>
    rw [List.forall_mem_cons, ← exists_widen_iff, widenAll]
    cases widened : widen widths row with
    | none => simp
    | some ws => simp [ih, length_of_widen widened]

theorem exists_lines_iff {width : Int} {headers : List String} {rows : List (List String)} :
    (∃ shown, lines width headers rows = some shown) ↔ ∀ row ∈ rows, row.length ≤ headers.length := by
  have fits : (∃ ws, widenAll ((headers.map fun h => clip width h.toList).map (·.length))
      (rows.map fun row => row.map fun v => clip width v.toList) = some ws) ↔
      ∀ row ∈ rows, row.length ≤ headers.length := by
    rw [exists_widenAll_iff]
    simp
  rw [← fits]
  unfold lines
  dsimp only
  split
  · rename_i failed
    rw [failed]
    simp
  · rename_i widths widened
    exact ⟨fun _ => ⟨widths, widened⟩, fun _ => ⟨_, rfl⟩⟩

end Cellstore.Grid

namespace Cellstore

/-- Every row of a selection has a value for each header. -/
def Outcome.IsRectangular : Outcome → Prop
  | .selected headers rows => ∀ r ∈ rows, r.values.length = headers.length
  | _ => True

theorem Grid.exists_render {result : Result}
    (rectangular : ∀ outcome, result = .ok outcome → outcome.IsRectangular) (width : Int) :
    ∃ shown, render width result = some shown := by
  cases result with
  | error failure => exact ⟨_, rfl⟩
  | ok outcome =>
    have fits := rectangular outcome rfl
    cases outcome with
    | selected headers rows =>
      have short : ∀ row ∈ rows.map (·.values), row.length ≤ headers.length := by
        intro row member
        obtain ⟨r, inside, rfl⟩ := List.mem_map.mp member
        exact Nat.le_of_eq (fits r inside)
      obtain ⟨shown, here⟩ := (@exists_lines_iff width _ _).mpr short
      exact ⟨text shown, congrArg (Option.map text) here⟩
    | _ => exact ⟨_, rfl⟩

theorem Grid.render_eq_none_iff {width : Int} {result : Result} :
    render width result = none ↔ ∃ headers rows, result = .ok (.selected headers rows) ∧
      ∃ row ∈ rows, headers.length < row.values.length := by
  rcases result with failure | outcome
  · exact ⟨nofun, nofun⟩
  · cases outcome with
    | selected headers rows =>
      have short : (∃ shown, lines width headers (rows.map (·.values)) = some shown) ↔
          ∀ row ∈ rows, row.values.length ≤ headers.length := by
        rw [exists_lines_iff, List.forall_mem_map]
      rw [← Option.isSome_iff_exists] at short
      rw [render, Option.map_eq_none_iff, outcomeLines, ← Option.not_isSome_iff_eq_none, short]
      constructor
      · intro long
        have ⟨row, member, longer⟩ : ∃ row ∈ rows, headers.length < row.values.length := by
          simpa using long
        exact ⟨headers, rows, rfl, row, member, longer⟩
      · rintro ⟨_, _, ⟨⟩, row, member, longer⟩ short
        exact Nat.not_le_of_lt longer (short row member)
    | _ => exact ⟨nofun, nofun⟩

end Cellstore
