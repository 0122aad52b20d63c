import Mathlib.Algebra.GroupWithZero.Nat
import Mathlib.Data.List.Forall2
import Mathlib.Data.Set.Insert
import Mathlib.Order.Bounds.Defs
import Cellstore.Proofs.Agreement
import Cellstore.Proofs.Engine.Attempt
import Cellstore.Proofs.Grid

/-! How the lines of a grid are aligned.
A column is as wide as its longest clipped text. All lines above the count have their borders at the
same places, and between two borders the text of one column. -/
namespace Cellstore.Grid

/-- Where the border before a column stands. Behind the last column there is one more. -/
def start (widths : List Nat) (column : Nat) : Nat := ((widths.take column).map (· + 3)).sum

/-- What stands between the borders of a column. -/
def between (widths : List Nat) (column : Nat) (line : List Char) : List Char :=
  (line.take (start widths (column + 1))).drop (start widths column + 1)

/-- A line as long as its columns need, with a border at each of their ends. -/
structure IsFramed (border : Char) (widths : List Nat) (s : List Char) : Prop where
  length : s.length = 1 + (widths.map (· + 3)).sum
  border : ∀ i ≤ widths.length, s[start widths i]? = some border

/-- A line of texts, each filled up to the width of its column. -/
structure IsRow (widths : List Nat) (texts : List (List Char)) (line : List Char) : Prop
    extends IsFramed '|' widths line where
  count : texts.length = widths.length
  text : ∀ i w v, widths[i]? = some w → texts[i]? = some v →
    between widths i line = ' ' :: v ++ List.replicate (w - v.length) ' ' ++ [' ']

structure IsRule (widths : List Nat) (line : List Char) : Prop
    extends IsFramed '+' widths line where
  dashes : ∀ i w, widths[i]? = some w → between widths i line = List.replicate (w + 2) '-'

def lengths (rows : List (List (List Char))) (column : Nat) : Set Nat :=
  {n | ∃ row ∈ rows, ∃ v : List Char, row[column]? = some v ∧ v.length = n}

/-! Fields between borders. -/

theorem start_cons (w : Nat) (widths : List Nat) (i : Nat) :
    start (w :: widths) (i + 1) = w + 3 + start widths i := by
  rw [start, List.take_succ_cons, List.map_cons, List.sum_cons]
  rfl

section
variable {border : Char} {widths : List Nat} {fields : List (List Char)}

def bordered (border : Char) (fields : List (List Char)) : List Char :=
  border :: fields.flatMap (· ++ [border])

theorem bordered_cons (f : List Char) :
    bordered border (f :: fields) = (border :: f) ++ bordered border fields := by
  simp [bordered]

theorem enclose_eq (filled : fields ≠ []) : enclose border fields = bordered border fields := by
  induction fields with
  | nil => exact absurd rfl filled
  | cons f rest ih =>
    cases rest with
    | nil => simp [enclose, bordered]
    | cons g rest =>
      rw [bordered_cons, ← ih (List.cons_ne_nil g rest)]
      simp [enclose]

/-- Fields that are wide enough for a space on both sides. -/
def AreFields (widths : List Nat) (fields : List (List Char)) : Prop :=
  List.Forall₂ (fun w f => f.length = w + 2) widths fields

theorem AreFields.ne_nil (fit : AreFields widths fields) (filled : widths ≠ []) : fields ≠ [] := by
  rintro rfl
  cases fit
  exact filled rfl

theorem AreFields.isFramed (fit : AreFields widths fields) :
    IsFramed border widths (bordered border fields) := by
  unfold AreFields at fit
  induction fit with
  | nil => exact ⟨rfl, fun i within => by cases Nat.le_zero.mp within; rfl⟩
  | @cons w f widths fields size fit ih =>
    have width : (border :: f).length = w + 3 := congrArg (· + 1) size
    rw [bordered_cons]
    constructor
    · rw [List.length_append, width, ih.length, List.map_cons, List.sum_cons]
      omega
    · intro i within
      cases i with
      | zero => rfl
      | succ i =>
        rw [start_cons, ← width, List.getElem?_append_right (Nat.le_add_right ..),
          Nat.add_sub_cancel_left]
        exact ih.border i (Nat.le_of_succ_le_succ within)

theorem AreFields.between_eq (fit : AreFields widths fields) {i w : Nat} {f : List Char}
    (column : widths[i]? = some w) (field : fields[i]? = some f) :
    between widths i (bordered border fields) = f := by
  unfold AreFields at fit
  induction fit generalizing i with
  | nil => cases column
  | @cons w' f' widths fields size fit ih =>
    have width : (border :: f').length = w' + 3 := congrArg (· + 1) size
    unfold between
    rw [bordered_cons, start_cons, ← width, List.take_length_add_append]
    cases i with
    | zero =>
      cases field
      simp [start]
    | succ i =>
      rw [start_cons, ← width, Nat.add_assoc, List.drop_length_add_append]
      exact ih column field

end

/-! Widths. -/

section
variable {widths ws : List Nat} {row : List (List Char)} {rows : List (List (List Char))}
  {i w : Nat}

theorem lengths_nil (column : Nat) : lengths [] column = ∅ :=
  Set.eq_empty_iff_forall_notMem.mpr fun _ ⟨_, member, _⟩ => nomatch member

theorem lengths_cons_none (short : row[i]? = none) : lengths (row :: rows) i = lengths rows i := by
  ext n
  simp [lengths, short]

theorem lengths_cons_some {v : List Char} (here : row[i]? = some v) :
    lengths (row :: rows) i = insert v.length (lengths rows i) := by
  ext n
  simp [lengths, here, eq_comm]

theorem isGreatest_insert {a b : Nat} {s : Set Nat} (greatest : IsGreatest (insert (max a b) s) w) :
    IsGreatest (insert a (insert b s)) w := by
  obtain ⟨attained, bound⟩ := greatest
  have larger : max a b ≤ w := bound (Set.mem_insert ..)
  constructor
  · rcases attained with rfl | member
    · rcases Nat.le_total a b with less | less
      · exact Or.inr (Or.inl (Nat.max_eq_right less))
      · exact Or.inl (Nat.max_eq_left less)
    · exact Or.inr (Or.inr member)
  · rintro n (rfl | rfl | member)
    · exact (Nat.le_max_left ..).trans larger
    · exact (Nat.le_max_right ..).trans larger
    · exact bound (Or.inr member)

theorem getElem?_widen (widened : widen widths row = some ws) (i : Nat) :
    ws[i]? = widths[i]?.map fun w => row[i]?.elim w fun v => max w v.length := by
  induction widths generalizing row ws i with
  | nil =>
    cases row with
    | nil =>
      cases widened
      rfl
    | cons v row => cases widened
  | cons w widths ih =>
    cases row with
    | nil =>
      cases widened
      cases (w :: widths)[i]? <;> rfl
    | cons v row =>
      obtain ⟨more, next, rfl⟩ := Option.map_eq_some_iff.mp widened
      cases i with
      | zero => rfl
      | succ i => exact ih next i

theorem widenAll_cons_eq_some_iff : widenAll widths (row :: rows) = some ws ↔
    ∃ more, widen widths row = some more ∧ widenAll more rows = some ws := by
  rw [widenAll]
  cases widen widths row with
  | none => simp
  | some more => simp only [Option.some.injEq, exists_eq_left']

theorem length_of_widenAll (widened : widenAll widths rows = some ws) :
    ws.length = widths.length := by
  induction rows generalizing widths with
  | nil =>
    cases widened
    rfl
  | cons row rows ih =>
    obtain ⟨more, first, later⟩ := widenAll_cons_eq_some_iff.mp widened
    exact (ih later).trans (length_of_widen first)

theorem isGreatest_widenAll (widened : widenAll widths rows = some ws) (found : ws[i]? = some w) :
    ∃ w₀, widths[i]? = some w₀ ∧ IsGreatest (insert w₀ (lengths rows i)) w := by
  induction rows generalizing widths with
  | nil =>
    cases widened
    refine ⟨w, found, Set.mem_insert .., ?_⟩
    rw [lengths_nil]
    rintro n (rfl | none)
    · exact Nat.le_refl n
    · cases none
  | cons row rows ih =>
    obtain ⟨more, first, later⟩ := widenAll_cons_eq_some_iff.mp widened
    obtain ⟨w₁, here, greatest⟩ := ih later
    rw [getElem?_widen first] at here
    obtain ⟨w₀, there, rfl⟩ := Option.map_eq_some_iff.mp here
    refine ⟨w₀, there, ?_⟩
    cases cell : row[i]? with
    | none =>
      rw [lengths_cons_none cell]
      rwa [cell] at greatest
    | some v =>
      rw [lengths_cons_some cell]
      rw [cell] at greatest
      exact isGreatest_insert greatest

theorem isGreatest_widths {headers : List (List Char)}
    (widened : widenAll (headers.map (·.length)) rows = some ws) (found : ws[i]? = some w) :
    IsGreatest (lengths (headers :: rows) i) w := by
  obtain ⟨w₀, here, greatest⟩ := isGreatest_widenAll widened found
  rw [List.getElem?_map] at here
  obtain ⟨h, header, rfl⟩ := Option.map_eq_some_iff.mp here
  rwa [lengths_cons_some header]

end

/-! Lines of a grid. -/

section
variable {widths : List Nat} {row : List (List Char)}

theorem length_field {w : Nat} {v : List Char} (fits : v.length ≤ w) :
    (field w v).length = w + 2 := by
  simp only [field, List.length_append, List.length_cons, List.length_replicate, List.length_nil]
  omega

theorem isRule_rule (filled : widths ≠ []) : IsRule widths (rule widths) := by
  have fit : AreFields widths (widths.map fun w => List.replicate (w + 2) '-') :=
    List.forall₂_map_right_iff.mpr (List.forall₂_same.mpr fun _ _ => List.length_replicate ..)
  rw [rule, enclose_eq (fit.ne_nil filled)]
  refine ⟨fit.isFramed, fun i w column => fit.between_eq column ?_⟩
  rw [List.getElem?_map, column]
  rfl

theorem areFields_zipWith (fits : List.Forall₂ (fun w v => v.length ≤ w) widths row) :
    AreFields widths (List.zipWith field widths row) := by
  unfold AreFields
  induction fits with
  | nil => exact .nil
  | cons short _ ih => exact .cons (length_field short) ih

theorem isRow_line (filled : widths ≠ [])
    (fits : List.Forall₂ (fun w v => v.length ≤ w) widths row) :
    IsRow widths row (line widths row) := by
  have fit := areFields_zipWith fits
  rw [line, enclose_eq (fit.ne_nil filled)]
  refine ⟨fit.isFramed, fits.length_eq.symm, fun i w v column text => fit.between_eq column ?_⟩
  rw [List.getElem?_zipWith, column, text]
  rfl

theorem fits_of_isGreatest {texts : List (List (List Char))} (member : row ∈ texts)
    (count : row.length = widths.length)
    (longest : ∀ i w, widths[i]? = some w → IsGreatest (lengths texts i) w) :
    List.Forall₂ (fun w v => v.length ≤ w) widths row := by
  refine List.forall₂_iff_get.mpr ⟨count.symm, fun i inside within => ?_⟩
  refine (longest i _ (List.getElem?_eq_getElem inside)).2 ⟨row, member, _, ?_, rfl⟩
  exact List.getElem?_eq_getElem within

end

def clipped (width : Int) (row : List String) : List (List Char) :=
  row.map fun v => clip width v.toList

/-- A grid whose rows fit its headers is shown. Its columns are as wide as their longest clipped
texts. -/
theorem exists_widths {headers : List String} {rows : List (List String)}
    (short : ∀ row ∈ rows, row.length ≤ headers.length) (width : Int) :
    ∃ widths : List Nat,
      lines width headers rows = some ([rule widths, line widths (clipped width headers),
        rule widths] ++ rows.map (fun row => line widths (clipped width row)) ++
        (if rows = [] then [] else [rule widths]) ++ [s!"{rows.length} row(s) returned".toList]) ∧
      widths.length = headers.length ∧
      ∀ i w, widths[i]? = some w →
        IsGreatest (lengths ((headers :: rows).map (clipped width)) i) w := by
  have fit : ∀ row ∈ rows.map (clipped width),
      row.length ≤ ((clipped width headers).map (·.length)).length := by
    intro row member
    obtain ⟨values, inside, rfl⟩ := List.mem_map.mp member
    simp [clipped, short values inside]
  obtain ⟨widths, widened⟩ := exists_widenAll_iff.mpr fit
  refine ⟨widths, ?_, ?_, fun i w found => isGreatest_widths widened found⟩
  · have widened : widenAll ((headers.map fun h => clip width h.toList).map (·.length))
        (rows.map fun row => row.map fun v => clip width v.toList) = some widths := widened
    rw [lines, widened]
    cases rows <;> simp [clipped, footer]
  · simpa [clipped] using length_of_widenAll widened

theorem lines_aligned {headers : List String} {rows : List (List String)} (filled : headers ≠ [])
    (rectangular : ∀ row ∈ rows, row.length = headers.length) (width : Int) :
    ∃ (widths : List Nat) (rule header : List Char) (body : List (List Char)),
      lines width headers rows = some ([rule, header, rule] ++ body ++
        (if rows = [] then [] else [rule]) ++ [s!"{rows.length} row(s) returned".toList]) ∧
      widths.length = headers.length ∧
      (∀ i w, widths[i]? = some w →
        IsGreatest (lengths ((headers :: rows).map (clipped width)) i) w) ∧
      IsRule widths rule ∧ IsRow widths (clipped width headers) header ∧
      List.Forall₂ (fun row line => IsRow widths (clipped width row) line) rows body := by
  have short (row : List String) (member : row ∈ rows) : row.length ≤ headers.length :=
    Nat.le_of_eq (rectangular row member)
  obtain ⟨widths, shown, count, longest⟩ := exists_widths short width
  have some_ : widths ≠ [] := by
    rintro rfl
    exact filled (List.length_eq_zero_iff.mp count.symm)
  have isRow (row : List String) (member : row ∈ headers :: rows) :
      IsRow widths (clipped width row) (line widths (clipped width row)) := by
    refine isRow_line some_ (fits_of_isGreatest (List.mem_map_of_mem member) ?_ longest)
    rw [clipped, List.length_map, count]
    rcases List.mem_cons.mp member with rfl | inside
    · rfl
    · exact rectangular row inside
  exact ⟨widths, rule widths, line widths (clipped width headers),
    rows.map fun row => line widths (clipped width row), shown, count, longest, isRule_rule some_,
    isRow headers List.mem_cons_self,
    List.forall₂_map_right_iff.mpr (List.forall₂_same.mpr fun row member =>
      isRow row (List.mem_cons_of_mem headers member))⟩

end Cellstore.Grid

/-! Selections. -/

namespace Cellstore
open Statement (parse)

variable {table : String} {columns : List String} {filter : Filter} {outcome : Outcome}

theorem Laid.selected [Json.Room] {c : Contents} (h : Laid c)
    (done : Execution.select table columns filter c = .ok outcome) :
    ∃ headers rows, outcome = .selected headers rows ∧ headers ≠ [] ∧
      ∀ row ∈ rows.map (·.values), row.length = headers.length := by
  unfold Execution.select at done
  rcases h.tableOf_cases table with missing | ⟨b, declared, found, filled, built⟩
  · rw [missing] at done
    cases done
  · rw [found] at done
    dsimp only at done
    rw [built.declares.columnNames_eq] at done
    have projected (headers : List String) : ∀ row ∈ ((Rows.matching b filter).map fun r =>
        (⟨headers, Row.project headers r.cells⟩ : ResultRow)).map (·.values),
        row.length = headers.length := by
      simp [Row.project]
    split_ifs at done with all
    · cases done
      exact ⟨declared, _, rfl, filled, projected declared⟩
    · cases done
      exact ⟨columns, _, rfl, fun none => all (by rw [none]; rfl), projected columns⟩

namespace Engine

theorem Reachable.selected [Json.Room] {e : Engine} (reached : e.Reachable) {text : String}
    (read : parse text = .ok (.select table columns filter))
    (answered : (e.execute text).1 = .ok (.ok outcome)) :
    ∃ headers rows, outcome = .selected headers rows ∧ headers ≠ [] ∧
      ∀ row ∈ rows.map (·.values), row.length = headers.length := by
  have laid := reached.isLaid
  have done : (Execution.execute e.workspace (.command (.select table columns filter))).1 =
      .ok outcome := by
    rw [execute_eq, attempt, read] at answered
    exact eq_ok_of_answer answered
  unfold Execution.execute at done
  split_ifs at done with inactive
  obtain ⟨⟨name, store⟩, active⟩ : ∃ entry, e.workspace.session.active = some entry := by
    refine Option.ne_none_iff_exists'.mp fun none => inactive ⟨rfl, ?_⟩
    rw [none]
    rfl
  rw [Execution.run, Workspace.view_of_idle active (laid.idle name store active)] at done
  exact (laid.contents store.place).selected done

/-- Every selection of an engine is shown, as a grid whose columns are as wide as their longest
clipped texts. Its rules and rows are of one length and have their borders at the same places, and
between two borders the text of one column, with one space before it and all others behind it. -/
theorem selection_aligned [Json.Room] {e : Engine} (reached : e.Reachable) {text : String}
    (read : parse text = .ok (.select table columns filter))
    (answered : (e.execute text).1 = .ok (.ok outcome)) (width : Int) :
    ∃ headers rows, outcome = .selected headers rows ∧ headers ≠ [] ∧
    ∃ (widths : List Nat) (rule header : List Char) (body : List (List Char)),
      let printed := [rule, header, rule] ++ body ++ (if rows = [] then [] else [rule]) ++
        [s!"{rows.length} row(s) returned".toList]
      Grid.outcomeLines width outcome = some printed ∧
      Grid.render width (.ok outcome) = some (Grid.text printed) ∧
      widths.length = headers.length ∧
      (∀ i w, widths[i]? = some w → IsGreatest (Grid.lengths
        ((headers :: rows.map (·.values)).map (Grid.clipped width)) i) w) ∧
      Grid.IsRule widths rule ∧ Grid.IsRow widths (Grid.clipped width headers) header ∧
      List.Forall₂ (fun row line => Grid.IsRow widths (Grid.clipped width row.values) line)
        rows body := by
  obtain ⟨headers, rows, rfl, filled, rectangular⟩ := reached.selected read answered
  obtain ⟨widths, rule, header, body, shown, count, longest, isRule, isHeader, isBody⟩ :=
    Grid.lines_aligned filled rectangular width
  rw [List.forall₂_map_left_iff] at isBody
  simp only [List.map_eq_nil_iff, List.length_map] at shown
  refine ⟨headers, rows, rfl, filled, widths, rule, header, body, shown, ?_, count, longest, isRule,
    isHeader, isBody⟩
  rw [Grid.render, Grid.outcomeLines, shown]
  rfl

/-- A text that is clipped, and a value that is missing. -/
theorem selection_aligned_goods :
    let l : Location := ⟨Path.ofText "data", ".db"⟩
    let e := ((Engine.new l (.empty .memory)).run ["USE shop",
      "CREATE TABLE goods (name TEXT, price INT)", "INSERT INTO goods (name) VALUES ('red ink')"]).2
    let outcome : Outcome := .selected ["name", "price"] [⟨["name", "price"], ["red ink", ""]⟩]
    e.Reachable ∧ parse "SELECT * FROM goods" = .ok (.select "goods" [] []) ∧
      (e.execute "SELECT * FROM goods").1 = .ok (.ok outcome) ∧
      ∃ (widths : List Nat) (rule header line : List Char),
        Grid.render 6 (.ok outcome) = some (Grid.text [rule, header, rule, line, rule,
          "1 row(s) returned".toList]) ∧
        Grid.IsRule widths rule ∧
        Grid.IsRow widths ["name".toList, "price".toList] header ∧
        Grid.IsRow widths ["red...".toList, []] line := by
  intro l e outcome
  have fresh : ∀ place, (Storage.empty .memory).contents place = .empty := fun _ => rfl
  have reached : e.Reachable := (Reachable.new l fresh).run _
  have read : parse "SELECT * FROM goods" = .ok (.select "goods" [] []) := by decide +kernel
  have answered : (e.execute "SELECT * FROM goods").1 = .ok (.ok outcome) := by decide +kernel
  refine ⟨reached, read, answered, ?_⟩
  obtain ⟨headers, rows, same, -, widths, rule, header, body, -, shown, -, -, isRule, isHeader,
    isBody⟩ := selection_aligned reached read answered 6
  obtain ⟨rfl, rfl⟩ := Outcome.selected.inj same
  cases isBody with
  | cons isLine none =>
    cases none
    exact ⟨widths, rule, header, _, shown, isRule, isHeader, isLine⟩

end Engine
end Cellstore
