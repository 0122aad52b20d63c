import Mathlib.Algebra.Group.Action.Defs
import Mathlib.Algebra.Order.BigOperators.Group.List
import Mathlib.Algebra.Order.Group.Nat
import Cellstore.Proofs.Grid.Alignment

/-! How far the limit on the width of columns is kept.
A limit of three characters or more has room for the mark of a cut. Under it no text is shown with
more characters, and the length of a line is bounded by the number of its columns. Under a smaller
limit every text that has to be cut is shown longer than the limit. -/
namespace Cellstore.Grid

/-! Texts. -/

section
variable {limit : Nat} {s : List Char}

theorem clip_of_le (within : s.length ≤ limit) : clip limit s = s :=
  if_neg (Int.not_lt.mpr (Int.ofNat_le.mpr within))

theorem clip_of_lt (room : 3 ≤ limit) (long : limit < s.length) :
    clip limit s = s.take (limit - 3) ++ ellipsis := by
  have kept : ((limit : Int) - 3).toNat = limit - 3 := by omega
  rw [clip, if_pos (Int.ofNat_lt.mpr long), upTo, if_neg (by omega), kept]

/-- Without room for the mark, what is kept is counted from the end of the text. -/
theorem clip_of_narrow (narrow : limit < 3) (long : limit < s.length) :
    clip limit s = s.take (s.length + limit - 3) ++ ellipsis := by
  have kept : ((s.length : Int) + ((limit : Int) - 3)).toNat = s.length + limit - 3 := by omega
  rw [clip, if_pos (Int.ofNat_lt.mpr long), upTo, if_pos (by omega), kept]

theorem length_ellipsis : ellipsis.length = 3 := rfl

theorem length_clip_le_iff : (clip limit s).length ≤ limit ↔ 3 ≤ limit ∨ s.length ≤ limit := by
  rcases Nat.lt_or_ge limit s.length with long | within
  · rcases Nat.lt_or_ge limit 3 with narrow | room
    · rw [clip_of_narrow narrow long, List.length_append, List.length_take, length_ellipsis]
      omega
    · rw [clip_of_lt room long, List.length_append, List.length_take, length_ellipsis]
      omega
  · rw [clip_of_le within]
    exact ⟨.inr, fun _ => within⟩

/-- A limit that has room for the mark of a cut, or under which nothing has to be cut. -/
def IsAmple (limit : Nat) (table : List (List String)) : Prop :=
  3 ≤ limit ∨ ∀ row ∈ table, ∀ v ∈ row, v.length ≤ limit

/-- The limit is kept by all texts of a table exactly if it is ample. -/
theorem forall_clipped_iff {table : List (List String)} :
    (∀ row ∈ table, ∀ text ∈ clipped limit row, text.length ≤ limit) ↔ IsAmple limit table := by
  simp only [clipped, List.forall_mem_map, length_clip_le_iff, String.length_toList, IsAmple]
  by_cases room : 3 ≤ limit
  · simp only [room, true_or, implies_true]
  · simp only [room, false_or]

end

/-! Lines. -/

/-- A line of texts in the first columns, each filled up to the width of its column. A line without
texts is two borders. -/
def IsPartial (widths : List Nat) (texts : List (List Char)) (line : List Char) : Prop :=
  if texts = [] then line = ['|', '|'] else IsRow (widths.take texts.length) texts line

section
variable {limit : Nat} {widths : List Nat} {row : List (List Char)}

/-- A line has no place for the columns behind its last text. -/
theorem line_take (short : row.length ≤ widths.length) :
    line (widths.take row.length) row = line widths row := by
  rw [line, line, @List.zipWith_eq_zipWith_take_min _ _ _ field widths row,
    Nat.min_eq_right short, List.take_length]

theorem isPartial_line {table : List (List (List Char))} (member : row ∈ table)
    (short : row.length ≤ widths.length)
    (longest : ∀ i w, widths[i]? = some w → IsGreatest (lengths table i) w) :
    IsPartial widths row (line widths row) := by
  unfold IsPartial
  split_ifs with bare
  · rw [bare, line, List.zipWith_nil_right]
    rfl
  -- With the columns that it does not reach left out, the row is a full one.
  · have count : row.length = (widths.take row.length).length := by
      rw [List.length_take, Nat.min_eq_left short]
    rw [← line_take short]
    refine isRow_line ?_ (fits_of_isGreatest member count fun i w found => longest i w ?_)
    · rintro none
      rw [none] at count
      exact bare (List.length_eq_zero_iff.mp count)
    · rw [List.getElem?_take] at found
      split_ifs at found
      exact found

theorem IsFramed.length_le {border : Char} {s : List Char} (framed : IsFramed border widths s)
    (kept : ∀ w ∈ widths, w ≤ limit) : s.length ≤ 1 + widths.length * (limit + 3) := by
  have total : (widths.map (· + 3)).sum ≤ (widths.map (· + 3)).length • (limit + 3) := by
    refine List.sum_le_card_nsmul _ _ fun n member => ?_
    obtain ⟨w, inside, rfl⟩ := List.mem_map.mp member
    exact Nat.add_le_add_right (kept w inside) 3
  rw [List.length_map, smul_eq_mul] at total
  rw [framed.length]
  exact Nat.add_le_add_left total 1

theorem forall_widths_le {table : List (List (List Char))}
    (longest : ∀ i w, widths[i]? = some w → IsGreatest (lengths table i) w)
    (kept : ∀ row ∈ table, ∀ text ∈ row, text.length ≤ limit) : ∀ w ∈ widths, w ≤ limit := by
  intro w member
  obtain ⟨i, found⟩ := List.getElem?_of_mem member
  obtain ⟨row, inside, text, here, rfl⟩ := (longest i w found).1
  exact kept row inside text (List.mem_of_getElem? here)

theorem length_rule_le (kept : ∀ w ∈ widths, w ≤ limit) : (rule widths).length ≤
    if widths.length = 0 then 2 else 1 + widths.length * (limit + 3) := by
  split_ifs with bare
  · rw [List.length_eq_zero_iff.mp bare]
    exact Nat.le_refl 2
  · exact (isRule_rule fun none => bare (List.length_eq_zero_iff.mpr none)).length_le kept

theorem length_le_of_isPartial {texts : List (List Char)} {line : List Char}
    (shown : IsPartial widths texts line) (kept : ∀ w ∈ widths, w ≤ limit) : line.length ≤
      if widths.length = 0 then 2 else 1 + widths.length * (limit + 3) := by
  unfold IsPartial at shown
  split_ifs at shown with none
  · rw [shown, List.length_cons, List.length_singleton]
    split_ifs with bare
    · exact Nat.le_refl 2
    -- One column has room for both borders, even under a limit of zero.
    · have one : limit + 3 ≤ widths.length * (limit + 3) :=
        Nat.le_mul_of_pos_left _ (Nat.pos_of_ne_zero bare)
      omega
  · have first : (widths.take texts.length).length ≤ widths.length := List.length_take_le' ..
    have some_ : widths.length ≠ 0 := by
      intro bare
      rw [bare, ← shown.count] at first
      exact none (List.length_eq_zero_iff.mp (Nat.le_zero.mp first))
    rw [if_neg some_]
    calc line.length
      _ ≤ 1 + (widths.take texts.length).length * (limit + 3) :=
        shown.length_le fun w member => kept w (List.mem_of_mem_take member)
      _ ≤ 1 + widths.length * (limit + 3) :=
        Nat.add_le_add_left (Nat.mul_le_mul_right _ first) 1

end

/-- Texts within the limit are shown unchanged, and all texts keep to it exactly if it is ample.
Then no line above the count is longer than one border and, for each column, the limit, a space on
both sides and one more border. Without columns a line is two borders. -/
theorem limit_kept (limit : Nat) {headers : List String} {rows : List (List String)}
    (short : ∀ row ∈ rows, row.length ≤ headers.length) :
    ∃ (widths : List Nat) (rule header : List Char) (body : List (List Char)),
      lines limit headers rows = some ([rule, header, rule] ++ body ++
        (if rows = [] then [] else [rule]) ++ [s!"{rows.length} row(s) returned".toList]) ∧
      widths.length = headers.length ∧
      List.Forall₂ (fun row line => IsPartial widths (clipped limit row) line)
        (headers :: rows) (header :: body) ∧
      (∀ row ∈ headers :: rows, ∀ v ∈ row,
        (v.length ≤ limit → clip limit v.toList = v.toList) ∧
        (3 ≤ limit → limit < v.length →
          clip limit v.toList = v.toList.take (limit - 3) ++ ellipsis)) ∧
      ((∀ row ∈ headers :: rows, ∀ text ∈ clipped limit row, text.length ≤ limit) ↔
        IsAmple limit (headers :: rows)) ∧
      (IsAmple limit (headers :: rows) → (∀ w ∈ widths, w ≤ limit) ∧
        ∀ line ∈ rule :: header :: body,
          line.length ≤ if headers.length = 0 then 2 else 1 + headers.length * (limit + 3)) := by
  obtain ⟨widths, shown, count, longest⟩ := exists_widths short limit
  have partial_ (row : List String) (member : row ∈ headers :: rows) :
      IsPartial widths (clipped limit row) (line widths (clipped limit row)) := by
    refine isPartial_line (List.mem_map_of_mem member) ?_ longest
    rw [clipped, List.length_map, count]
    rcases List.mem_cons.mp member with rfl | inside
    · exact Nat.le_refl _
    · exact short row inside
  refine ⟨widths, rule widths, line widths (clipped limit headers),
    rows.map fun row => line widths (clipped limit row), shown, count, ?_,
    fun row _ v _ => ⟨fun within => ?_, fun room long => ?_⟩, forall_clipped_iff, fun ample => ?_⟩
  · have body : List.Forall₂ (fun row line => IsPartial widths (clipped limit row) line)
        (headers :: rows) ((headers :: rows).map fun row => line widths (clipped limit row)) :=
      List.forall₂_map_right_iff.mpr (List.forall₂_same.mpr partial_)
    exact body
  · exact clip_of_le (by rwa [String.length_toList])
  · exact clip_of_lt room (by rwa [String.length_toList])
  · have kept : ∀ w ∈ widths, w ≤ limit :=
      forall_widths_le longest (List.forall_mem_map.mpr (forall_clipped_iff.mpr ample))
    have body : ∀ s ∈ (headers :: rows).map fun row => line widths (clipped limit row),
        s.length ≤ if widths.length = 0 then 2 else 1 + widths.length * (limit + 3) :=
      List.forall_mem_map.mpr fun row member => length_le_of_isPartial (partial_ row member) kept
    rw [← count]
    exact ⟨kept, List.forall_mem_cons.mpr ⟨length_rule_le kept, body⟩⟩

/-- A text that is cut to the limit, in a row that ends before the second column, and a row without
texts. -/
theorem limit_kept_note :
    let headers := ["v", "note"]
    let rows := [["abcdefghijkl"], []]
    (∀ row ∈ rows, row.length ≤ headers.length) ∧ IsAmple 8 (headers :: rows) ∧
    ∃ (widths : List Nat) (rule header cut bare : List Char),
      lines (8 : Nat) headers rows = some [rule, header, rule, cut, bare, rule, footer 2] ∧
      IsPartial widths ["abcde...".toList] cut ∧ bare = "||".toList ∧
      ∀ line ∈ [rule, header, cut, bare], line.length ≤ 23 := by
  intro headers rows
  have short : ∀ row ∈ rows, row.length ≤ headers.length := by decide
  have ample : IsAmple 8 (headers :: rows) := .inl (by decide)
  obtain ⟨widths, rule, header, body, shown, -, parts, -, -, within⟩ := limit_kept 8 short
  obtain ⟨cut, _, isCut, rest, rfl⟩ := List.forall₂_cons_left_iff.mp (List.forall₂_cons.mp parts).2
  obtain ⟨bare, _, isBare, none, rfl⟩ := List.forall₂_cons_left_iff.mp rest
  cases none
  exact ⟨short, ample, widths, rule, header, cut, bare, shown, isCut, isBare, (within ample).2⟩

/-- Under a limit of two characters a text of three is shown with five. -/
theorem narrow_limit_exceeded :
    lines (2 : Nat) ["v"] [["abc"]] = some ["+-------+".toList, "| v     |".toList,
      "+-------+".toList, "| ab... |".toList, "+-------+".toList, "1 row(s) returned".toList] ∧
    clipped (2 : Nat) ["abc"] = ["ab...".toList] ∧
    2 < "ab...".length ∧ 1 + 1 * (2 + 3) < "| ab... |".length := by
  decide +kernel

end Cellstore.Grid
