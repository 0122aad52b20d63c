import Cellstore.Proofs.Json

/-! Readings with more and with less room for brackets.
A text reads alike with both, unless its brackets find no room with less. -/
namespace Cellstore.Json

/-- The first reading is the second, but it may have stopped at a bracket. -/
def StopsEarlier {α : Type} (x y : Except Fault α) : Prop := x = y ∨ ∃ b, x = .error (.tooDeep b)

theorem StopsEarlier.refl {α : Type} (x : Except Fault α) : StopsEarlier x x := .inl rfl

theorem StopsEarlier.map {α β : Type} {x y : Except Fault α} (h : StopsEarlier x y) (f : α → β) :
    StopsEarlier (x.map f) (y.map f) := by
  rcases h with rfl | ⟨b, rfl⟩
  · exact .refl _
  · exact .inr ⟨b, rfl⟩

variable {less more : Room}

/-- How the readers with less room compare with those that have more, with this much fuel. -/
structure Comparison (less more : Room) (fuel : Nat) : Prop where
  value : ∀ depth s, StopsEarlier (@value less depth fuel s) (@value more depth fuel s)
  elements : ∀ depth s, StopsEarlier (@elements less depth fuel s) (@elements more depth fuel s)
  members : ∀ depth s, StopsEarlier (@members less depth fuel s) (@members more depth fuel s)

theorem comparison (le : less.brackets ≤ more.brackets) (fuel : Nat) : Comparison less more fuel := by
  -- Both run alike up to the first bracket that finds no room on the left.
  induction fuel with
  | zero => exact ⟨fun _ _ => .refl _, fun _ _ => .refl _, fun _ _ => .refl _⟩
  | succ fuel ih =>
    refine ⟨fun depth s => ?_, fun depth s => ?_, fun depth s => ?_⟩
    · unfold Json.value
      split
      · exact .refl _
      · by_cases full : less.brackets ≤ depth
        · exact .inr ⟨.array, if_pos full⟩
        · rw [if_neg full, if_neg fun h => full (Nat.le_trans le h)]
          split
          · exact .refl _
          · exact (ih.elements _ _).map _
      · by_cases full : less.brackets ≤ depth
        · exact .inr ⟨.object, if_pos full⟩
        · rw [if_neg full, if_neg fun h => full (Nat.le_trans le h)]
          split
          · exact .refl _
          · exact (ih.members _ _).map _
      · exact .refl _
    · unfold Json.elements
      rcases ih.value depth s with same | ⟨b, stopped⟩
      · rw [same]
        split
        · exact .refl _
        · split
          · exact .refl _
          · exact (ih.elements _ _).map _
          · exact .refl _
      · rw [stopped]
        exact .inr ⟨b, rfl⟩
    · unfold Json.members
      split
      · split
        · exact .refl _
        · split
          · rename_i rest _
            rcases ih.value depth (skipBlanks rest) with same | ⟨b, stopped⟩
            · rw [same]
              split
              · exact .refl _
              · split
                · exact .refl _
                · exact (ih.members _ _).map _
                · exact .refl _
            · rw [stopped]
              exact .inr ⟨b, rfl⟩
          · exact .refl _
      · exact .refl _

theorem read_of_brackets_le (le : less.brackets ≤ more.brackets) (text : String) :
    StopsEarlier (@read less text) (@read more text) := by
  unfold read
  simp only
  rcases (comparison le (2 * text.toList.length + 1)).value 0 (skipBlanks text.toList) with
    same | ⟨b, stopped⟩
  · rw [same]
    exact .refl _
  · rw [stopped]
    exact .inr ⟨b, rfl⟩

private theorem value_unclosed [Room] {n depth : Nat} (within : depth + n ≤ Room.brackets)
    (fuel : Nat) : value depth fuel (List.replicate n '[') = .error .malformed := by
  induction fuel using Nat.strongRecOn generalizing n depth with
  | ind fuel ih =>
    cases fuel with
    | zero => rfl
    | succ fuel =>
      cases n with
      | zero => rfl
      | succ n =>
        have listed : elements (depth + 1) fuel (List.replicate n '[') = .error .malformed := by
          cases fuel with
          | zero => rfl
          | succ fuel => rw [elements, ih fuel (by omega) (by omega)]
        rw [List.replicate_succ, value, if_neg (by omega)]
        cases n <;> exact congrArg (Except.map _) listed

theorem read_unclosed [Room] {n : Nat} (within : n ≤ Room.brackets) :
    read (String.ofList (List.replicate n '[')) = .error .malformed := by
  have blanks : skipBlanks (List.replicate n '[') = List.replicate n '[' := by cases n <;> rfl
  unfold read
  simp only [String.toList_ofList, blanks]
  rw [value_unclosed (by omega)]

end Cellstore.Json
