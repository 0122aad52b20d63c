import Mathlib.Tactic.SplitIfs
import Cellstore.Json.Reader
import Cellstore.Proofs.Results

/-! The fuel of the reader.
What a reading leaves is the end of its text, so every bracket is paid for by the characters that
are taken. With twice the length of the text there is enough fuel: more of it changes nothing. -/
namespace Cellstore.Json

theorem skipBlanks_suffix (s : List Char) : skipBlanks s <:+ s := List.dropWhile_suffix _

theorem stringTail_suffix {s rest : List Char} {u : Units} (read : stringTail s = some (u, rest)) :
    rest <:+ s := by
  fun_induction stringTail s generalizing u rest with
  | case1 => cases read
  | case2 tail =>
    cases read
    exact List.suffix_cons ..
  | case3 a b c d tail ih =>
    simp only [Option.bind_eq_bind, Option.bind_eq_some_iff] at read
    obtain ⟨_, -, _, -, _, -, _, -, r, inner, same⟩ := read
    cases same
    exact (ih inner).trans (List.suffix_append ['\\', 'u', a, b, c, d] tail)
  | case4 e tail _ ih =>
    simp only [Option.bind_eq_bind, Option.bind_eq_some_iff] at read
    obtain ⟨_, -, r, inner, same⟩ := read
    cases same
    exact (ih inner).trans (List.suffix_append ['\\', e] tail)
  | case5 => cases read
  | case6 c tail _ _ _ _ ih =>
    simp only [Option.bind_eq_bind, Option.bind_eq_some_iff] at read
    obtain ⟨r, inner, same⟩ := read
    cases same
    exact (ih inner).trans (List.suffix_cons c tail)

theorem after?_suffix {word s rest : List Char} (read : after? word s = some rest) :
    rest <:+ s := by
  induction word generalizing s with
  | nil => cases s <;> cases read <;> exact List.suffix_rfl
  | cons w word ih =>
    cases s with
    | nil => cases read
    | cons c s =>
      rw [after?] at read
      split_ifs at read
      exact (ih read).trans (List.suffix_cons ..)

theorem digits_suffix (s : List Char) : (digits s).2 <:+ s := List.dropWhile_suffix _

theorem fraction_suffix (s : List Char) : (fraction s).2 <:+ s := by
  unfold fraction
  split
  · split_ifs
    · exact List.suffix_rfl
    · exact (digits_suffix _).trans (List.suffix_cons ..)
  · exact List.suffix_rfl

theorem exponent?_suffix {s rest : List Char} {e : Int} (read : exponent? s = some (e, rest)) :
    rest <:+ s := by
  unfold exponent? at read
  split at read
  · simp only at read
    split_ifs at read <;> cases read
    all_goals
      refine ((digits_suffix _).trans ?_).trans (List.suffix_cons ..)
      split
      · exact List.suffix_cons ..
      · exact List.suffix_cons ..
      · exact List.suffix_rfl
  · cases read

theorem unsigned_suffix {negative : Bool} {s rest : List Char} {v : Value}
    (read : unsigned negative s = some (v, rest)) : rest <:+ s := by
  -- The whole part is a zero or a run of digits, then comes the fraction, then the exponent.
  unfold unsigned at read
  split at read
  rename_i whole tail shape
  have taken : tail <:+ s := by
    split at shape
    · cases shape
      exact List.suffix_cons ..
    · obtain rfl : (digits s).2 = tail := congrArg Prod.snd shape
      exact digits_suffix s
  have behind := (fraction_suffix tail).trans taken
  simp only at read
  split at read
  · cases read
  · split at read
    · rename_i found
      cases read
      exact (exponent?_suffix found).trans behind
    · split_ifs at read <;> cases read <;> exact behind

theorem scalar_suffix {s rest : List Char} {v : Value} (read : scalar s = some (v, rest)) :
    rest <:+ s := by
  unfold scalar at read
  split at read
  · cases read
    exact List.suffix_append "null".toList _
  · cases read
    exact List.suffix_append "true".toList _
  · cases read
    exact List.suffix_append "false".toList _
  · cases read
    exact List.suffix_append "NaN".toList _
  · obtain ⟨r, inner, same⟩ := Option.map_eq_some_iff.mp read
    cases same
    exact (after?_suffix inner).trans (List.suffix_cons ..)
  · obtain ⟨r, inner, same⟩ := Option.map_eq_some_iff.mp read
    cases same
    exact (after?_suffix inner).trans (List.suffix_append ['-', 'I'] _)
  · exact (unsigned_suffix read).trans (List.suffix_cons ..)
  · exact unsigned_suffix read

theorem ok_of_orMalformed {α : Type} {r : Option α} {a : α} (read : orMalformed r = .ok a) :
    r = some a := by
  cases r with
  | none => cases read
  | some b =>
    cases read
    rfl

theorem suffix_behind_blanks {s t u : List Char} (blanks : skipBlanks s = t) (h : u <:+ t) : u <:+ s :=
  h.trans (blanks ▸ skipBlanks_suffix s)

/-- What the readers leave with this much fuel. -/
structure LeavesEnd [Room] (fuel : Nat) : Prop where
  value : ∀ {depth s v rest}, value depth fuel s = .ok (v, rest) → rest <:+ s
  elements : ∀ {depth s vs rest}, elements depth fuel s = .ok (vs, rest) → rest <:+ s
  members : ∀ {depth s ms rest}, members depth fuel s = .ok (ms, rest) → rest <:+ s

theorem leavesEnd [Room] (fuel : Nat) : LeavesEnd fuel := by
  induction fuel with
  | zero => exact ⟨nofun, nofun, nofun⟩
  | succ fuel ih =>
    refine ⟨fun {depth s v rest} read => ?_, fun {depth s vs rest} read => ?_,
      fun {depth s ms rest} read => ?_⟩
    · unfold Json.value at read
      split at read
      · obtain ⟨r, inner, same⟩ := map_eq_ok_iff.mp read
        cases same
        exact (stringTail_suffix (ok_of_orMalformed inner)).trans (List.suffix_cons ..)
      · split_ifs at read
        refine List.IsSuffix.trans ?_ (List.suffix_cons ..)
        split at read
        · rename_i blanks
          cases read
          exact suffix_behind_blanks blanks (List.suffix_cons ..)
        · obtain ⟨r, inner, same⟩ := map_eq_ok_iff.mp read
          cases same
          exact (ih.elements inner).trans (skipBlanks_suffix _)
      · split_ifs at read
        refine List.IsSuffix.trans ?_ (List.suffix_cons ..)
        split at read
        · rename_i blanks
          cases read
          exact suffix_behind_blanks blanks (List.suffix_cons ..)
        · obtain ⟨r, inner, same⟩ := map_eq_ok_iff.mp read
          cases same
          exact (ih.members inner).trans (skipBlanks_suffix _)
      · exact scalar_suffix (ok_of_orMalformed read)
    · unfold Json.elements at read
      split at read
      · cases read
      · rename_i first
        refine List.IsSuffix.trans ?_ (ih.value first)
        split at read
        · rename_i blanks
          cases read
          exact suffix_behind_blanks blanks (List.suffix_cons ..)
        · rename_i blanks
          obtain ⟨r, inner, same⟩ := map_eq_ok_iff.mp read
          cases same
          have later := (ih.elements inner).trans (skipBlanks_suffix _)
          exact suffix_behind_blanks blanks (later.trans (List.suffix_cons ..))
        · cases read
    · unfold Json.members at read
      split at read
      · split at read
        · cases read
        · rename_i key
          refine List.IsSuffix.trans ?_ ((stringTail_suffix key).trans (List.suffix_cons ..))
          split at read
          · rename_i colon
            refine suffix_behind_blanks colon (List.IsSuffix.trans ?_ (List.suffix_cons ..))
            split at read
            · cases read
            · rename_i first
              refine List.IsSuffix.trans ?_ ((ih.value first).trans (skipBlanks_suffix _))
              split at read
              · rename_i blanks
                cases read
                exact suffix_behind_blanks blanks (List.suffix_cons ..)
              · rename_i blanks
                obtain ⟨r, inner, same⟩ := map_eq_ok_iff.mp read
                cases same
                have later := (ih.members inner).trans (skipBlanks_suffix _)
                exact suffix_behind_blanks blanks (later.trans (List.suffix_cons ..))
              · cases read
          · cases read
      · cases read

/-- With either of these amounts of fuel a text is read alike, if both are enough for it. -/
structure Agree [Room] (f g : Nat) : Prop where
  value : ∀ {depth s}, 2 * s.length + 1 ≤ f → 2 * s.length + 1 ≤ g →
    value depth f s = value depth g s
  elements : ∀ {depth s}, 2 * s.length + 2 ≤ f → 2 * s.length + 2 ≤ g →
    elements depth f s = elements depth g s
  members : ∀ {depth s}, 2 * s.length + 2 ≤ f → 2 * s.length + 2 ≤ g →
    members depth f s = members depth g s

theorem length_behind_blanks {s t : List Char} {c : Char} (blanks : skipBlanks s = c :: t) :
    (skipBlanks t).length < s.length := by
  have all := (skipBlanks_suffix s).length_le
  have behind := (skipBlanks_suffix t).length_le
  rw [blanks, List.length_cons] at all
  omega

theorem agree [Room] (f g : Nat) : Agree f g := by
  induction f generalizing g with
  | zero => exact ⟨by omega, by omega, by omega⟩
  | succ f ih =>
    cases g with
    | zero => exact ⟨by omega, by omega, by omega⟩
    | succ g =>
      have ih := ih g
      -- What is read first takes a character at least, so one unit less is enough for the rest.
      refine ⟨fun {depth s} hf hg => ?_, fun {depth s} hf hg => ?_, fun {depth s} hf hg => ?_⟩
      · unfold Json.value
        split
        · rfl
        · rename_i tail
          have short := (skipBlanks_suffix tail).length_le
          rw [List.length_cons] at hf hg
          split_ifs
          · rfl
          · split
            · rfl
            · rw [ih.elements (by omega) (by omega)]
        · rename_i tail
          have short := (skipBlanks_suffix tail).length_le
          rw [List.length_cons] at hf hg
          split_ifs
          · rfl
          · split
            · rfl
            · rw [ih.members (by omega) (by omega)]
        · rfl
      · unfold Json.elements
        rw [ih.value (by omega) (by omega)]
        split
        · rfl
        · rename_i first
          have left := ((leavesEnd g).value first).length_le
          split
          · rfl
          · rename_i blanks
            have short := length_behind_blanks blanks
            rw [ih.elements (by omega) (by omega)]
          · rfl
      · unfold Json.members
        split
        · rename_i tail
          rw [List.length_cons] at hf hg
          split
          · rfl
          · rename_i key
            have left := (stringTail_suffix key).length_le
            split
            · rename_i colon
              have short := length_behind_blanks colon
              rw [ih.value (by omega) (by omega)]
              split
              · rfl
              · rename_i first
                have last := ((leavesEnd g).value first).length_le
                split
                · rfl
                · rename_i blanks
                  have shorter := length_behind_blanks blanks
                  rw [ih.members (by omega) (by omega)]
                · rfl
            · rfl
        · rfl

/-- However much more fuel there is, a text is read alike. -/
theorem value_eq_of_fuel [Room] {depth fuel : Nat} {s : List Char}
    (enough : 2 * s.length + 1 ≤ fuel) :
    value depth fuel s = value depth (2 * s.length + 1) s :=
  (agree fuel _).value enough (Nat.le_refl _)

end Cellstore.Json
