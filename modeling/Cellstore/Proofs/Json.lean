import Mathlib.Tactic.SplitIfs
import Cellstore.Json.Reader
import Cellstore.Json.Writer

/-! A written list of strings is read back as it was.
The reader undoes every escape of the writer, whatever the code units are: halves of
surrogate pairs included. Texts are known by their code units. -/
namespace Cellstore.Json
open Cellstore.Text Cellstore.Text.Utf8 Cellstore.Text.Quoted

private theorem hexValue?_hexDigit {n : Nat} (h : n < 16) : hexValue? (hexDigit n) = some n := by
  have digits : ∀ d : Fin 16, hexValue? (hexDigit d.val) = some d.val := by decide
  exact digits ⟨n, h⟩

private theorem hex_four (n : Nat) : hex 4 n =
    [hexDigit (n / 4096 % 16), hexDigit (n / 256 % 16), hexDigit (n / 16 % 16), hexDigit (n % 16)] := by
  simp [hex, Nat.div_div_eq_div_mul]

private theorem stringTail_hex (u : UInt16) (rest : List Char) :
    stringTail ('\\' :: 'u' :: hex 4 u.toNat ++ rest) =
      (stringTail rest).map fun r => (u :: r.1, r.2) := by
  have bound := u.toNat_lt
  have value : u.toNat / 4096 % 16 * 0x1000 + u.toNat / 256 % 16 * 0x100 +
      u.toNat / 16 % 16 * 0x10 + u.toNat % 16 = u.toNat := by omega
  have digit : ∀ m, hexValue? (hexDigit (m % 16)) = some (m % 16) := fun m =>
    hexValue?_hexDigit (Nat.mod_lt m (by decide))
  rw [hex_four, List.cons_append, List.cons_append, List.cons_append, List.cons_append,
    List.cons_append, List.cons_append, List.nil_append, stringTail]
  simp only [digit, Option.bind_eq_bind, Option.bind_some, value, UInt16.ofNat_toNat]
  cases stringTail rest <;> rfl

private theorem stringTail_escape {e c : Char} (rest : List Char) (notHex : e ≠ 'u')
    (escape : shortEscape? e = some c) :
    stringTail ('\\' :: e :: rest) = (stringTail rest).map fun r => (charUnits c ++ r.1, r.2) := by
  rw [stringTail]
  · simp only [escape, Option.bind_eq_bind, Option.bind_some]
    cases stringTail rest <;> rfl
  · intro a b c d more same
    exact absurd same notHex

private theorem stringTail_plain {c : Char} (rest : List Char) (quote : c ≠ '"') (mark : c ≠ '\\')
    (visible : 0x20 ≤ c.toNat) :
    stringTail (c :: rest) = (stringTail rest).map fun r => (charUnits c ++ r.1, r.2) := by
  rw [stringTail]
  · rw [if_neg (by simp [mark]; omega)]
    cases stringTail rest <;> rfl
  · exact quote
  · intro a b d e more same
    exact absurd same mark
  · intro e more same
    exact absurd same mark

private theorem charUnits_ofNat {u : UInt16} (small : u.toNat < 0xD800) :
    charUnits (Char.ofNat u.toNat) = [u] := by
  have code : (Char.ofNat u.toNat).toNat = u.toNat := by
    have valid : u.toNat.isValidChar := Or.inl small
    rw [Char.ofNat, dif_pos valid]
    rfl
  unfold charUnits
  simp only [code]
  rw [if_pos (by omega), UInt16.ofNat_toNat]

theorem stringTail_writeUnit (u : UInt16) (rest : List Char) :
    stringTail (writeUnit u ++ rest) = (stringTail rest).map fun r => (u :: r.1, r.2) := by
  have short : ∀ {n : Nat} {e : Char}, u.toNat = n → n < 0xD800 → e ≠ 'u' →
      shortEscape? e = some (Char.ofNat n) →
      stringTail (['\\', e] ++ rest) = (stringTail rest).map fun r => (u :: r.1, r.2) := by
    intro n e same small notHex escape
    subst same
    have step := stringTail_escape rest notHex escape
    rw [charUnits_ofNat small] at step
    exact step
  unfold writeUnit
  simp only
  split_ifs with quote mark visible feed ret tab form back
  · exact short quote (by decide) (by decide) rfl
  · exact short mark (by decide) (by decide) rfl
  · have small : u.toNat < 0xD800 := by omega
    have code : (Char.ofNat u.toNat).toNat = u.toNat := by
      have valid : u.toNat.isValidChar := Or.inl small
      rw [Char.ofNat, dif_pos valid]
      rfl
    have differs : ∀ c : Char, u.toNat ≠ c.toNat → Char.ofNat u.toNat ≠ c := by
      intro c other same
      exact other (by rw [← code, same])
    have step := stringTail_plain (c := Char.ofNat u.toNat) rest (differs '"' quote) (differs '\\' mark)
      (by rw [code]; exact visible.1)
    rw [charUnits_ofNat small] at step
    exact step
  · exact short feed (by decide) (by decide) rfl
  · exact short ret (by decide) (by decide) rfl
  · exact short tab (by decide) (by decide) rfl
  · exact short form (by decide) (by decide) rfl
  · exact short back (by decide) (by decide) rfl
  · exact stringTail_hex u rest

theorem stringTail_writeUnits (s : Units) (rest : List Char) :
    stringTail (s.flatMap writeUnit ++ '"' :: rest) = some (s, rest) := by
  induction s with
  | nil => rw [List.flatMap_nil, List.nil_append, stringTail]
  | cons u s ih =>
    rw [List.flatMap_cons, List.append_assoc, stringTail_writeUnit, ih]
    rfl

private theorem value_writeString [Room] (depth fuel : Nat) (s : Units) (rest : List Char) :
    value depth (fuel + 1) (writeString s ++ rest) = .ok (.string s, rest) := by
  have whole : writeString s ++ rest = '"' :: (s.flatMap writeUnit ++ '"' :: rest) := by
    simp [writeString]
  rw [whole, value, stringTail_writeUnits]
  rfl

private theorem elements_writeMore [Room] (depth : Nat) (s : Units) (more : List Units) (fuel : Nat)
    (enough : more.length + 2 ≤ fuel) :
    elements depth fuel (writeString s ++ writeMore more ++ [']']) =
      .ok ((s :: more).map .string, []) := by
  induction more generalizing s fuel with
  | nil =>
    obtain ⟨fuel, rfl⟩ : ∃ n, fuel = n + 2 := ⟨fuel - 2, by simp at enough; omega⟩
    rw [elements, writeMore, List.append_nil, value_writeString]
    rfl
  | cons next more ih =>
    obtain ⟨fuel, rfl⟩ : ∃ n, fuel = n + 2 := ⟨fuel - 2, by simp at enough; omega⟩
    have later := ih next (fuel + 1) (by simp at enough; omega)
    have split : writeString s ++ writeMore (next :: more) ++ [']'] =
        writeString s ++ (',' :: ' ' :: (writeString next ++ writeMore more ++ [']'])) := by
      simp [writeMore]
    have blanks : skipBlanks (' ' :: (writeString next ++ writeMore more ++ [']'])) =
        writeString next ++ writeMore more ++ [']'] := by
      simp [skipBlanks, isBlank, writeString]
    rw [elements, split, value_writeString]
    simp only [show skipBlanks (',' :: ' ' :: (writeString next ++ writeMore more ++ [']'])) =
      ',' :: ' ' :: (writeString next ++ writeMore more ++ [']']) from rfl, blanks, later]
    rfl

private theorem value_array [Room] {depth : Nat} (fuel : Nat) (within : depth < Room.brackets)
    (rest : List Char) : value depth (fuel + 1) ('[' :: '"' :: rest) =
      (elements (depth + 1) fuel ('"' :: rest)).map fun r => (.array r.1, r.2) := by
  rw [value, if_neg (by omega)]
  rfl

private theorem length_writeMore (more : List Units) : more.length ≤ (writeMore more).length := by
  induction more with
  | nil => exact Nat.le_refl 0
  | cons next more ih =>
    simp only [writeMore, List.length_cons, List.length_append]
    omega

theorem read_writeStrings [Room] (names : List Units) :
    read (writeStrings names) = .ok (.array (names.map .string)) := by
  cases names with
  | nil =>
    have empty : value 0 5 ['[', ']'] = .ok (.array [], []) := by
      rw [value, if_neg (Nat.not_le.mpr Room.positive)]
      rfl
    unfold read
    simp only [show (writeStrings []).toList = ['[', ']'] from rfl,
      show skipBlanks ['[', ']'] = ['[', ']'] from rfl, List.length_cons, List.length_nil, empty]
    rfl
  | cons s more =>
    have quoted : writeString s ++ writeMore more ++ [']'] =
        '"' :: (s.flatMap writeUnit ++ ['"'] ++ writeMore more ++ [']']) := by
      simp [writeString]
    have text : (writeStrings (s :: more)).toList =
        '[' :: '"' :: (s.flatMap writeUnit ++ ['"'] ++ writeMore more ++ [']']) := by
      rw [← quoted]
      simp [writeStrings]
    have enough : more.length + 2 ≤
        2 * ('[' :: (writeString s ++ writeMore more ++ [']'])).length := by
      have long := length_writeMore more
      simp only [writeString, List.length_append, List.length_cons, List.length_nil]
      omega
    have listed := elements_writeMore 1 s more _ enough
    rw [quoted] at listed
    unfold read
    simp only [text]
    rw [show ∀ t, skipBlanks ('[' :: t) = '[' :: t from fun _ => rfl, value_array _ Room.positive,
      listed]
    rfl

private theorem value_nested [Room] {n depth : Nat} (deep : Room.brackets ≤ depth + n) (fuel : Nat)
    (rest : List Char) : value depth (fuel + 2 * n + 1) (List.replicate (n + 1) '[' ++ rest) =
      .error (.tooDeep .array) := by
  induction n generalizing depth with
  | zero => exact if_pos deep
  | succ n ih =>
    rw [List.replicate_succ, List.cons_append, value]
    split_ifs with here
    · rfl
    -- What follows is no closing bracket, so it is read as the first element.
    · have inner := @ih (depth + 1) (by omega)
      rw [List.replicate_succ, List.cons_append] at inner ⊢
      show (elements (depth + 1) (fuel + 2 * n + 2) _).map _ = _
      rw [elements, inner]
      rfl

/-- Too many brackets are a fault of their own, whatever follows them. -/
theorem read_nested [Room] {n : Nat} (deep : Room.brackets < n) (rest : List Char) :
    read (String.ofList (List.replicate n '[' ++ rest)) = .error (.tooDeep .array) := by
  obtain ⟨n, rfl⟩ : ∃ m, n = m + 1 := ⟨n - 1, by omega⟩
  have refused : value 0 (2 * rest.length + 2 + 2 * n + 1) (List.replicate (n + 1) '[' ++ rest) =
      .error (.tooDeep .array) := value_nested (by omega) _ rest
  have fuel : 2 * (List.replicate (n + 1) '[' ++ rest).length + 1 =
      2 * rest.length + 2 + 2 * n + 1 := by
    rw [List.length_append, List.length_replicate]
    omega
  unfold read
  simp only [String.toList_ofList, fuel]
  rw [List.replicate_succ, List.cons_append] at refused ⊢
  rw [show ∀ t, skipBlanks ('[' :: t) = '[' :: t from fun _ => rfl, refused]

private theorem textOf?_charUnits (c : Char) (rest : Units) :
    textOf? (charUnits c ++ rest) = (textOf? rest).map (c :: ·) := by
  have scalar : c.toNat < 0xD800 ∨ (0xDFFF < c.toNat ∧ c.toNat < 0x110000) := c.valid
  unfold charUnits
  simp only
  split_ifs with small
  · have code : (UInt16.ofNat c.toNat).toNat = c.toNat := by
      rw [UInt16.toNat_ofNat']; omega
    rw [List.singleton_append]
    cases rest with
    | nil =>
      rw [textOf?, textOf?, code, if_neg (by omega), Char.ofNat_toNat]
      rfl
    | cons v rest =>
      rw [textOf?, code, if_neg (by omega), if_neg (by omega), Char.ofNat_toNat]
  · have high : (UInt16.ofNat (0xD800 + (c.toNat - 0x10000) / 0x400)).toNat =
        0xD800 + (c.toNat - 0x10000) / 0x400 := by
      rw [UInt16.toNat_ofNat']; omega
    have low : (UInt16.ofNat (0xDC00 + (c.toNat - 0x10000) % 0x400)).toNat =
        0xDC00 + (c.toNat - 0x10000) % 0x400 := by
      rw [UInt16.toNat_ofNat']; omega
    have code : 0x10000 + (0xD800 + (c.toNat - 0x10000) / 0x400 - 0xD800) * 0x400 +
        (0xDC00 + (c.toNat - 0x10000) % 0x400 - 0xDC00) = c.toNat := by omega
    rw [List.cons_append, List.singleton_append, textOf?, high, low, if_pos (by omega),
      if_pos (by omega), code, Char.ofNat_toNat]

theorem textOf?_units (s : String) : textOf? (units s) = some s.toList := by
  unfold units
  induction s.toList with
  | nil => rfl
  | cons c s ih => rw [List.flatMap_cons, textOf?_charUnits, ih]; rfl

theorem units_injective {s t : String} (h : units s = units t) : s = t := by
  have same := congrArg textOf? h
  rw [textOf?_units, textOf?_units] at same
  exact String.toList_inj.mp (Option.some.inj same)

end Cellstore.Json
