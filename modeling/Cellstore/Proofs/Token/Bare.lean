import Cellstore.Proofs.Token.Scan

/-! Names without quotes.
A bare name is read as one token that spells it, even if it is a reserved word or begins like an
entry of several words: what stands behind it decides, and blanks there count as one space. -/
namespace Cellstore.Token
open Cellstore.Text (isBlank)

def isNameChar (c : Char) : Bool := c.isAlphanum || c == '_' || c == '$'

/-- A name that stands without quotes: an ASCII letter or underscore, then characters of names. -/
def IsBare : List Char → Prop
  | [] => False
  | c :: rest => (c.isAlpha = true ∨ c = '_') ∧ ∀ d ∈ rest, isNameChar d = true

instance : (s : List Char) → Decidable (IsBare s)
  | [] => inferInstanceAs (Decidable False)
  | c :: rest => @instDecidableAnd (c.isAlpha = true ∨ c = '_') _ inferInstance
      (List.decidableBAll _ rest)

theorem toNat_of_isNameChar {c : Char} (inName : isNameChar c = true) :
    36 ≤ c.toNat ∧ c.toNat ≤ 122 := by
  simp only [isNameChar, Char.isAlphanum, Bool.or_eq_true, beq_iff_eq] at inName
  rcases inName with ((letter | digit) | rfl) | rfl
  · have bounds := letter_bounds letter
    omega
  · simp only [Char.isDigit, Bool.and_eq_true, decide_eq_true_eq, ge_iff_le,
      UInt32.le_iff_toNat_le] at digit
    have bounds : 48 ≤ c.toNat ∧ c.toNat ≤ 57 := digit
    omega
  · decide
  · decide

theorem not_isBlank_of_isNameChar {c : Char} (inName : isNameChar c = true) : isBlank c = false := by
  have bounds := toNat_of_isNameChar inName
  simp only [isBlank, Bool.or_eq_false_iff, Bool.and_eq_false_iff, decide_eq_false_iff_not,
    beq_eq_false_iff_ne]
  omega

theorem not_isMark_of_isNameChar {c : Char} (inName : isNameChar c = true) : isMark c = false := by
  have apart : ∀ d ∈ marks, isNameChar d = false := forall_mem_of_all (by decide)
  rw [isMark, Bool.eq_false_iff]
  intro found
  simp [apart c (List.contains_iff_mem.mp found)] at inName

theorem IsBare.isNameChar {s : List Char} (bare : IsBare s) : ∀ c ∈ s, isNameChar c = true := by
  cases s with
  | nil => exact bare.elim
  | cons c rest =>
    obtain ⟨first, body⟩ := bare
    rw [List.forall_mem_cons]
    refine ⟨?_, body⟩
    rcases first with letter | rfl
    · simp [Token.isNameChar, Char.isAlphanum, letter]
    · decide

theorem IsBare.isPlainName {s : List Char} (bare : IsBare s) : isPlainName s = true := by
  cases s with
  | nil => exact bare.elim
  | cons c rest =>
    obtain ⟨first, body⟩ := bare
    have unbroken : rest.getLast? ≠ some '\n' := by
      intro last
      exact absurd (body '\n' (List.mem_of_getLast? last)) (by decide)
    rw [Token.isPlainName, if_neg unbroken]
    simp only [Bool.and_eq_true, Bool.or_eq_true, beq_iff_eq, List.all_eq_true]
    exact ⟨first, fun d member => by simpa [Token.isNameChar] using body d member⟩

/-! Which entries a text can open. -/

/-- The text as entries see it: a run of blanks is one space. `blank` tells whether a blank came
right before. -/
def squeezed (blank : Bool) : List Char → List Char
  | [] => []
  | c :: rest =>
    if isBlank c then if blank then squeezed true rest else ' ' :: squeezed true rest
    else c :: squeezed false rest

/-- Only an entry that leads the squeezed text is found. -/
theorem entry_of_follow {seen rest w : List Char} {size : Nat} {entry : Option (List Char)}
    {blank marked : Bool} (found : (follow seen size entry blank marked rest).entry = some w) :
    entry = some w ∨ w.map Char.toUpper ∈ entries ∧ w <+: seen ++ squeezed blank rest := by
  induction rest generalizing seen size entry blank marked with
  | nil =>
    simp only [follow, squeezed, List.append_nil] at found ⊢
    split_ifs at found with opens whole
    · cases found
      exact .inr ⟨List.contains_iff_mem.mp whole, List.prefix_rfl⟩
    · exact .inl found
    · exact .inl found
  | cons c rest ih =>
    simp only [follow] at found
    generalize latest : (if isEntry seen = true then some seen else entry) = next at found
    have here (tail : List Char) (last : next = some w) :
        entry = some w ∨ w.map Char.toUpper ∈ entries ∧ w <+: seen ++ tail := by
      rw [← latest] at last
      split_ifs at last with whole
      · cases last
        exact .inr ⟨List.contains_iff_mem.mp whole, List.prefix_append _ _⟩
      · exact .inl last
    by_cases opens : opensEntry seen = true
    · rw [if_pos opens] at found
      rw [squeezed]
      split_ifs at found ⊢ with gap before
      · exact (ih found).elim (here _) .inr
      · exact (ih found).elim (here _) fun later => .inr (by simpa using later)
      · exact (ih found).elim (here _) fun later => .inr (by simpa using later)
    · rw [if_neg opens] at found
      exact .inl found


theorem squeezed_append_of_solid {s : List Char} (solid : ∀ c ∈ s, isBlank c = false)
    (after : List Char) : squeezed false (s ++ after) = s ++ squeezed false after := by
  induction s with
  | nil => rfl
  | cons c s ih =>
    rw [List.forall_mem_cons] at solid
    simp only [List.cons_append, squeezed, solid.1, Bool.false_eq_true, if_false, ih solid.2]

theorem squeezed_append (blank : Bool) (s t : List Char) :
    ∃ last, squeezed blank (s ++ t) = squeezed blank s ++ squeezed last t := by
  induction s generalizing blank with
  | nil => exact ⟨blank, rfl⟩
  | cons c s ih =>
    rw [List.cons_append]
    simp only [squeezed]
    split_ifs
    · exact ih true
    · obtain ⟨last, same⟩ := ih true
      exact ⟨last, by rw [same, List.cons_append]⟩
    · obtain ⟨last, same⟩ := ih false
      exact ⟨last, by rw [same, List.cons_append]⟩

/-- What an entry that begins like a name goes on with after the name. -/
def continuations : List (List Char) :=
  (entries.filter fun e => e.takeWhile isNameChar ≠ []).map (·.dropWhile isNameChar)

/-- No entry goes on from a name into this text. -/
structure Parts (after : List Char) : Prop where
  ends : ∀ c ∈ after.head?, isBlank c = true ∨ isMark c = true
  closes : ∀ d ∈ continuations, ¬ d <+: (squeezed false after).map Char.toUpper

private theorem not_isName_entry : ∀ e ∈ entries, e.dropWhile isNameChar ≠ [] :=
  forall_mem_of_all (by decide)

theorem parts_nil : Parts [] where
  ends := by simp
  closes := by
    intro d member leads
    obtain ⟨e, inside, rfl⟩ := List.mem_map.mp member
    exact not_isName_entry e (List.mem_of_mem_filter inside) (List.prefix_nil.mp leads)

theorem parts_append {c : Char} {lead : List Char} (ends : isBlank c = true ∨ isMark c = true)
    (apart : ∀ d ∈ continuations, ¬ d <+: (squeezed false (c :: lead)).map Char.toUpper ∧
      ¬ (squeezed false (c :: lead)).map Char.toUpper <+: d) (more : List Char) :
    Parts (c :: (lead ++ more)) where
  ends := by simpa using ends
  closes := by
    intro d member leads
    obtain ⟨last, same⟩ := squeezed_append false (c :: lead) more
    rw [← List.cons_append, same, List.map_append] at leads
    rcases List.prefix_or_prefix_of_prefix leads (List.prefix_append _ _) with shorter | longer
    · exact (apart d member).1 shorter
    · exact (apart d member).2 longer

theorem isNameChar_toUpper {c : Char} (inName : isNameChar c = true) :
    isNameChar c.toUpper = true := by
  have all : ∀ n < 123, isNameChar (Char.ofNat n) = true →
      isNameChar (Char.ofNat n).toUpper = true := by decide
  have bounds := toNat_of_isNameChar inName
  have here := all c.toNat (by omega)
  rw [Char.ofNat_toNat] at here
  exact here inName

private theorem Parts.dropWhile_eq {after : List Char} (parts : Parts after) :
    ((squeezed false after).map Char.toUpper).dropWhile isNameChar =
      (squeezed false after).map Char.toUpper := by
  cases after with
  | nil => rfl
  | cons c after =>
    have space : isNameChar ' ' = false := by decide
    have mark : ∀ d ∈ marks, isNameChar d.toUpper = false := forall_mem_of_all (by decide)
    simp only [squeezed, Bool.false_eq_true, if_false]
    split_ifs with blank
    · simp [space]
    · have found := (parts.ends c rfl).resolve_left blank
      simp [mark c (List.contains_iff_mem.mp found)]

theorem matchEntry_bare {c : Char} {rest after : List Char} (bare : IsBare (c :: rest))
    (parts : Parts after) : (matchEntry c (rest ++ after)).entry = none := by
  cases found : (matchEntry c (rest ++ after)).entry with
  | none => rfl
  | some w =>
    have inName := bare.isNameChar
    rw [List.forall_mem_cons] at inName
    have solid : ∀ d ∈ rest, isBlank d = false :=
      fun d member => not_isBlank_of_isNameChar (inName.2 d member)
    obtain none | ⟨member, leads⟩ := entry_of_follow found
    · cases none
    rw [squeezed_append_of_solid solid, List.singleton_append, ← List.cons_append] at leads
    replace leads := leads.map Char.toUpper
    rw [List.map_append] at leads
    have name : ∀ d ∈ (c :: rest).map Char.toUpper, isNameChar d = true := by
      intro d inside
      obtain ⟨u, listed, rfl⟩ := List.mem_map.mp inside
      exact isNameChar_toUpper (bare.isNameChar u listed)
    have other := not_isName_entry _ member
    have begins : (w.map Char.toUpper).takeWhile isNameChar ≠ [] := by
      cases w with
      | nil => simp at other
      | cons d w =>
        obtain ⟨same, -⟩ := List.cons_prefix_cons.mp leads
        simp [same, name c.toUpper (by simp)]
    have goesOn : (w.map Char.toUpper).dropWhile isNameChar ∈ continuations :=
      List.mem_map.mpr ⟨_, List.mem_filter.mpr ⟨member, by simpa using begins⟩, rfl⟩
    -- Both sides of the prefix lose the name.
    obtain ⟨tail, whole⟩ := leads
    have cut := congrArg (List.dropWhile isNameChar) whole
    rw [List.dropWhile_append, if_neg (by simpa using other), List.dropWhile_append_of_pos name,
      parts.dropWhile_eq] at cut
    exact absurd ⟨tail, cut⟩ (parts.closes _ goesOn)

/-! The tokens of names and separators. -/

theorem wordKind_cases (previous : Option Kind) (w : List Char) :
    wordKind previous w = .word ∨ wordKind previous w = .command ∨
      wordKind previous w = .statement ∨ wordKind previous w = .blockStart ∨
      wordKind previous w = .other := by
  unfold wordKind
  dsimp only
  split_ifs <;> simp

theorem lexeme_bare {c : Char} {rest after : List Char} (bare : IsBare (c :: rest))
    (parts : Parts after) (previous : Option Kind) : lexeme previous c (rest ++ after) =
      .ok ⟨(c :: rest).length, some (wordKind previous (c :: rest), c :: rest)⟩ := by
  have inName := bare.isNameChar
  rw [List.forall_mem_cons] at inName
  have noDigit : c.isDigit = false := by
    rcases bare.1 with letter | rfl
    · exact not_isDigit_of_isAlpha letter
    · decide
  have noQuote : c ≠ '"' := by
    rintro rfl
    exact absurd inName.1 (by decide)
  have inside : ∀ d ∈ rest, (!isBlank d && !isMark d) = true := by
    intro d member
    simp [not_isBlank_of_isNameChar (inName.2 d member), not_isMark_of_isNameChar (inName.2 d member)]
  have outside : after.takeWhile (fun d => !isBlank d && !isMark d) = [] := by
    cases after with
    | nil => rfl
    | cons d after => rcases parts.ends d rfl with blank | mark <;> simp [*]
  simp only [lexeme, not_isBlank_of_isNameChar inName.1, noDigit, noQuote, matchEntry_bare bare parts,
    plainLexeme, not_isMark_of_isNameChar inName.1, List.takeWhile_append_of_pos inside, outside,
    List.append_nil]
  rfl

/-- No command starts after this kind, and words are no plain ones. -/
def IsCalm (previous : Option Kind) : Prop :=
  previous ≠ none ∧ previous ≠ some .semicolon ∧ previous ≠ some .blockStart ∧
    previous ≠ some .parameter

instance (previous : Option Kind) : Decidable (IsCalm previous) := inferInstanceAs (Decidable (_ ∧ _))

theorem not_swallows_of_isCalm {previous : Option Kind} (calm : IsCalm previous) (kind : Kind)
    (after : List Char) : swallows previous kind after = false := by
  simp [swallows, calm.2.1, calm.2.2.1, Option.isSome_iff_ne_none, calm.1]

theorem reads_bare {s after : List Char} (bare : IsBare s) (parts : Parts after)
    {previous : Option Kind} (calm : IsCalm previous) (start : Nat) :
    ∃ t, t.name? = some (String.ofList s) ∧ t.kind ≠ .parameter ∧
      Reads previous start s after [t] (some t.kind) := by
  obtain ⟨c, rest, rfl⟩ : ∃ c rest, s = c :: rest := by
    cases s with
    | nil => exact bare.elim
    | cons c rest => exact ⟨c, rest, rfl⟩
  have read := reads_of_lexeme (lexeme_bare bare parts previous)
    (not_swallows_of_isCalm calm _ after) start
  refine ⟨_, ?_, ?_, read⟩
  · have plain := bare.isPlainName
    rcases wordKind_cases previous (c :: rest) with kind | kind | kind | kind | kind <;>
      simp [name?, kind, plain]
  · rcases wordKind_cases previous (c :: rest) with kind | kind | kind | kind | kind <;> simp [kind]

def separators : List Char := ['(', ')', ',']

/-- Marks that lead no longer sign. -/
def plainMarks : List Char := ';' :: separators

theorem reads_plainMark {c : Char} (member : c ∈ plainMarks) (previous : Option Kind) (start : Nat)
    (after : List Char) :
    Reads previous start [c] after [⟨markKind c, String.ofList [c], start, start + 1⟩]
      (some (markKind c)) := by
  have sign : ∀ d ∈ plainMarks, isBlank d = false ∧ d.isDigit = false ∧ d ≠ '"' ∧ isMark d = true ∧
      opensEntry [d] = false ∧ markKind d ≠ .command := forall_mem_of_all (by decide)
  obtain ⟨blank, digit, quote, mark, opens, plain⟩ := sign c member
  have alone : (matchEntry c ([] ++ after)).entry = none := by
    cases after <;> simp [matchEntry, follow, opens]
  refine reads_of_lexeme ?_ (swallows_of_ne plain ..) start
  simp only [lexeme, blank, digit, quote, alone, plainLexeme, mark]
  rfl

theorem reads_separator {c : Char} (member : c ∈ separators) (previous : Option Kind) (start : Nat)
    (after : List Char) :
    Reads previous start [c] after [⟨markKind c, String.ofList [c], start, start + 1⟩]
      (some (markKind c)) :=
  reads_plainMark (List.mem_cons_of_mem _ member) previous start after

end Cellstore.Token
