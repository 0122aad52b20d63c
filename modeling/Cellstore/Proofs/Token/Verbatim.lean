import Cellstore.Proofs.Token.Value
import Mathlib.Data.List.Infix

/-! Values that keep their characters.
The tokens of a value reach from its first character to its last unless a comment stands at one of
its ends, or goes on behind it, or an embedded command begins in it. -/
namespace Cellstore.Token
open Cellstore.Text (isBlank upper)

/-- What stands behind blanks and comments, and behind `skipped` characters before them. -/
def behindGaps (skipped : Nat) : List Char → List Char
  | [] => []
  | c :: rest => match skipped with
    | k + 1 => behindGaps k rest
    | 0 =>
      if isBlank c then behindGaps 0 rest
      else match comment? (c :: rest) with
        | some (.ok n) => behindGaps (n - 1) rest
        | _ => c :: rest

/-- Does a word that starts an embedded command lead the text? -/
def leadsCommand (s : List Char) : Bool :=
  commandWords.contains (String.ofList (upper (s.takeWhile inWord)))

/-- Does the text begin with BEGIN and an embedded command? -/
def opensCommand (s : List Char) : Bool :=
  String.ofList (upper (s.takeWhile inWord)) == "BEGIN" &&
    leadsCommand (behindGaps 0 (s.dropWhile inWord))

def endsBefore (limit : Nat) : Except Unclosed Nat → Bool
  | .ok n => decide (n < limit)
  | .error _ => false

/-- Each comment in the text ends before the text does, and no embedded command begins in it. -/
def IsTame (s : List Char) : Prop :=
  ∀ t ∈ s.tails, (∀ r ∈ comment? t, endsBefore t.length r = true) ∧ opensCommand t = false

instance (s : List Char) : Decidable (IsTame s) := inferInstanceAs (Decidable (∀ t ∈ _, _ ∧ _))

/-- A text that may stand as a value without quotes. -/
structure IsUnquoted (v : List Char) : Prop where
  free : ∀ c ∈ v, c ∉ delimiters
  solid : Solid v

/-- No comment begins the text, ends it or goes on behind it, and no embedded command begins in
it. -/
structure IsVerbatim (v : List Char) : Prop where
  begins : comment? v = none
  tame : IsTame v

instance (v : List Char) : Decidable (IsUnquoted v) :=
  @decidable_of_iff _ ((∀ c ∈ v, c ∉ delimiters) ∧ Solid v)
    ⟨fun h => ⟨h.1, h.2⟩, fun h => ⟨h.free, h.solid⟩⟩
    (@instDecidableAnd _ _ (List.decidableBAll _ v) inferInstance)

instance (v : List Char) : Decidable (IsVerbatim v) :=
  decidable_of_iff (_ ∧ _) ⟨fun h => ⟨h.1, h.2⟩, fun h => ⟨h.begins, h.tame⟩⟩

theorem IsTame.of_suffix {s t : List Char} (tame : IsTame s) (suffix : t <:+ s) : IsTame t := by
  intro u member
  exact tame u ((List.mem_tails _ _).mpr (((List.mem_tails _ _).mp member).trans suffix))

theorem IsTame.closes {s : List Char} (tame : IsTame s) :
    ∀ r ∈ comment? s, ∃ n, r = .ok n ∧ n < s.length := by
  intro r found
  have closed := (tame s ((List.mem_tails _ _).mpr List.suffix_rfl)).1 r found
  cases r with
  | ok n => exact ⟨n, rfl, by simpa [endsBefore] using closed⟩
  | error unclosed => cases closed

/-! What stands behind blanks and comments. -/

theorem comment?_inv {s : List Char} {r : Except Unclosed Nat} (opens : comment? s = some r) :
    (∃ rest, s = '\x7b' :: '#' :: rest ∧ (commentSize true ('#', '\x7d') 1 rest).map (· + 2) = r) ∨
      ∃ rest, s = '/' :: '*' :: '+' :: rest ∧
        (commentSize false ('*', '/') 1 rest).map (· + 3) = r := by
  unfold comment? at opens
  split at opens
  · exact .inl ⟨_, rfl, Option.some.inj opens⟩
  · exact .inr ⟨_, rfl, Option.some.inj opens⟩
  · cases opens

theorem comment?_pos {s : List Char} {n : Nat} (closed : comment? s = some (.ok n)) : 0 < n := by
  rcases comment?_inv closed with ⟨rest, -, size⟩ | ⟨rest, -, size⟩
  · obtain ⟨m, -, rfl⟩ := map_eq_ok_iff.mp size
    exact Nat.succ_pos _
  · obtain ⟨m, -, rfl⟩ := map_eq_ok_iff.mp size
    exact Nat.succ_pos _

theorem outside_of_comment? {c : Char} {rest : List Char} {r : Except Unclosed Nat}
    (opens : comment? (c :: rest) = some r) : isBlank c = false ∧ inWord c = false := by
  rcases comment?_inv opens with ⟨_, shape, -⟩ | ⟨_, shape, -⟩ <;> cases shape <;> decide

theorem behindGaps_drop (k : Nat) (s : List Char) : behindGaps k s = behindGaps 0 (s.drop k) := by
  induction s generalizing k with
  | nil => simp [behindGaps]
  | cons c s ih =>
    cases k with
    | zero => rfl
    | succ k => rw [behindGaps, List.drop_succ_cons, ih]

theorem behindGaps_blank {c : Char} (blank : isBlank c = true) (rest : List Char) :
    behindGaps 0 (c :: rest) = behindGaps 0 rest := by
  rw [behindGaps, if_pos blank]

theorem behindGaps_comment {c : Char} {rest : List Char} {n : Nat}
    (closed : comment? (c :: rest) = some (.ok n)) :
    behindGaps 0 (c :: rest) = behindGaps 0 (rest.drop (n - 1)) := by
  have solid := (outside_of_comment? closed).1
  rw [behindGaps, if_neg (by simp [solid]), closed, ← behindGaps_drop]

theorem behindGaps_word {c : Char} (inside : inWord c = true) (rest : List Char) :
    behindGaps 0 (c :: rest) = c :: rest := by
  have solid : isBlank c = false := by
    rw [inWord, Bool.and_eq_true] at inside
    simpa using inside.1
  have plain : comment? (c :: rest) = none := by
    refine Option.eq_none_iff_forall_ne_some.mpr fun r opens => ?_
    rw [(outside_of_comment? opens).2] at inside
    cases inside
  rw [behindGaps, if_neg (by simp [solid]), plain]

/-! Reading a value from its head on. -/

def innerKinds : List Kind :=
  [.word, .star, .equals, .parameter, .blockStart, .statement, .command, .other]

theorem wordKind_inner (previous : Option Kind) (w : List Char) :
    wordKind previous w ∈ innerKinds := by
  rcases wordKind_cases previous w with same | same | same | same | same <;> simp [innerKinds, same]

theorem wordKind_command {previous : Option Kind} {w : List Char}
    (kind : wordKind previous w = .command) :
    commandWords.contains (String.ofList (upper w)) = true := by
  unfold wordKind at kind
  dsimp only at kind
  split_ifs at kind with _ command
  exact command

theorem wordKind_blockStart {previous : Option Kind} {w : List Char}
    (kind : wordKind previous w = .blockStart) : String.ofList (upper w) = "BEGIN" := by
  unfold wordKind at kind
  dsimp only at kind
  split_ifs at kind with _ _ _ begins
  exact begins

/-- What the head of a value adds: nothing for a gap, and else one token. -/
inductive Heads (start : Nat) (s front : List Char) : List Token → Prop where
  | blank (gap : ∃ c ∈ s.head?, isBlank c = true) (single : front.length = 1) :
      Heads start s front []
  | comment {n : Nat} (closed : comment? s = some (.ok n)) (short : front.length < s.length) :
      Heads start s front []
  | token {t : Token} (inner : t.kind ∈ innerKinds) (starts : t.start = start)
      (stops : t.stop = start + front.length) : Heads start s front [t]

/-- After this kind no embedded command begins. -/
structure Safe (previous : Option Kind) (s : List Char) : Prop where
  inside : previous ≠ none ∧ previous ≠ some .semicolon
  command : previous = some .blockStart → leadsCommand (behindGaps 0 s) = false

theorem Safe.of_kind {kind : Kind} {s : List Char} (plain : kind ≠ .semicolon)
    (command : kind = .blockStart → leadsCommand (behindGaps 0 s) = false) : Safe (some kind) s :=
  ⟨⟨by simp, by simpa using plain⟩, fun same => command (Option.some.inj same)⟩

theorem Safe.word {c : Char} {rest : List Char} {previous : Option Kind} (inside : inWord c = true)
    (tame : IsTame (c :: rest)) (safe : Safe previous (c :: rest)) (after : List Char) :
    let kind := wordKind previous ((c :: rest).takeWhile inWord)
    swallows previous kind after = false ∧ Safe (some kind) ((c :: rest).dropWhile inWord) := by
  intro kind
  have begins := (tame _ ((List.mem_tails _ _).mpr List.suffix_rfl)).2
  constructor
  · by_cases command : kind = .command
    · have leads := wordKind_command command
      have free : previous ≠ some .blockStart := by
        intro block
        have none := safe.command block
        rw [behindGaps_word inside, leadsCommand, leads] at none
        cases none
      simp [swallows, safe.inside, free, Option.isSome_iff_ne_none]
    · exact swallows_of_ne command previous after
  · refine .of_kind ?_ fun block => ?_
    · have apart : ∀ k ∈ innerKinds, k ≠ .semicolon := by decide
      exact apart kind (wordKind_inner ..)
    · rw [opensCommand, wordKind_blockStart block] at begins
      simpa using begins

theorem reads_head {c e : Char} {rest : List Char} (free : ∀ d ∈ c :: rest, d ∉ delimiters)
    (ends : e = ',' ∨ e = ')') (after : List Char) (tame : IsTame (c :: rest))
    {previous : Option Kind} (safe : Safe previous (c :: rest)) (start : Nat) :
    ∃ front back added next, c :: rest = front ++ back ∧ front ≠ [] ∧
      Reads previous start front (back ++ e :: after) added next ∧
      Heads start (c :: rest) front added ∧ Safe next back := by
  obtain ⟨x, read, takes⟩ := lexeme_unquoted ends free tame.closes previous after
  -- The characters of the lexeme, and what is left of the value.
  have parts {n : Nat} (positive : 0 < n) (inside : n ≤ (c :: rest).length) :
      ∃ front back, rest = front ++ back ∧ n = (c :: front).length := by
    refine ⟨rest.take (n - 1), rest.drop (n - 1), (List.take_append_drop ..).symm, ?_⟩
    simp only [List.length_cons, List.length_take] at inside ⊢
    omega
  cases takes with
  | blank gap =>
    have blank : isBlank c = true := by simpa using gap
    refine ⟨[c], rest, [], previous, rfl, by simp, reads_of_gap read start, .blank gap rfl,
      safe.inside, fun block => ?_⟩
    rw [← behindGaps_blank blank]
    exact safe.command block
  | @comment n closed =>
    obtain ⟨m, same, short⟩ := tame.closes _ closed
    cases same
    obtain ⟨front, back, rfl, rfl⟩ := parts (comment?_pos closed) (Nat.le_of_lt short)
    rw [List.append_assoc] at read
    refine ⟨c :: front, back, [], previous, rfl, by simp, reads_of_gap read start,
      .comment closed short, safe.inside, fun block => ?_⟩
    have later := safe.command block
    rwa [behindGaps_comment closed, List.length_cons, Nat.add_sub_cancel, List.drop_left] at later
  | @sign n kind text plain positive inside =>
    have inner : ∀ k ∈ signKinds, k ∈ innerKinds ∧ k ≠ .command ∧ k ≠ .blockStart ∧
        k ≠ .semicolon := by decide
    obtain ⟨inner, command, block, semicolon⟩ := inner kind plain
    obtain ⟨front, back, rfl, rfl⟩ := parts positive inside
    rw [List.append_assoc] at read
    refine ⟨c :: front, back, _, some kind, rfl, by simp,
      reads_of_lexeme read (swallows_of_ne command ..) start, .token inner rfl rfl, ?_⟩
    exact .of_kind semicolon fun same => absurd same block
  | word filled =>
    have inside : inWord c = true := by
      by_contra outside
      simp [outside] at filled
    have front : (c :: rest).takeWhile inWord = c :: rest.takeWhile inWord := by simp [inside]
    have back : (c :: rest).dropWhile inWord = rest.dropWhile inWord := by simp [inside]
    obtain ⟨keeps, later⟩ := safe.word inside tame (rest.dropWhile inWord ++ e :: after)
    rw [front] at read keeps later
    rw [back] at later
    have whole : lexeme previous c
        (rest.takeWhile inWord ++ (rest.dropWhile inWord ++ e :: after)) =
          lexeme previous c (rest ++ e :: after) := by
      rw [← List.append_assoc, List.takeWhile_append_dropWhile]
    refine ⟨c :: rest.takeWhile inWord, rest.dropWhile inWord, _, _, ?_, by simp,
      reads_of_lexeme (whole.trans read) keeps start, .token (wordKind_inner ..) rfl rfl, later⟩
    rw [List.cons_append, List.takeWhile_append_dropWhile]

section
variable {start : Nat} {s front : List Char} {added : List Token}

theorem Heads.inner (heads : Heads start s front added) : ∀ t ∈ added, t.kind ∈ innerKinds := by
  cases heads with
  | blank => simp
  | comment => simp
  | token inner => simpa using inner

theorem Heads.begins (heads : Heads start s front added) (solid : ∃ c ∈ s.head?, isBlank c = false)
    (plain : comment? s = none) : ∃ t ∈ added.head?, t.start = start := by
  cases heads with
  | blank gap =>
    obtain ⟨c, first, blank⟩ := gap
    obtain ⟨d, same, solid⟩ := solid
    rw [Option.mem_unique same first, blank] at solid
    cases solid
  | comment closed =>
    rw [plain] at closed
    cases closed
  | token _ starts => exact ⟨_, rfl, starts⟩

theorem Heads.ends (heads : Heads start s s added) (solid : ∃ c ∈ s.getLast?, isBlank c = false) :
    ∃ t ∈ added.getLast?, t.stop = start + s.length := by
  cases heads with
  | blank gap single =>
    obtain ⟨c, rfl⟩ := List.length_eq_one_iff.mp single
    obtain ⟨d, last, solid⟩ := solid
    obtain ⟨b, first, blank⟩ := gap
    cases first
    rw [List.getLast?_singleton, Option.mem_some_iff] at last
    rw [last] at blank
    rw [blank] at solid
    cases solid
  | comment _ short => exact absurd short (Nat.lt_irrefl _)
  | token _ _ stops => exact ⟨_, rfl, stops⟩

end

/-- The tokens of a value that is tame cover it, up to comments and blanks at its ends. -/
theorem reads_tame {e : Char} (ends : e = ',' ∨ e = ')') (after : List Char) {s : List Char}
    (free : ∀ c ∈ s, c ∉ delimiters) (tame : IsTame s) {previous : Option Kind}
    (safe : Safe previous s) (start : Nat) :
    ∃ ts next, Reads previous start s (e :: after) ts next ∧ (∀ t ∈ ts, t.kind ∈ innerKinds) ∧
      ((∃ c ∈ s.head?, isBlank c = false) → comment? s = none → ∃ t ∈ ts.head?, t.start = start) ∧
      ((∃ c ∈ s.getLast?, isBlank c = false) → ∃ t ∈ ts.getLast?, t.stop = start + s.length) := by
  induction size : s.length using Nat.strongRecOn generalizing s previous start with
  | _ length ih =>
    subst size
    cases s with
    | nil => exact ⟨[], previous, reads_blanks (by simp [Blanks]) .., by simp, by simp, by simp⟩
    | cons c rest =>
      obtain ⟨front, back, added, next, whole, filled, read, heads, later⟩ :=
        reads_head free ends after tame safe start
      have shorter : back.length < (c :: rest).length := by
        have positive := List.length_pos_iff.mpr filled
        rw [whole, List.length_append]
        omega
      rw [whole] at free tame heads ⊢
      by_cases none : back = []
      · subst none
        rw [List.append_nil] at heads ⊢
        exact ⟨added, next, read, heads.inner, heads.begins, heads.ends⟩
      obtain ⟨ts, last, reads, inner, -, stops⟩ := ih _ shorter
        (fun d member => free d (List.mem_append_right _ member))
        (tame.of_suffix (List.suffix_append ..)) later (start + front.length) rfl
      refine ⟨added ++ ts, last, read.append reads, ?_, ?_, ?_⟩
      · exact fun t member => (List.mem_append.mp member).elim (heads.inner t) (inner t)
      · intro solid plain
        obtain ⟨t, first, starts⟩ := heads.begins solid plain
        exact ⟨t, by simp [List.head?_append, Option.mem_def.mp first], starts⟩
      · rintro ⟨d, final, solid⟩
        have ended : back.getLast? = some d := by
          rwa [List.getLast?_append_of_ne_nil _ none] at final
        obtain ⟨t, final, stop⟩ := stops ⟨d, ended, solid⟩
        refine ⟨t, by simp [List.getLast?_append, Option.mem_def.mp final], ?_⟩
        rw [stop, List.length_append, Nat.add_assoc]

theorem reads_value {e : Char} (ends : e = ',' ∨ e = ')') (after : List Char) {v : List Char}
    (unquoted : IsUnquoted v) (verbatim : IsVerbatim v) {previous : Option Kind}
    (calm : IsCalm previous) (start : Nat) :
    ∃ ts next, Reads previous start v (e :: after) ts next ∧ (∀ t ∈ ts, t.kind ∈ innerKinds) ∧
      (∃ t ∈ ts.head?, t.start = start) ∧ ∃ t ∈ ts.getLast?, t.stop = start + v.length := by
  have safe : Safe previous v := ⟨⟨calm.1, calm.2.1⟩, fun block => absurd block calm.2.2.1⟩
  obtain ⟨ts, next, reads, inner, starts, stops⟩ :=
    reads_tame ends after unquoted.free verbatim.tame safe start
  exact ⟨ts, next, reads, inner, starts unquoted.solid.1 verbatim.begins, stops unquoted.solid.2⟩

end Cellstore.Token
