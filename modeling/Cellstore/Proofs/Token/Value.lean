import Cellstore.Proofs.Token.Bare

/-! The head of a value without quotes.
A comma or a parenthesis ends whatever is read before it: no number, entry or word goes on behind
it. Only a comment does. -/
namespace Cellstore.Token
open Cellstore.Text (isBlank upper)

/-- Quotes, and the marks that end values, lists and statements. -/
def delimiters : List Char := ['\'', '"', ',', '(', ')', ';']

/-- The comment that a text begins with: its size, or that it does not end. -/
def comment? : List Char → Option (Except Unclosed Nat)
  | '\x7b' :: '#' :: rest => some ((commentSize true ('#', '\x7d') 1 rest).map (· + 2))
  | '/' :: '*' :: '+' :: rest => some ((commentSize false ('*', '/') 1 rest).map (· + 3))
  | _ => none

def inWord (c : Char) : Bool := !isBlank c && !isMark c

def signKinds : List Kind := [.star, .equals, .parameter, .other]

/-- What is read at the head of a value: a blank, a comment, a sign or number, or a word. -/
inductive Takes (previous : Option Kind) (s : List Char) : Lexeme → Prop where
  | blank (gap : ∃ c ∈ s.head?, isBlank c = true) : Takes previous s ⟨1, none⟩
  | comment {n : Nat} (closed : comment? s = some (.ok n)) : Takes previous s ⟨n, none⟩
  | sign {n : Nat} {kind : Kind} {text : List Char} (plain : kind ∈ signKinds) (positive : 0 < n)
      (inside : n ≤ s.length) : Takes previous s ⟨n, some (kind, text)⟩
  | word (filled : s.takeWhile inWord ≠ []) :
      Takes previous s ⟨(s.takeWhile inWord).length,
        some (wordKind previous (s.takeWhile inWord), s.takeWhile inWord)⟩

theorem commentSize_append {nests : Bool} {close : Char × Char} {depth n : Nat} {s : List Char}
    (closed : commentSize nests close depth s = .ok n) (after : List Char) :
    commentSize nests close depth (s ++ after) = .ok n := by
  fun_induction commentSize nests close depth s generalizing n with
  | case1 depth a b rest done =>
    cases closed
    rw [List.cons_append, List.cons_append, commentSize, if_pos done]
  | case2 depth a b more next c rest nested =>
    rename_i ih
    obtain ⟨m, inner, rfl⟩ := map_eq_ok_iff.mp closed
    rw [List.cons_append, List.cons_append, List.cons_append, commentSize, if_neg more]
    dsimp only
    rw [if_pos nested, ih inner]
    rfl
  | case3 depth a b more next c rest plain =>
    rename_i ih
    obtain ⟨m, inner, rfl⟩ := map_eq_ok_iff.mp closed
    rw [List.cons_append, List.cons_append, List.cons_append, commentSize, if_neg more]
    dsimp only
    rw [if_neg plain]
    exact congrArg (Except.map (· + 1)) (ih inner)
  | case4 => cases closed
  | case5 => cases closed

theorem le_size_follow (seen : List Char) (size : Nat) (entry : Option (List Char))
    (blank marked : Bool) (s : List Char) :
    size ≤ (follow seen size entry blank marked s).size := by
  induction s generalizing seen size entry blank marked with
  | nil =>
    rw [follow]
    split_ifs <;> simp
  | cons d s ih =>
    have later (seen : List Char) (blank : Bool) (entry : Option (List Char)) :=
      Nat.le_of_succ_le (ih seen (size + 1) entry blank (marked || isMark d))
    by_cases opens : opensEntry seen = true
    · rw [follow]
      dsimp only
      rw [if_pos opens]
      split_ifs <;> exact later ..
    · rw [follow_of_not_opens (by simpa using opens)]

theorem size_matchEntry_pos {c : Char} {rest w : List Char}
    (found : (matchEntry c rest).entry = some w) : 0 < (matchEntry c rest).size := by
  unfold matchEntry at *
  by_cases opens : opensEntry [c] = true
  · cases rest with
    | nil => simp [follow, opens]
    | cons d rest =>
      rw [follow]
      dsimp only
      rw [if_pos opens]
      split_ifs <;> exact le_size_follow ..
  · rw [follow_of_not_opens (by simpa using opens)] at found
    cases found

theorem prefix_of_not_mem {α : Type} {w a b : List α} {x : α} (leads : w <+: a ++ x :: b)
    (free : x ∉ w) : w <+: a := by
  have parts := List.prefix_or_prefix_of_prefix leads (List.prefix_append a (x :: b))
  rcases parts with inside | ⟨t, rfl⟩
  · exact inside
  · rw [List.prefix_append_right_inj] at leads
    cases t with
    | nil => simp
    | cons y t =>
      obtain ⟨rfl, -⟩ := List.cons_prefix_cons.mp leads
      simp at free

theorem mem_squeezed {blank : Bool} {s : List Char} {d : Char} (inside : d ∈ squeezed blank s) :
    d = ' ' ∨ d ∈ s := by
  induction s generalizing blank with
  | nil => simp [squeezed] at inside
  | cons c s ih =>
    rw [squeezed] at inside
    split_ifs at inside
    · exact (ih inside).imp_right (List.mem_cons_of_mem c)
    · rcases List.mem_cons.mp inside with space | later
      · exact .inl space
      · exact (ih later).imp_right (List.mem_cons_of_mem c)
    · rcases List.mem_cons.mp inside with rfl | later
      · exact .inr (List.mem_cons_self ..)
      · exact (ih later).imp_right (List.mem_cons_of_mem c)

theorem prefix_of_squeezed {w s : List Char} (solid : ' ' ∉ w) (leads : w <+: squeezed false s) :
    w <+: s := by
  induction w generalizing s with
  | nil => simp
  | cons d w ih =>
    rw [List.mem_cons, not_or] at solid
    cases s with
    | nil => simp [squeezed] at leads
    | cons c s =>
      simp only [squeezed, Bool.false_eq_true, if_false] at leads
      split_ifs at leads
      · exact absurd (List.cons_prefix_cons.mp leads).1.symm solid.1
      · obtain ⟨rfl, more⟩ := List.cons_prefix_cons.mp leads
        exact List.cons_prefix_cons.mpr ⟨rfl, ih solid.2 more⟩

theorem eq_quote_of_toUpper {c : Char} (same : c.toUpper = '\'') : c = '\'' := by
  by_cases lower : 'a'.val ≤ c.val ∧ c.val ≤ 'z'.val
  · have all : ∀ n < 123, (Char.ofNat n).toUpper ≠ '\'' ∨ Char.ofNat n = '\'' := by decide
    have here := all c.toNat (Nat.lt_succ_of_le lower.2)
    rw [Char.ofNat_toNat] at here
    exact here.resolve_left (not_not_intro same)
  · have kept : c.toUpper = c := dif_neg lower
    rw [← kept, same]

private theorem ne_quotation {c : Char} {rest w : List Char}
    (free : ∀ d ∈ c :: rest, d ∉ delimiters) (leads : w <+: c :: squeezed false rest) :
    w ≠ ['\''] ∧ w.map Char.toUpper ≠ ['N', '\''] := by
  obtain ⟨freeHead, freeRest⟩ := List.forall_mem_cons.mp free
  constructor
  · rintro rfl
    obtain ⟨rfl, -⟩ := List.cons_prefix_cons.mp leads
    exact freeHead (by decide)
  · intro spelled
    obtain ⟨n, q, rfl⟩ : ∃ n q, w = [n, q] := by
      have two := congrArg List.length spelled
      rw [List.length_map] at two
      exact List.length_eq_two.mp two
    obtain rfl : q = '\'' := eq_quote_of_toUpper (by simpa using congrArg List.getLast? spelled)
    obtain ⟨-, more⟩ := List.cons_prefix_cons.mp leads
    rcases mem_squeezed (more.subset (List.mem_cons_self ..)) with space | inside
    · cases space
    · exact freeRest _ inside (by decide)

private theorem free_entries : ∀ w ∈ entries, ',' ∉ w ∧ ')' ∉ w := forall_mem_of_all (by decide)

/-! Nothing but a comment is read beyond the mark behind a value. -/

section
variable {e : Char} (ends : e = ',' ∨ e = ')')
include ends

theorem numberSize_le (parameter point : Bool) (exponent : Nat) (s after : List Char) :
    numberSize parameter point exponent (s ++ e :: after) ≤ s.length := by
  have stops : e.isDigit = false ∧ e ≠ '.' ∧ e ≠ '+' ∧ e ≠ '-' ∧ e ≠ 'e' ∧ e ≠ 'E' := by
    rcases ends with rfl | rfl <;> decide
  induction s generalizing point exponent with
  | nil => simp [numberSize, stops]
  | cons d s ih =>
    have shorter (point : Bool) (exponent : Nat) := Nat.succ_le_succ (ih point exponent)
    simp only [List.cons_append, numberSize]
    split_ifs <;> first | exact shorter _ _ | exact Nat.zero_le _

private theorem not_mem_of_toUpper {w : List Char} (member : w.map Char.toUpper ∈ entries) :
    e ∉ w := by
  intro inside
  have listed : e.toUpper ∈ w.map Char.toUpper := List.mem_map_of_mem inside
  rcases ends with rfl | rfl
  · exact (free_entries _ member).1 listed
  · exact (free_entries _ member).2 listed

theorem not_opensEntry (seen : List Char) : opensEntry (seen ++ [e]) = false := by
  rw [opensEntry, List.any_eq_false]
  intro w member leads
  obtain ⟨tail, rfl⟩ := List.isPrefixOf_iff_prefix.mp leads
  have apart := free_entries _ member
  rcases ends with rfl | rfl <;> simp at apart

theorem size_follow_le (seen : List Char) (size : Nat) (entry : Option (List Char))
    (blank marked : Bool) (s after : List Char) :
    (follow seen size entry blank marked (s ++ e :: after)).size ≤ size + s.length + 1 := by
  have closed := not_opensEntry ends
  have solid : isBlank e = false := by rcases ends with rfl | rfl <;> decide
  induction s generalizing seen size entry blank marked with
  | nil =>
    rw [List.nil_append, follow]
    dsimp only
    by_cases opens : opensEntry seen = true
    · rw [if_pos opens, if_neg (by simp [solid]), follow_of_not_opens (closed seen)]
      simp
    · rw [if_neg opens]
      simp
  | cons d s ih =>
    have later (seen : List Char) (blank : Bool) (entry : Option (List Char)) :
        (follow seen (size + 1) entry blank (marked || isMark d) (s ++ e :: after)).size ≤
          size + (s.length + 1) + 1 := by
      have further := ih seen (size + 1) entry blank (marked || isMark d)
      omega
    by_cases opens : opensEntry seen = true
    · rw [List.cons_append, follow]
      dsimp only
      rw [if_pos opens]
      split_ifs <;> exact later ..
    · rw [follow_of_not_opens (by simpa using opens)]
      dsimp only
      omega

theorem matched_in_value {c : Char} {rest after w : List Char}
    (found : (matchEntry c (rest ++ e :: after)).entry = some w) :
    w <+: c :: squeezed false rest := by
  obtain none | ⟨member, leads⟩ := entry_of_follow found
  · cases none
  obtain ⟨last, same⟩ := squeezed_append false rest (e :: after)
  have mark : squeezed last (e :: after) = e :: squeezed false after := by
    have solid : isBlank e = false := by rcases ends with rfl | rfl <;> decide
    simp [squeezed, solid]
  rw [same, mark, List.singleton_append, ← List.cons_append] at leads
  exact prefix_of_not_mem leads (not_mem_of_toUpper ends member)

private theorem takeWhile_inWord (s after : List Char) :
    (s ++ e :: after).takeWhile inWord = s.takeWhile inWord := by
  induction s with
  | nil =>
    have outside : inWord e = false := by rcases ends with rfl | rfl <;> decide
    simp [outside]
  | cons d s ih => simp only [List.cons_append, List.takeWhile_cons, ih]

private theorem takes_plain {c : Char} (free : c ∉ delimiters) (solid : isBlank c = false)
    (previous : Option Kind) (rest after : List Char) :
    Takes previous (c :: rest) (plainLexeme previous c (rest ++ e :: after)) := by
  have plain : ∀ c ∈ marks, c ∉ delimiters → markKind c ∈ signKinds := forall_mem_of_all (by decide)
  unfold plainLexeme
  split_ifs with mark
  · exact .sign (plain c (List.contains_iff_mem.mp mark) free) Nat.one_pos (by simp)
  · have inside : inWord c = true := by simp [inWord, solid, mark]
    have word : (c :: rest).takeWhile inWord = c :: rest.takeWhile inWord := by simp [inside]
    have filled : (c :: rest).takeWhile inWord ≠ [] := by simp [word]
    have cut : (rest ++ e :: after).takeWhile (fun d => !isBlank d && !isMark d) =
        rest.takeWhile inWord := takeWhile_inWord ends rest after
    rw [cut, ← word]
    exact .word filled

theorem lexeme_unquoted {c : Char} {rest : List Char} (free : ∀ d ∈ c :: rest, d ∉ delimiters)
    (closes : ∀ r ∈ comment? (c :: rest), ∃ n, r = .ok n ∧ n < (c :: rest).length)
    (previous : Option Kind) (after : List Char) :
    ∃ x, lexeme previous c (rest ++ e :: after) = .ok x ∧ Takes previous (c :: rest) x := by
  have freeHead := free c (List.mem_cons_self ..)
  unfold lexeme
  by_cases blank : isBlank c = true
  · exact ⟨_, if_pos blank, .blank ⟨c, rfl, blank⟩⟩
  rw [if_neg blank]
  have plain := takes_plain ends freeHead (by simpa using blank) previous rest after
  by_cases digit : c.isDigit = true
  · rw [if_pos digit]
    refine ⟨_, rfl, .sign (by decide) (Nat.succ_pos _) ?_⟩
    exact Nat.succ_le_succ (numberSize_le ends ..)
  rw [if_neg digit]
  have noQuote : c ≠ '"' := by
    rintro rfl
    exact freeHead (by decide)
  rw [if_neg noQuote]
  dsimp only
  split
  · exact ⟨_, rfl, plain⟩
  rename_i w matched
  have leads := matched_in_value ends matched
  obtain ⟨noString, noNational⟩ := ne_quotation free leads
  rw [if_neg noString, if_neg noNational]
  by_cases template : w = ['\x7b', '#']
  · subst template
    obtain ⟨rfl, more⟩ := List.cons_prefix_cons.mp leads
    obtain ⟨rest, rfl⟩ := prefix_of_squeezed (by decide) more
    obtain ⟨n, closed, -⟩ := closes _ rfl
    obtain ⟨m, inner, rfl⟩ := map_eq_ok_iff.mp closed
    have read := commentSize_append inner (e :: after)
    rw [if_pos rfl]
    exact ⟨_, map_eq_ok_iff.mpr ⟨m, read, rfl⟩, .comment (congrArg some closed)⟩
  rw [if_neg template]
  by_cases hint : w = ['/', '*', '+']
  · subst hint
    obtain ⟨rfl, more⟩ := List.cons_prefix_cons.mp leads
    obtain ⟨rest, rfl⟩ := prefix_of_squeezed (by decide) more
    obtain ⟨n, closed, inside⟩ := closes _ rfl
    obtain ⟨m, inner, rfl⟩ := map_eq_ok_iff.mp closed
    have read := commentSize_append inner (e :: after)
    rw [if_pos rfl]
    -- After the verb of a statement a hint is a token.
    by_cases statement : previous = some .statement
    · refine ⟨_, map_eq_ok_iff.mpr ⟨m, read, if_pos statement⟩, ?_⟩
      exact .sign (by decide) (Nat.succ_pos _) (Nat.le_of_lt inside)
    · exact ⟨_, map_eq_ok_iff.mpr ⟨m, read, if_neg statement⟩, .comment (congrArg some closed)⟩
  rw [if_neg hint]
  by_cases bounded : (matchEntry c (rest ++ e :: after)).bounded = true
  · rw [if_pos bounded]
    refine ⟨_, rfl, .sign ?_ (size_matchEntry_pos matched) ?_⟩
    · by_cases double : w = ['=', '='] <;> simp [double, signKinds]
    · have inside := size_follow_le ends [c] 0 none false (isMark c) rest after
      rwa [Nat.zero_add] at inside
  · rw [if_neg bounded]
    exact ⟨_, rfl, plain⟩

end

end Cellstore.Token
