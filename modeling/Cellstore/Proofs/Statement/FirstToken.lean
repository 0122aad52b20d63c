import Cellstore.Proofs.Statement.NameSpelling
import Mathlib.Data.List.DropRight

/-! The first word and the first token.
The verb is told from the first word of the text, but the command is read from the tokens. Whatever
letters spell the verb and whatever stands behind it, the first token is a bare word that takes just
the verb, and the rule of the verb reads the tokens of what follows it. -/
namespace Cellstore

namespace Token
open Cellstore.Text (isBlank upper)

variable {w after : List Char} {k : String}

/-! Words that spell a keyword in upper case. Not all of their letters need be ASCII ones. -/

private theorem ascii_of_toUpper {c : Char} (ascii : c.toUpper.toNat < 0x80) : c.toNat < 0x80 := by
  by_cases lower : 'a'.val ≤ c.val ∧ c.val ≤ 'z'.val
  · have bound : c.toNat ≤ 122 := lower.2
    omega
  · have same : c.toUpper = c := dif_neg lower
    rwa [same] at ascii

private theorem upper_of_ascii (ascii : ∀ c ∈ w.map Char.toUpper, c.toNat < 0x80) :
    upper w = w.map Char.toUpper := by
  induction w with
  | nil => rfl
  | cons c w ih =>
    rw [List.map_cons, List.forall_mem_cons] at ascii
    rw [upper, List.flatMap_cons, Text.upperChar_of_ascii (ascii_of_toUpper ascii.1), ← upper,
      ih ascii.2]
    rfl

private theorem ascii_of_entry {e : List Char} (member : e ∈ entries) {c : Char} (inside : c ∈ e) :
    c.toNat < 0x80 := by
  have ascii : ∀ e ∈ entries, (e.all fun c => decide (c.toNat < 0x80)) = true :=
    forall_mem_of_all (by decide)
  exact of_decide_eq_true (List.all_eq_true.mp (ascii e member) c inside)

/-- Entries are in ASCII, so none is mistaken for a keyword with other letters. -/
theorem standsAlone_of_upper (known : k ∈ keywords) (spelled : upper w = k.toList) :
    StandsAlone w := by
  obtain ⟨leads, blank, semicolon⟩ := standsAlone_keyword k known
  have capital := toUpper_of_keyword k known
  rw [capital] at leads
  have longer (c : Char) (closed : opensEntry (k.toList ++ [c]) = false) :
      opensEntry (w ++ [c]) = false := by
    rw [opensEntry, List.any_eq_false] at closed ⊢
    intro e member opens
    have before := List.isPrefixOf_iff_prefix.mp opens
    rw [List.map_append] at before
    have ascii : ∀ d ∈ w.map Char.toUpper, d.toNat < 0x80 := fun d inside =>
      ascii_of_entry member (before.subset (List.mem_append_left _ inside))
    refine closed e member (List.isPrefixOf_iff_prefix.mpr ?_)
    rwa [List.map_append, capital, ← spelled, upper_of_ascii ascii]
  refine ⟨fun e member before => leads e member ?_, longer ' ' blank, longer ';' semicolon⟩
  obtain ⟨tail, whole⟩ := before
  obtain ⟨front, back, rfl, same, -⟩ := List.append_eq_map_iff.mp whole
  have ascii : ∀ d ∈ front.map Char.toUpper, d.toNat < 0x80 := fun d inside =>
    ascii_of_entry member (same ▸ inside)
  rw [← spelled, Text.upper_append, upper_of_ascii ascii, same]
  exact List.prefix_append _ _

private theorem ascii_of_mark : ∀ c ∈ marks, c.toNat < 0x80 := forall_mem_of_all (by decide)

/-- A character whose upper case is in a keyword is a letter, or not in ASCII. -/
theorem not_isMark_of_upper (known : k ∈ keywords) (spelled : upper w = k.toList) {c : Char}
    (member : c ∈ w) : isMark c = false ∧ c.isDigit = false := by
  by_cases ascii : c.toNat < 0x80
  · have inside : c.toUpper ∈ k.toList := by
      rw [← spelled, upper, List.mem_flatMap]
      exact ⟨c, member, by simp [Text.upperChar_of_ascii ascii]⟩
    have letter := isAlpha_of_isUpper_toUpper (List.all_eq_true.mp (isUpper_of_keyword k known) _ inside)
    exact ⟨not_isMark_of_isAlpha letter, not_isDigit_of_isAlpha letter⟩
  · constructor
    · rw [isMark, Bool.eq_false_iff]
      exact fun mark => ascii (ascii_of_mark c (List.contains_iff_mem.mp mark))
    · rw [Bool.eq_false_iff]
      intro digit
      have bound : c.toNat ≤ 57 := (Bool.and_eq_true_iff.mp digit).2 |> of_decide_eq_true
      omega

theorem reads_upper (known : k ∈ keywords) (spelled : upper w = k.toList)
    (solid : ∀ c ∈ w, isBlank c = false) (ends : Ends after) (start : Nat) :
    (∀ c ∈ w, inWord c = true) ∧
      Reads none start w after [⟨wordKind none w, String.ofList w, start, start + w.length⟩]
        (some (wordKind none w)) := by
  have plain (c : Char) (member : c ∈ w) := not_isMark_of_upper known spelled member
  have inside : ∀ c ∈ w, inWord c = true := by
    intro c member
    simp [inWord, solid c member, (plain c member).1]
  refine ⟨inside, ?_⟩
  cases w with
  | nil =>
    have none : k = "" := String.toList_inj.mp spelled.symm
    exact absurd (none ▸ known) (by decide)
  | cons c rest =>
    obtain ⟨noMark, noDigit⟩ := plain c (by simp)
    have noQuote : c ≠ '"' := by
      rintro rfl
      exact absurd noMark (by decide)
    have alone := matchEntry_alone (standsAlone_of_upper known spelled)
      (fun d member => solid d (by simp [member])) ends
    have cut : after.takeWhile inWord = [] := by
      cases after with
      | nil => rfl
      | cons d after =>
        rcases ends d rfl with blank | rfl
        · simp [inWord, blank]
        · rfl
    have taken : (rest ++ after).takeWhile inWord = rest := by
      rw [List.takeWhile_append_of_pos fun d member => inside d (by simp [member]), cut,
        List.append_nil]
    have lexed : lexeme none c (rest ++ after) =
        .ok ⟨(c :: rest).length, some (wordKind none (c :: rest), c :: rest)⟩ := by
      simp only [lexeme, solid c (by simp), noDigit, noQuote, alone,
        plainLexeme_of_not_isMark noMark, taken]
      rfl
    have kept : wordKind none (c :: rest) ≠ .command := by
      have apart : ∀ k ∈ keywords, k ∉ commandWords := by decide
      intro command
      have member := List.contains_iff_mem.mp (wordKind_command command)
      rw [spelled, String.ofList_toList] at member
      exact apart k known member
    exact reads_of_lexeme lexed (swallows_of_ne kept ..) start

end Token

namespace Statement
open Cellstore.Text (isBlank upper)

theorem exists_word (source : List Char) : ∃ (w : String) (after : List Char),
    source = w.toList ++ after ∧ Text.upperText w = leadingWord source ∧
    (∀ c ∈ w.toList, isBlank c = false) ∧ Token.Ends after := by
  generalize first : Text.firstWord source = run
  have solid : ∀ c ∈ run, isBlank c = false := by
    intro c member
    rw [← first] at member
    simpa using List.mem_takeWhile_imp member
  have whole : source = run ++ source.dropWhile fun c => !isBlank c := by
    rw [← first]
    exact List.takeWhile_append_dropWhile.symm
  have cut : run = Text.dropRightWhile (· == ';') run ++ run.rtakeWhile (· == ';') :=
    List.rdropWhile_append_rtakeWhile.symm
  refine ⟨String.ofList (Text.dropRightWhile (· == ';') run),
    run.rtakeWhile (· == ';') ++ source.dropWhile fun c => !isBlank c, ?_, ?_, ?_, ?_⟩
  · rw [String.toList_ofList, ← List.append_assoc, ← cut, ← whole]
  · rw [Text.upperText, leadingWord, first, String.toList_ofList]
  · rw [String.toList_ofList]
    exact fun c member => solid c ((Token.dropRightWhile_prefix _ run).subset member)
  · intro c head
    cases marks : run.rtakeWhile (· == ';') with
    | nil =>
      rw [marks, List.nil_append] at head
      have blank := List.head?_dropWhile_not (fun c => !isBlank c) source
      rw [Option.mem_def.mp head] at blank
      exact .inl (by simpa using blank)
    | cons d more =>
      rw [marks] at head
      cases head
      have semicolon : c ∈ run.rtakeWhile (· == ';') := marks ▸ List.mem_cons_self ..
      exact .inr (by simpa using List.mem_rtakeWhile_imp semicolon)

/-- A token at the head of a text that takes the letters of a verb and nothing else. -/
structure IsVerb (source : List Char) (verb : Verb) (t : Token) (after : List Char) : Prop where
  kind : t.kind = Token.wordKind none t.text.toList
  spelled : Text.upperText t.text = verb.word
  split : source = t.text.toList ++ after
  place : t.start = 0 ∧ t.stop = t.text.toList.length
  solid : ∀ c ∈ t.text.toList, Token.inWord c = true
  ends : Token.Ends after

theorem IsVerb.isKeyword {source after : List Char} {verb : Verb} {t : Token}
    (is : IsVerb source verb t after) : t.isKeyword verb.word = true := by
  have bare : t.isQuoted = false := by
    rw [Token.isQuoted, is.kind]
    rcases Token.wordKind_cases none t.text.toList with kind | kind | kind | kind | kind <;>
      rw [kind] <;> rfl
  rw [Token.isKeyword, bare, is.spelled, beq_self_eq_true]
  rfl

/-- If the first word of a text is a verb and its tokens are read, then the first token is a bare
word that takes the verb and nothing else. The other tokens are those of what follows it, and from
them the command is read. -/
theorem verb_is_first_token {text : String} {verb : Verb} {ts : Tokens}
    (word : leadingWord (Text.trim text.toList) = verb.word)
    (accepted : Token.tokenize (Text.trim text.toList) = .ok ts) :
    ∃ t rest after, ts = t :: rest ∧ IsVerb (Text.trim text.toList) verb t after ∧
      t.isQuoted = false ∧ Token.scan (some t.kind) t.stop after = .ok rest ∧
      parse text = verb.read (Text.trim text.toList) rest := by
  obtain ⟨w, after, split, spelled, solid, ends⟩ := exists_word (Text.trim text.toList)
  rw [word] at spelled
  have letters : upper w.toList = verb.word.toList := by
    rw [← spelled, Text.upperText, String.toList_ofList]
  obtain ⟨inside, reads⟩ := Token.reads_upper verb.word_mem_keywords letters solid ends 0
  rw [String.ofList_toList, Nat.zero_add] at reads
  have scanned := accepted
  rw [Token.tokenize, split, reads, Nat.zero_add, map_eq_ok_iff] at scanned
  obtain ⟨rest, behind, rfl⟩ := scanned
  have is : IsVerb (Text.trim text.toList) verb
      ⟨Token.wordKind none w.toList, w, 0, w.toList.length⟩ after :=
    ⟨rfl, spelled, split, ⟨rfl, rfl⟩, inside, ends⟩
  have keyword := is.isKeyword
  rw [Token.isKeyword, Bool.and_eq_true, Bool.not_eq_true'] at keyword
  exact ⟨_, rest, after, rfl, is, keyword.1, behind, parse_eq_read word accepted⟩

/-- Two letters of the verb are not in ASCII, and it stands between blanks that are not either. -/
theorem verb_is_first_token_insert :
    ∃ t rest after,
      Token.tokenize (Text.trim "\u2003\u0131n\u017fert\u3000INTO t (a) VALUES (b);".toList) =
        .ok (t :: rest) ∧
      IsVerb (Text.trim "\u2003\u0131n\u017fert\u3000INTO t (a) VALUES (b);".toList) .insert t after ∧
      t.text = "\u0131n\u017fert" ∧ t.isQuoted = false ∧ rest.length = 10 := by
  have accepted : Token.tokenize
      (Text.trim "\u2003\u0131n\u017fert\u3000INTO t (a) VALUES (b);".toList) =
      .ok [⟨.statement, "\u0131n\u017fert", 0, 6⟩, ⟨.other, "INTO", 7, 11⟩, ⟨.word, "t", 12, 13⟩,
        ⟨.leftParen, "(", 14, 15⟩, ⟨.word, "a", 15, 16⟩, ⟨.rightParen, ")", 16, 17⟩,
        ⟨.other, "VALUES", 18, 24⟩, ⟨.leftParen, "(", 25, 26⟩, ⟨.word, "b", 26, 27⟩,
        ⟨.rightParen, ")", 27, 28⟩, ⟨.semicolon, ";", 28, 29⟩] := by
    decide +kernel
  obtain ⟨t, rest, after, same, is, bare, -⟩ := @verb_is_first_token
    "\u2003\u0131n\u017fert\u3000INTO t (a) VALUES (b);" .insert _ (by decide +kernel) accepted
  obtain ⟨rfl, rfl⟩ := List.cons_eq_cons.mp same
  exact ⟨_, _, after, accepted, is, rfl, bare, rfl⟩

end Statement
end Cellstore
