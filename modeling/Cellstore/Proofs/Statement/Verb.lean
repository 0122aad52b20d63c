import Cellstore.Proofs.Token.Scan
import Cellstore.Statement

/-! The verb of a statement is its first word. -/
namespace Cellstore.Statement
open Cellstore.Token (Piece keywords)

def Verb.word : Verb → String
  | .create => "CREATE"
  | .use => "USE"
  | .insert => "INSERT"
  | .select => "SELECT"
  | .update => "UPDATE"
  | .delete => "DELETE"
  | .drop => "DROP"

theorem Verb.word_mem_keywords (v : Verb) : v.word ∈ keywords := by
  cases v <;> decide

private theorem ofWord?_word (v : Verb) : Verb.ofWord? v.word = some v := by
  cases v <;> rfl

theorem leadingWord_of_spelled {w : String} {s : List Char} (spelled : (Piece.keyword w).Spells s)
    {c : Char} (blank : Text.isBlank c = true) (rest : List Char) :
    leadingWord (s ++ c :: rest) = w := by
  have letters := Token.isAlpha_of_spelled spelled
  have solid : ∀ d ∈ s, (!Text.isBlank d) = true := by
    intro d member
    simp [Token.not_isBlank_of_isAlpha (letters d member)]
  have cut : (c :: rest).takeWhile (fun d => !Text.isBlank d) = [] := by simp [blank]
  have first : Text.firstWord (s ++ c :: rest) = s := by
    rw [Text.firstWord, List.takeWhile_append_of_pos solid, cut, List.append_nil]
  have filled := Token.ne_nil_of_spelled spelled
  have letter := letters _ (List.getLast_mem filled)
  have last : ∃ d ∈ s.getLast?, (d == ';') = false := by
    refine ⟨s.getLast filled, List.getLast?_eq_some_getLast filled, ?_⟩
    rw [beq_eq_false_iff_ne]
    intro semicolon
    rw [semicolon] at letter
    exact absurd letter (by decide)
  have kept : Text.dropRightWhile (· == ';') s = s := by
    simpa [Text.dropRightWhile] using Token.dropRightWhile_append last []
  rw [leadingWord, first, kept, Token.upper_of_spelled spelled, String.ofList_toList]

theorem Verb.spells_word (verb : Verb) :
    (Piece.keyword verb.word).Spells verb.word.toList := by
  cases verb <;> decide

/-- A text with a known verb states what the rule of the verb reads after the first token. -/
theorem parse_eq_ok_iff {text : String} {source : List Char}
    (trimmed : Text.trim text.toList = source) (filled : source ≠ []) {verb : Verb} (word : leadingWord source = verb.word) {c : Command} :
    parse text = .ok c ↔
      ∃ t ts, Token.tokenize source = .ok (t :: ts) ∧ verb.read source ts = .ok c := by
  subst trimmed
  simp only [parse, List.isEmpty_iff, filled, if_false, word, ofWord?_word]
  cases Token.tokenize (Text.trim text.toList) with
  | error unclosed => simp
  | ok tokens => cases tokens <;> simp [ofTokens]

theorem parse_eq_read {text : String} {verb : Verb}
    (word : leadingWord (Text.trim text.toList) = verb.word) {t : Token} {ts : Tokens}
    (tokens : Token.tokenize (Text.trim text.toList) = .ok (t :: ts)) :
    parse text = verb.read (Text.trim text.toList) ts := by
  have filled : Text.trim text.toList ≠ [] := by
    intro none
    rw [none, Token.tokenize, Token.scan] at tokens
    cases tokens
  simp only [parse, List.isEmpty_iff, filled, if_false, word, ofWord?_word, tokens, ofTokens]

theorem word_of_ofWord? {w : String} {verb : Verb} (known : Verb.ofWord? w = some verb) :
    w = verb.word := by
  unfold Verb.ofWord? at known
  split at known <;> cases known <;> rfl

theorem exists_verb_of_parse {text : String} {c : Command} (read : parse text = .ok c) :
    ∃ verb t ts, leadingWord (Text.trim text.toList) = verb.word ∧
      Token.tokenize (Text.trim text.toList) = .ok (t :: ts) ∧
      Verb.read (Text.trim text.toList) ts verb = .ok c := by
  unfold parse at read
  dsimp only at read
  split_ifs at read
  split at read
  · cases read
  · rename_i verb known
    split at read
    · cases read
    · rename_i tokens scanned
      cases tokens with
      | nil => cases read
      | cons t ts => exact ⟨verb, t, ts, word_of_ofWord? known, scanned, read⟩

theorem parse_of_solid {text : String} {verb : Verb} {middle tail : List Char}
    (shape : text.toList = verb.word.toList ++ ' ' :: middle ++ tail) (solid : Token.Solid tail)
    {t : Token} {ts : Tokens} {c : Command}
    (tokens : Token.tokenize text.toList = .ok (t :: ts))
    (read : verb.read text.toList ts = .ok c) : parse text = .ok c := by
  have whole := (Token.solid_spelled verb.spells_word).append solid (' ' :: middle)
  have trimmed : Text.trim text.toList = text.toList := by
    have kept := Token.trim_append whole []
    rwa [Token.dropRightWhile_of_all (by simp), List.append_nil, ← shape] at kept
  have word : leadingWord text.toList = verb.word := by
    rw [shape, List.append_assoc]
    exact leadingWord_of_spelled verb.spells_word Text.isBlank_space _
  exact (parse_eq_ok_iff trimmed (by simp [shape]) word).mpr ⟨t, ts, tokens, read⟩

end Cellstore.Statement
