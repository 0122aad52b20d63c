import Mathlib.Data.List.Basic
import Mathlib.Data.List.TakeWhile
import Mathlib.Tactic.SplitIfs
import Cellstore.Column
import Cellstore.Proofs.Results
import Cellstore.Token.Scan

/-! One step of the scanner.
A lexeme adds at most two tokens, and what it adds does not depend on where the text stands. A
property of tokens is therefore checked on lexemes, and a text that is moved along has the same
tokens, moved along. -/
namespace Cellstore.Token
open Cellstore.Text (isBlank trim)

/-- What a lexeme adds: the tokens, the kind that is handed on, and the characters that a command
word swallows behind it. -/
inductive Adds (previous : Option Kind) (start : Nat) (x : Lexeme) (after : List Char) :
    List Token → Option Kind → Nat → Prop where
  | nothing (gap : x.token = none) : Adds previous start x after [] previous 0
  | token {kind : Kind} {text : List Char} (reads : x.token = some (kind, text))
      (keeps : swallows previous kind after = false) :
      Adds previous start x after [⟨kind, String.ofList text, start, start + x.size⟩] (some kind) 0
  | command {kind : Kind} {text : List Char} {n : Nat} (reads : x.token = some (kind, text))
      (takes : swallows previous kind after = true) (size : swallowed (some kind) after = .ok n)
      (blank : trim (after.take n) = []) :
      Adds previous start x after [⟨kind, String.ofList text, start, start + x.size⟩] (some kind) n
  | embedded {kind : Kind} {text : List Char} {n : Nat} (reads : x.token = some (kind, text))
      (takes : swallows previous kind after = true) (size : swallowed (some kind) after = .ok n)
      (filled : trim (after.take n) ≠ []) :
      Adds previous start x after
        [⟨kind, String.ofList text, start, start + x.size⟩,
          ⟨.string, String.ofList (trim (after.take n)), start + x.size, start + x.size + n⟩]
        (some .string) n

theorem scan_cons_ok {previous : Option Kind} {start : Nat} {c : Char} {rest : List Char}
    {ts : List Token} (scanned : scan previous start (c :: rest) = .ok ts) :
    ∃ x added next n more, lexeme previous c rest = .ok x ∧
      Adds previous start x (rest.drop (x.size - 1)) added next n ∧
      scan next (start + x.size + n) ((rest.drop (x.size - 1)).drop n) = .ok more ∧
      ts = added ++ more := by
  rw [scan, bind_eq_ok_iff] at scanned
  obtain ⟨x, lexed, scanned⟩ := scanned
  dsimp only at scanned
  split at scanned
  · rename_i gap
    exact ⟨x, [], previous, 0, ts, lexed, .nothing gap, scanned, rfl⟩
  · rename_i kind text reads
    split_ifs at scanned with takes
    · obtain ⟨n, size, scanned⟩ := bind_eq_ok_iff.mp scanned
      split_ifs at scanned with blank
      · obtain ⟨more, tail, same⟩ := bind_eq_ok_iff.mp scanned
        cases same
        exact ⟨x, _, _, n, more, lexed, .command reads takes size (List.isEmpty_iff.mp blank),
          tail, rfl⟩
      · obtain ⟨more, tail, same⟩ := bind_eq_ok_iff.mp scanned
        cases same
        exact ⟨x, _, _, n, more, lexed,
          .embedded reads takes size fun none => blank (List.isEmpty_iff.mpr none), tail, rfl⟩
    · obtain ⟨more, tail, same⟩ := bind_eq_ok_iff.mp scanned
      cases same
      exact ⟨x, _, _, 0, more, lexed, .token reads (by simpa using takes), tail, rfl⟩

/-- What holds of every token of a lexeme, and of every text that a command swallows, holds of all
tokens. -/
theorem forall_mem_scan {P : Token → Prop}
    (lexed : ∀ previous c rest x kind text start stop, lexeme previous c rest = .ok x →
      x.token = some (kind, text) → P ⟨kind, String.ofList text, start, stop⟩)
    (swallowed : ∀ text start stop, P ⟨.string, text, start, stop⟩)
    {previous : Option Kind} {start : Nat} {s : List Char} {ts : List Token}
    (scanned : scan previous start s = .ok ts) : ∀ t ∈ ts, P t := by
  induction size : s.length using Nat.strongRecOn generalizing previous start s ts with
  | _ length ih =>
    subst size
    cases s with
    | nil =>
      rw [scan] at scanned
      cases scanned
      simp
    | cons c rest =>
      obtain ⟨x, added, next, n, more, read, adds, tail, rfl⟩ := scan_cons_ok scanned
      have shorter : ((rest.drop (x.size - 1)).drop n).length < (c :: rest).length := by
        simp only [List.length_drop, List.length_cons]
        omega
      have others := ih _ shorter tail rfl
      have here : ∀ t ∈ added, P t := by
        cases adds with
        | nothing => simp
        | token reads => simpa using lexed _ _ _ _ _ _ _ _ read reads
        | command reads => simpa using lexed _ _ _ _ _ _ _ _ read reads
        | embedded reads =>
          simp only [List.mem_cons, List.not_mem_nil, or_false, forall_eq_or_imp, forall_eq]
          exact ⟨lexed _ _ _ _ _ _ _ _ read reads, swallowed _ _ _⟩
      intro t member
      rcases List.mem_append.mp member with first | later
      · exact here t first
      · exact others t later

/-- The lexemes that can stand at the head of a text. -/
inductive Lexes (previous : Option Kind) (c : Char) (rest : List Char) : Lexeme → Prop where
  | blank (blank : isBlank c = true) : Lexes previous c rest ⟨1, none⟩
  | number {n : Nat} (digit : c.isDigit = true)
      (size : n = numberSize (previous = some .parameter) false 0 rest) :
      Lexes previous c rest ⟨n + 1, some (.other, c :: rest.take n)⟩
  | identifier {r : List Char × Nat} (quote : c = '"') (content : quotation '"' .atOpening rest = .ok r) :
      Lexes previous c rest ⟨r.2 + 1, some (.identifier, r.1)⟩
  | string {r : List Char × Nat} (opens : (matchEntry c rest).entry = some ['\''])
      (content : quotation '\'' .atOpening rest = .ok r) :
      Lexes previous c rest ⟨r.2 + 1, some (.string, r.1)⟩
  | national {r : List Char × Nat} {w : List Char} (opens : (matchEntry c rest).entry = some w)
      (spelled : w.map Char.toUpper = ['N', '\''])
      (content : quotation '\'' .atOpening (rest.drop 1) = .ok r) :
      Lexes previous c rest ⟨r.2 + 2, some (.other, r.1)⟩
  | template {n : Nat} (opens : (matchEntry c rest).entry = some ['\x7b', '#']) :
      Lexes previous c rest ⟨n + 2, none⟩
  | hint {n : Nat} (opens : (matchEntry c rest).entry = some ['/', '*', '+'])
      (statement : previous = some .statement) :
      Lexes previous c rest ⟨n + 3, some (.other, c :: rest.take (n + 2))⟩
  | comment {n : Nat} (opens : (matchEntry c rest).entry = some ['/', '*', '+']) :
      Lexes previous c rest ⟨n + 3, none⟩
  | entry {w : List Char} (solid : isBlank c = false) (matched : (matchEntry c rest).entry = some w)
      (bounded : (matchEntry c rest).bounded = true) :
      Lexes previous c rest ⟨(matchEntry c rest).size,
        some (if w = ['=', '='] then .equals else .other, w.map Char.toUpper)⟩
  | plain (solid : isBlank c = false) : Lexes previous c rest (plainLexeme previous c rest)

theorem lexes_of_lexeme {previous : Option Kind} {c : Char} {rest : List Char} {x : Lexeme}
    (lexed : lexeme previous c rest = .ok x) : Lexes previous c rest x := by
  unfold lexeme at lexed
  by_cases blank : isBlank c = true
  · rw [if_pos blank] at lexed
    cases lexed
    exact .blank blank
  rw [if_neg blank] at lexed
  have solid : isBlank c = false := by simpa using blank
  by_cases digit : c.isDigit = true
  · rw [if_pos digit] at lexed
    cases lexed
    exact .number digit rfl
  rw [if_neg digit] at lexed
  by_cases quote : c = '"'
  · rw [if_pos quote, map_eq_ok_iff] at lexed
    obtain ⟨r, content, rfl⟩ := lexed
    exact .identifier quote content
  rw [if_neg quote] at lexed
  dsimp only at lexed
  split at lexed
  · cases lexed
    exact .plain solid
  · rename_i w matched
    by_cases string : w = ['\'']
    · rw [if_pos string, map_eq_ok_iff] at lexed
      obtain ⟨r, content, rfl⟩ := lexed
      exact .string (string ▸ matched) content
    rw [if_neg string] at lexed
    by_cases national : w.map Char.toUpper = ['N', '\'']
    · rw [if_pos national, map_eq_ok_iff] at lexed
      obtain ⟨r, content, rfl⟩ := lexed
      exact .national matched national content
    rw [if_neg national] at lexed
    by_cases template : w = ['\x7b', '#']
    · rw [if_pos template, map_eq_ok_iff] at lexed
      obtain ⟨n, -, rfl⟩ := lexed
      exact .template (template ▸ matched)
    rw [if_neg template] at lexed
    by_cases hint : w = ['/', '*', '+']
    · rw [if_pos hint, map_eq_ok_iff] at lexed
      obtain ⟨n, -, rfl⟩ := lexed
      by_cases statement : previous = some .statement
      · rw [if_pos statement]
        exact .hint (hint ▸ matched) statement
      · rw [if_neg statement]
        exact .comment (hint ▸ matched)
    rw [if_neg hint] at lexed
    by_cases bounded : (matchEntry c rest).bounded = true
    · rw [if_pos bounded] at lexed
      cases lexed
      exact .entry solid matched bounded
    · rw [if_neg bounded] at lexed
      cases lexed
      exact .plain solid

/-! Reading a text part by part. -/

/-- Reading `s` before `after` gives these tokens, and hands the kind `next` on. -/
def Reads (previous : Option Kind) (start : Nat) (s after : List Char) (ts : List Token)
    (next : Option Kind) : Prop :=
  scan previous start (s ++ after) = (scan next (start + s.length) after).map (ts ++ ·)

theorem Reads.append {previous middle next : Option Kind} {start : Nat} {s t after : List Char}
    {ts us : List Token} (first : Reads previous start s (t ++ after) ts middle)
    (last : Reads middle (start + s.length) t after us next) :
    Reads previous start (s ++ t) after (ts ++ us) next := by
  unfold Reads at *
  rw [List.append_assoc, first, last, List.length_append, Nat.add_assoc]
  cases scan next (start + (s.length + t.length)) after <;> simp [Except.map]

theorem Reads.tokenize {s : List Char} {ts : List Token} {next : Option Kind}
    (reads : Reads none 0 s [] ts next) : Token.tokenize s = .ok ts := by
  rw [Reads, List.append_nil, scan] at reads
  simpa [Token.tokenize, Except.map] using reads

theorem swallows_of_ne {kind : Kind} (plain : kind ≠ .command) (previous : Option Kind)
    (after : List Char) : swallows previous kind after = false := by simp [swallows, plain]

theorem reads_of_lexeme {previous : Option Kind} {c : Char} {rest after text : List Char}
    {kind : Kind}
    (lexed : lexeme previous c (rest ++ after) = .ok ⟨(c :: rest).length, some (kind, text)⟩)
    (kept : swallows previous kind after = false) (start : Nat) :
    Reads previous start (c :: rest) after
      [⟨kind, String.ofList text, start, start + (c :: rest).length⟩] (some kind) := by
  have cut : (rest ++ after).drop ((c :: rest).length - 1) = after := by simp
  rw [Reads, List.cons_append, scan, lexed]
  simp only [bind, Except.bind, cut, kept]
  cases scan (some kind) (start + (c :: rest).length) after <;> rfl

theorem reads_of_gap {previous : Option Kind} {c : Char} {rest after : List Char}
    (lexed : lexeme previous c (rest ++ after) = .ok ⟨(c :: rest).length, none⟩) (start : Nat) :
    Reads previous start (c :: rest) after [] previous := by
  have cut : (rest ++ after).drop ((c :: rest).length - 1) = after := by simp
  rw [Reads, List.cons_append, scan, lexed]
  simp only [bind, Except.bind, cut]
  cases scan previous (start + (c :: rest).length) after <;> rfl

def moved (k : Nat) (t : Token) : Token := { t with start := t.start + k, stop := t.stop + k }

theorem scan_moved (k : Nat) (previous : Option Kind) (start : Nat) (s : List Char) :
    scan previous (start + k) s = (scan previous start s).map (·.map (moved k)) := by
  -- The induction is on the length: a lexeme is dropped, and perhaps what was swallowed behind it.
  induction size : s.length using Nat.strongRecOn generalizing previous start s with
  | _ length ih =>
    subst size
    cases s with
    | nil => simp [scan, Except.map]
    | cons c rest =>
      have shorter (n m : Nat) : ((rest.drop n).drop m).length < (c :: rest).length := by
        simp only [List.length_drop, List.length_cons]
        omega
      rw [scan, scan]
      cases lexeme previous c rest with
      | error e => rfl
      | ok x =>
        have along (n : Nat) (next : Option Kind) : scan next (start + k + x.size + n)
            ((rest.drop (x.size - 1)).drop n) =
              (scan next (start + x.size + n) ((rest.drop (x.size - 1)).drop n)).map
                (·.map (moved k)) := by
          rw [← ih _ (shorter _ n) next (start + x.size + n) _ rfl]
          congr 1
          omega
        simp only [bind, Except.bind]
        split
        · exact along 0 previous
        · rename_i kind text reads
          split_ifs with takes
          · cases swallowed (some kind) (rest.drop (x.size - 1)) with
            | error e => rfl
            | ok n =>
              dsimp only
              split_ifs
              · rw [along n]
                cases scan (some kind) (start + x.size + n) _ with
                | error e => rfl
                | ok ts => simp [Except.map, pure, Except.pure, moved]; omega
              · rw [along n]
                cases scan (some Kind.string) (start + x.size + n) _ with
                | error e => rfl
                | ok ts => simp [Except.map, pure, Except.pure, moved]; omega
          · have next := along 0 (some kind)
            simp only [List.drop_zero, Nat.add_zero] at next
            rw [next]
            cases scan (some kind) (start + x.size) _ with
            | error e => rfl
            | ok ts => simp [Except.map, pure, Except.pure, moved]; omega

/-! Names that tokens spell. -/

theorem isColumnName_of_isPlainName {s : String} (plain : isPlainName s.toList = true) :
    IsColumnName s := by
  unfold isPlainName at plain
  split at plain
  · cases plain
  · rename_i c rest shape
    simp only [Bool.and_eq_true, List.all_eq_true] at plain
    obtain ⟨first, body⟩ := plain
    have inside : ':' ∉ (if rest.getLast? = some '\n' then rest.dropLast else rest) := fun colon =>
      absurd (body ':' colon) (by decide)
    refine ⟨by rintro rfl; simp at shape, ?_⟩
    rw [shape]
    intro colon
    rcases List.mem_cons.mp colon with rfl | colon
    · exact absurd first (by decide)
    · split_ifs at inside with broken
      · have parts := List.dropLast_append_getLast? '\n' broken
        rw [← parts] at colon
        simp [inside] at colon
      · exact inside colon

theorem plainLexeme_word {previous : Option Kind} {c : Char} {rest text : List Char}
    (reads : (plainLexeme previous c rest).token = some (.word, text)) :
    text ≠ [] ∧ ':' ∉ text := by
  unfold plainLexeme at reads
  split_ifs at reads with mark
  · have kind := (Prod.mk.inj (Option.some.inj reads)).1
    unfold markKind at kind
    split at kind <;> cases kind
  · have same := (Prod.mk.inj (Option.some.inj reads)).2
    subst same
    refine ⟨List.cons_ne_nil _ _, fun colon => ?_⟩
    have isMark_colon : isMark ':' = true := by decide
    rcases List.mem_cons.mp colon with rfl | later
    · exact mark isMark_colon
    · have inside := List.mem_takeWhile_imp later
      simp [isMark_colon] at inside

theorem lexeme_word {previous : Option Kind} {c : Char} {rest text : List Char} {x : Lexeme}
    (lexed : lexeme previous c rest = .ok x) (reads : x.token = some (.word, text)) :
    text ≠ [] ∧ ':' ∉ text := by
  cases lexes_of_lexeme lexed with
  | plain => exact plainLexeme_word reads
  | entry =>
    have kind := (Prod.mk.inj (Option.some.inj reads)).1
    split_ifs at kind
  | _ => cases reads

theorem isColumnName_of_name? {previous : Option Kind} {start : Nat} {s : List Char}
    {ts : List Token} (scanned : scan previous start s = .ok ts) :
    ∀ t ∈ ts, ∀ n, t.name? = some n → IsColumnName n := by
  have word : ∀ t ∈ ts, t.kind = .word → IsColumnName t.text := by
    refine forall_mem_scan (fun previous c rest x kind text start stop lexed reads isWord => ?_)
      (fun text start stop isWord => by cases isWord) scanned
    obtain rfl : kind = .word := isWord
    obtain ⟨filled, free⟩ := lexeme_word lexed reads
    exact ⟨by simpa using filled, by simpa using free⟩
  intro t member n spells
  unfold name? at spells
  split at spells
  · split_ifs at spells with bad
    cases spells
    simpa [IsColumnName] using bad
  · rename_i isWord
    cases spells
    exact word t member isWord
  · split_ifs at spells with plain
    cases spells
    exact isColumnName_of_isPlainName plain

end Cellstore.Token
