import Cellstore.Proofs.Statement.Acceptance
import Cellstore.Proofs.Statement.Phrase
import Cellstore.Proofs.Statement.Verb
import Cellstore.Proofs.Token.Verbatim

/-! Insertions of values without quotes.
A value is cut out of the statement between its first and its last token, so a comment strictly
inside of it is kept. What takes characters from it is a comment at one of its ends, and a command
that swallows its end. -/
namespace Cellstore.Statement
open Cellstore.Token (Piece Kind Reads IsBare IsCalm IsUnquoted IsVerbatim)

def joined (items : List String) : List Char := [',', ' '].intercalate (items.map String.toList)

theorem joined_singleton (item : String) : joined [item] = item.toList :=
  List.intercalate_singleton

theorem joined_cons_cons (item next : String) (items : List String) :
    joined (item :: next :: items) = item.toList ++ ',' :: ' ' :: joined (next :: items) := by
  simp only [joined, List.map_cons, List.intercalate_cons_cons, List.append_assoc]
  rfl

/-! The values. -/

private theorem isListedValue {lead : List Char} {v : String} {ts : Tokens} (tail : List Char)
    (inner : ∀ t ∈ ts, t.kind ∈ Token.innerKinds) (starts : ∃ t ∈ ts.head?, t.start = lead.length)
    (stops : ∃ t ∈ ts.getLast?, t.stop = lead.length + v.toList.length) :
    IsListedValue (lead ++ (v.toList ++ tail)) ts v where
  writes := by
    obtain ⟨first, head, start⟩ := starts
    obtain ⟨last, final, stop⟩ := stops
    have cut : Token.slice (lead ++ (v.toList ++ tail)) first last = v := by
      rw [Token.slice, start, stop, Nat.add_sub_cancel_left, List.drop_left, List.take_left,
        String.ofList_toList]
    have plain : ∀ k ∈ Token.innerKinds, k ≠ .string ∧ k ≠ .identifier := by decide
    have writes : WritesValue (lead ++ (v.toList ++ tail)) ts (Token.slice _ first last) :=
      .verbatim head final fun _ => by
        simpa [Token.isQuoted] using plain _ (inner first (List.mem_of_mem_head? head))
    rwa [cut] at writes
  free := by
    have apart : ∀ k ∈ Token.innerKinds, k ≠ .comma ∧ k ≠ .rightParen := by decide
    exact fun t member => apart _ (inner t member)

theorem reads_values {vs : List String} (filled : vs ≠ [])
    (unquoted : ∀ v ∈ vs, IsUnquoted v.toList) (verbatim : ∀ v ∈ vs, IsVerbatim v.toList)
    {previous : Option Kind} (calm : IsCalm previous) (lead tail : List Char) :
    ∃ ts next, Reads previous lead.length (joined vs) (')' :: tail) ts next ∧
      IsValues (lead ++ (joined vs ++ ')' :: tail)) ts vs := by
  induction vs generalizing previous lead with
  | nil => exact absurd rfl filled
  | cons v vs ih =>
    rw [List.forall_mem_cons] at unquoted verbatim
    cases vs with
    | nil =>
      obtain ⟨ts, next, reads, inner, starts, stops⟩ :=
        Token.reads_value (.inr rfl) tail unquoted.1 verbatim.1 calm lead.length
      rw [joined_singleton]
      exact ⟨ts, next, reads, .last (isListedValue _ inner starts stops)⟩
    | cons w vs =>
      rw [joined_cons_cons]
      obtain ⟨ts, middle, reads, inner, starts, stops⟩ := Token.reads_value (.inl rfl)
        (' ' :: joined (w :: vs) ++ ')' :: tail) unquoted.1 verbatim.1 calm lead.length
      have comma := Token.reads_separator (by decide : ',' ∈ Token.separators) middle
        (lead.length + v.toList.length) (' ' :: joined (w :: vs) ++ ')' :: tail)
      have gap : Reads (some .comma) (lead.length + v.toList.length + 1) [' ']
          (joined (w :: vs) ++ ')' :: tail) [] _ := Token.reads_blanks (by decide) ..
      have after : IsCalm (some .comma) := by decide
      obtain ⟨us, next, others, listed⟩ := ih (by simp) unquoted.2 verbatim.2 after
        (lead ++ (v.toList ++ [',', ' ']))
      have place : (lead ++ (v.toList ++ [',', ' '])).length =
          lead.length + v.toList.length + 1 + 1 := by simp [Nat.add_assoc]
      rw [place] at others
      refine ⟨ts ++ _ :: us, next, reads.append (comma.append (gap.append others)), ?_⟩
      have item := isListedValue (',' :: ' ' :: joined (w :: vs) ++ ')' :: tail) inner starts stops
      simp only [List.append_assoc, List.cons_append, List.nil_append] at item listed ⊢
      exact .more item rfl listed

/-! The columns. -/

def listedNames (columns : List String) : List Part :=
  (columns.map Part.name).intersperse (.piece (.mark ','))

private theorem parts_comma (rest : List Char) : Token.Parts (',' :: rest) :=
  @Token.parts_append ',' [] (by decide) (by decide +kernel) rest

private theorem parts_parenthesis (rest : List Char) : Token.Parts (')' :: rest) :=
  @Token.parts_append ')' [] (by decide) (by decide +kernel) rest

theorem phrase_names {after rest : List Char} {Last : Option Kind → Prop} {ps : List Part}
    {columns : List String} (filled : columns ≠ []) (bare : ∀ c ∈ columns, IsBare c.toList)
    (more : ∀ kind, kind ≠ .parameter → Phrase after Last (some kind) ps (')' :: rest))
    {previous : Option Kind} (calm : IsCalm previous) :
    Phrase after Last previous (listedNames columns ++ ps) (joined columns ++ ')' :: rest) := by
  induction columns generalizing previous with
  | nil => exact absurd rfl filled
  | cons c columns ih =>
    rw [List.forall_mem_cons] at bare
    have spells := SpellsName.bare bare.1
    rw [String.ofList_toList] at spells
    cases columns with
    | nil =>
      rw [joined_singleton]
      exact .name calm spells (.inl bare.1) (parts_parenthesis _) more
    | cons d columns =>
      rw [joined_cons_cons, List.append_assoc]
      refine .name calm spells (.inl bare.1) (parts_comma _) fun kind _ => ?_
      refine .separator (by decide) (.blank ?_)
      exact ih (by simp) bare.2 (by decide)

theorem isNames_of_forall₂ {columns : List String} (filled : columns ≠ []) {ts : Tokens}
    (all : List.Forall₂ Part.Is (listedNames columns) ts) : IsNames ts columns := by
  induction columns generalizing ts with
  | nil => exact absurd rfl filled
  | cons c columns ih =>
    cases columns with
    | nil =>
      obtain _ | ⟨⟨spells, -⟩, _ | _⟩ := all
      exact .last (.token spells)
    | cons d columns =>
      obtain _ | ⟨⟨spells, -⟩, _ | ⟨comma, others⟩⟩ := all
      have kind : _ = Kind.comma := comma.kind
      exact .more (.token spells) (by simpa using kind) (ih (by simp) others)

/-! The statement. -/

def insertionParts (table : String) (columns : List String) : List Part :=
  [.piece (.keyword "INTO"), .name table, .piece (.mark '(')] ++ (listedNames columns ++
    [.piece (.mark ')'), .piece (.keyword "VALUES"), .piece (.mark '(')])

def insertionLead (table : String) (columns : List String) : List Char :=
  "INTO".toList ++ ' ' :: (table.toList ++ ' ' :: '(' :: (joined columns ++ ')' :: ' ' ::
    ("VALUES".toList ++ [' ', '('])))

theorem phrase_insertion {table : String} {columns : List String} (bare : IsBare table.toList)
    (filled : columns ≠ []) (bareColumns : ∀ c ∈ columns, IsBare c.toList) (after : List Char) :
    Phrase after (· = some .leftParen) none
      (.piece (.keyword "INSERT") :: insertionParts table columns)
      ("INSERT".toList ++ ' ' :: insertionLead table columns) := by
  have parts (rest : List Char) : Token.Parts (' ' :: '(' :: rest) :=
    @Token.parts_append ' ' ['('] (by decide) (by decide +kernel) rest
  have spells := SpellsName.bare bare
  rw [String.ofList_toList] at spells
  refine .piece (by decide) (by decide) (Token.ends_space _) (.blank ?_)
  refine .piece (by decide) (by decide) (Token.ends_space _) (.blank ?_)
  refine .name (by decide) spells (.inl bare) (parts _) fun kind _ => .blank ?_
  refine .separator (by decide) (phrase_names filled bareColumns (fun kind _ => ?_) (by decide))
  refine .separator (by decide) (.blank ?_)
  refine .piece (by decide) (by decide) (Token.ends_space _) (.blank ?_)
  exact .separator (by decide) (.done rfl)

theorem derives_insertion {source : List Char} {table : String} {columns values : List String}
    (filled : columns ≠ []) (sameLength : columns.length = values.length)
    (distinct : columns.Nodup) {ts written : Tokens} {closes : Token}
    (all : List.Forall₂ Part.Is (insertionParts table columns) ts)
    (listed : IsValues source written values) (closed : closes.kind = .rightParen) :
    Derives source .insert (ts ++ (written ++ [closes]))
      (.insert table columns values sameLength) := by
  obtain ⟨_, _, rfl, first, others⟩ := forall₂_split all
  obtain ⟨names, _, rfl, list, tokens⟩ := forall₂_split others
  obtain _ | ⟨into, _ | ⟨⟨spells, -⟩, _ | ⟨opened, _ | _⟩⟩⟩ := first
  obtain _ | ⟨closedNames, _ | ⟨word, _ | ⟨openedValues, _ | _⟩⟩⟩ := tokens
  have words : "INTO" ∈ Token.keywords ∧ "VALUES" ∈ Token.keywords := by decide
  have derived := Derives.insert (isKeyword_of_is into words.1) spells opened.kind
    (isNames_of_forall₂ filled list) closedNames.kind (isKeyword_of_is word words.2)
    openedValues.kind listed closed .nothing sameLength distinct
  simpa using derived

private theorem toList_insertion (table : String) (columns values : List String) :
    ("INSERT INTO " ++ table ++ " (" ++ ", ".intercalate columns ++ ") VALUES (" ++
      ", ".intercalate values ++ ")").toList =
        "INSERT".toList ++ ' ' :: insertionLead table columns ++ (joined values ++ [')']) := by
  simp [insertionLead, joined]

theorem tokenize_insertion {source : List Char} {table : String} {columns values : List String}
    (shape : source =
      "INSERT".toList ++ ' ' :: insertionLead table columns ++ (joined values ++ [')']))
    (bare : IsBare table.toList) (bareColumns : ∀ c ∈ columns, IsBare c.toList)
    (named : columns ≠ []) (filled : values ≠ []) (unquoted : ∀ v ∈ values, IsUnquoted v.toList)
    (verbatim : ∀ v ∈ values, IsVerbatim v.toList) :
    ∃ t ts written closes, Token.tokenize source = .ok (t :: (ts ++ (written ++ [closes]))) ∧
      List.Forall₂ Part.Is (insertionParts table columns) ts ∧ IsValues source written values ∧
      closes.kind = .rightParen := by
  have phrase := phrase_insertion bare named bareColumns (joined values ++ [')'])
  obtain ⟨_, _, rfl, all, reads⟩ := phrase.reads 0
  obtain ⟨t, ts, -, others, rfl⟩ := List.forall₂_cons_left_iff.mp all
  have opened : IsCalm (some .leftParen) := by decide
  obtain ⟨written, last, readsValues, listed⟩ := reads_values filled unquoted verbatim opened
    ("INSERT".toList ++ ' ' :: insertionLead table columns) []
  rw [← Nat.zero_add (List.length _)] at readsValues
  have closes := Token.reads_separator (by decide : ')' ∈ Token.separators) last
    (0 + ("INSERT".toList ++ ' ' :: insertionLead table columns ++ joined values).length) []
  have tokens := ((reads.append readsValues).append closes).tokenize
  rw [List.append_assoc, ← shape, List.append_assoc, List.cons_append] at tokens
  rw [← shape] at listed
  exact ⟨t, ts, written, _, tokens, others, listed, rfl⟩

/-- Values without quotes are inserted character by character. -/
theorem unquoted_values_verbatim {table : String} {columns values : List String}
    (bare : IsBare table.toList) (bareColumns : ∀ c ∈ columns, IsBare c.toList)
    (distinct : columns.Nodup) (filled : values ≠ []) (sameLength : columns.length = values.length)
    (unquoted : ∀ v ∈ values, IsUnquoted v.toList) (verbatim : ∀ v ∈ values, IsVerbatim v.toList) :
    parse ("INSERT INTO " ++ table ++ " (" ++ ", ".intercalate columns ++ ") VALUES (" ++
      ", ".intercalate values ++ ")") = .ok (.insert table columns values sameLength) := by
  have named : columns ≠ [] := by
    rintro rfl
    simp [eq_comm, filled] at sameLength
  have shape := toList_insertion table columns values
  generalize "INSERT INTO " ++ table ++ " (" ++ ", ".intercalate columns ++ ") VALUES (" ++
    ", ".intercalate values ++ ")" = text at shape ⊢
  have mark : (Piece.mark ')').Spells [')'] := by decide
  obtain ⟨t, ts, written, closes, tokens, others, listed, closed⟩ :=
    tokenize_insertion shape bare bareColumns named filled unquoted verbatim
  have ended : text.toList = Verb.insert.word.toList ++
      ' ' :: (insertionLead table columns ++ joined values) ++ [')'] := by
    rw [shape]
    simp [Verb.word]
  exact parse_of_solid ended (Token.solid_spelled mark) tokens
    (insert_iff.mpr (derives_insertion named sameLength distinct others listed closed))

theorem unquoted_values_verbatim_notes :
    parse "INSERT INTO notes (id, body, more) VALUES (a--b, /* c, x /*+ y */ \x7b# z #\x7d w)" =
      .ok (.insert "notes" ["id", "body", "more"]
        ["a--b", "/* c", "x /*+ y */ \x7b# z #\x7d w"] rfl) := by
  have read := @unquoted_values_verbatim "notes" ["id", "body", "more"]
    ["a--b", "/* c", "x /*+ y */ \x7b# z #\x7d w"] (by decide) (by decide) (by decide) (by decide)
    rfl (by decide +kernel) (by decide +kernel)
  exact read

/-- A comment at the beginning of a value is dropped. -/
theorem leading_hint_dropped : IsUnquoted "/*+ a */ b".toList ∧
    parse "INSERT INTO t (c) VALUES (/*+ a */ b)" = .ok (.insert "t" ["c"] ["b"] rfl) := by
  decide +kernel

end Cellstore.Statement
