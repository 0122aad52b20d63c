import Cellstore.Proofs.Statement.Clauses
import Cellstore.Proofs.Token.Bare

/-! Phrases: the fixed parts of statements, with names between them.
A name is written bare or in double quotes. Which kind of token a bare name becomes depends on the
word, and what follows must not depend on it. -/
namespace Cellstore.Statement
open Cellstore.Token (Piece Kind Ends Reads IsBare Parts IsCalm quoted separators markKind)

/-- The ways to write a name. -/
inductive SpellsName : String → List Char → Prop where
  | bare {s : List Char} (bare : IsBare s) : SpellsName (String.ofList s) s
  | quoted {n : String} (named : IsColumnName n) : SpellsName n (quoted '"' n)

theorem SpellsName.isColumnName {n : String} {s : List Char} (spells : SpellsName n s) :
    IsColumnName n := by
  cases spells with
  | bare bare => exact Token.isColumnName_of_isPlainName (by simpa using bare.isPlainName)
  | quoted named => exact named

/-- One part of a phrase. -/
inductive Part where
  | piece (p : Piece)
  | name (n : String)

/-- The tokens that a part can become. -/
def Part.Is : Part → Token → Prop
  | .piece p, t => p.Is t
  | .name n, t => t.name? = some n ∧ t.kind ≠ .parameter

/-- A text that writes some parts, to be read after a token of kind `previous` and before the text
`after`. The kind of its last token satisfies `Last`. -/
inductive Phrase (after : List Char) (Last : Option Kind → Prop) :
    Option Kind → List Part → List Char → Prop where
  | done {previous : Option Kind} (last : Last previous) : Phrase after Last previous [] []
  | blank {previous : Option Kind} {ps : List Part} {rest : List Char}
      (more : Phrase after Last previous ps rest) : Phrase after Last previous ps (' ' :: rest)
  | separator {previous : Option Kind} {c : Char} {ps : List Part} {rest : List Char}
      (member : c ∈ separators) (more : Phrase after Last (some (markKind c)) ps rest) :
      Phrase after Last previous (.piece (.mark c) :: ps) (c :: rest)
  | piece {previous : Option Kind} {p : Piece} {s : List Char} {ps : List Part} {rest : List Char}
      (free : previous ≠ some .parameter) (spelled : p.Spells s) (ends : Ends (rest ++ after))
      (more : Phrase after Last (some p.kind) ps rest) :
      Phrase after Last previous (.piece p :: ps) (s ++ rest)
  | name {previous : Option Kind} {n : String} {s : List Char} {ps : List Part} {rest : List Char}
      (calm : IsCalm previous) (spells : SpellsName n s) (ends : IsBare s ∨ Ends (rest ++ after))
      (parts : Parts (rest ++ after))
      (more : ∀ kind, kind ≠ .parameter → Phrase after Last (some kind) ps rest) :
      Phrase after Last previous (.name n :: ps) (s ++ rest)

theorem Phrase.last {after : List Char} {Last : Option Kind → Prop} {previous : Option Kind}
    {p : Piece} {s : List Char} (free : previous ≠ some .parameter) (spelled : p.Spells s)
    (ends : Ends after) (last : Last (some p.kind)) : Phrase after Last previous [.piece p] s := by
  have phrase : Phrase after Last previous [.piece p] (s ++ []) :=
    .piece free spelled ends (.done last)
  rwa [List.append_nil] at phrase

private theorem reads_name {n : String} {s after : List Char} (spells : SpellsName n s)
    (ends : IsBare s ∨ Ends after) (parts : Parts after) {previous : Option Kind}
    (calm : IsCalm previous) (start : Nat) :
    ∃ t, (Part.name n).Is t ∧ Reads previous start s after [t] (some t.kind) := by
  cases spells with
  | bare bare =>
    obtain ⟨t, spells, plain, reads⟩ := Token.reads_bare bare parts calm start
    exact ⟨t, ⟨spells, plain⟩, reads⟩
  | quoted named =>
    have before : Ends after := ends.resolve_left fun bare => by
      have first : Token.isNameChar '"' = true := bare.isNameChar '"' (List.mem_cons_self ..)
      exact absurd first (by decide)
    obtain ⟨t, is, reads⟩ := Token.reads_spelled (p := .name n) rfl before calm.2.2.2 start
    have kind : t.kind = .identifier := is.kind
    refine ⟨t, ⟨name?_of_is is named, by simp [kind]⟩, ?_⟩
    rw [is.kind]
    exact reads

theorem Phrase.reads {after : List Char} {Last : Option Kind → Prop} {previous : Option Kind}
    {ps : List Part} {s : List Char} (phrase : Phrase after Last previous ps s) (start : Nat) :
    ∃ ts last, Last last ∧ List.Forall₂ Part.Is ps ts ∧ Reads previous start s after ts last := by
  induction phrase generalizing start with
  | @done previous last =>
    exact ⟨[], previous, last, .nil, Token.reads_blanks (by decide) ..⟩
  | @blank previous ps rest more ih =>
    obtain ⟨ts, last, ends, all, reads⟩ := ih (start + 1)
    have gap : Reads previous start [' '] (rest ++ after) [] previous :=
      Token.reads_blanks (by decide) ..
    exact ⟨ts, last, ends, all, gap.append reads⟩
  | @separator previous c ps rest member more ih =>
    obtain ⟨ts, last, ends, all, reads⟩ := ih (start + 1)
    have known : ∀ d ∈ separators, d ∈ Token.statementMarks :=
      Token.forall_mem_of_all (by decide)
    have read := Token.reads_separator member previous start (rest ++ after)
    exact ⟨_, last, ends, .cons ⟨rfl, known c member, rfl⟩ all, read.append reads⟩
  | @piece previous p s ps rest free spelled before more ih =>
    obtain ⟨ts, last, ends, all, reads⟩ := ih (start + s.length)
    obtain ⟨t, is, read⟩ := Token.reads_spelled spelled before free start
    exact ⟨t :: ts, last, ends, .cons is all, read.append reads⟩
  | @name previous n s ps rest calm spells before parts more ih =>
    obtain ⟨t, is, read⟩ := reads_name spells before parts calm start
    obtain ⟨ts, last, ends, all, reads⟩ := ih t.kind is.2 (start + s.length)
    exact ⟨t :: ts, last, ends, .cons is all, read.append reads⟩

end Cellstore.Statement
