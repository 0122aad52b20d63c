import Cellstore.Proofs.Statement.Moved
import Cellstore.Proofs.Statement.Phrase
import Cellstore.Proofs.Statement.Verb

/-! Statements that end in conditions.
Selections, deletions and updates read the text after WHERE alike: whether it states a filter, and
which, depends on this text only. -/
namespace Cellstore.Statement
open Cellstore.Token (Piece Kind Ends quoted moved)

/-! The rules up to WHERE. -/

def onlyConditions (source : List Char) (ts : Tokens) : Except Cause Filter := do
  let (filter, rest) ← conditions source ts
  finish rest
  return filter

theorem onlyConditions_moved (lead s : List Char) (ts : Tokens) :
    onlyConditions (lead ++ s) (ts.map (moved lead.length)) = onlyConditions s ts := by
  simp only [onlyConditions, bind, Except.bind]
  rw [moves_conditions]
  cases conditions s ts with
  | error e => rfl
  | ok r => simp only [Except.map, later, finish_moved]

def filterOf? (after : List Char) : Option Filter :=
  match Token.scan (some .other) 0 after with
  | .error _ => none
  | .ok ts => (onlyConditions after ts).toOption

/-- The rule of a verb reads these parts, and then conditions to the end. -/
def EndsInConditions (verb : Verb) (parts : List Part) (command : Filter → Command) : Prop :=
  ∀ source t ts more, List.Forall₂ Part.Is parts (t :: ts) →
    verb.read source (ts ++ more) = labelled verb.word ((onlyConditions source more).map command)

private theorem name_is {n : String} {t : Token} (is : (Part.name n).Is t) (what : String)
    (ts : Tokens) : name what (t :: ts) = .ok (n, ts) := by
  simp [name, is.1]

theorem select_endsInConditions (table : String) :
    EndsInConditions .select [.piece (.keyword "SELECT"), .piece (.mark '*'),
      .piece (.keyword "FROM"), .name table, .piece (.keyword "WHERE")] (.select table []) := by
  rintro source _ _ more (_ | ⟨-, _ | ⟨star, _ | ⟨from_, _ | ⟨named, _ | ⟨where_, _ | _⟩⟩⟩⟩⟩)
  rename_i a b u d
  have starred : atKind .star (a :: b :: u :: d :: more) = true := atKind_cons star .star _
  have found : atKeyword "WHERE" (d :: more) = true := atKeyword_cons where_ (by decide) _
  simp only [Verb.read, select, Verb.word, List.cons_append, List.nil_append, selection, starred,
    if_true, List.tail_cons, keyword_cons from_, name_is named, found, onlyConditions, bind,
    Except.bind]
  cases conditions source more with
  | error e => rfl
  | ok r =>
    dsimp only
    cases finish r.2 <;> rfl

theorem delete_endsInConditions (table : String) :
    EndsInConditions .delete [.piece (.keyword "DELETE"), .piece (.keyword "FROM"), .name table,
      .piece (.keyword "WHERE")] (.delete table) := by
  rintro source _ _ more (_ | ⟨-, _ | ⟨from_, _ | ⟨named, _ | ⟨where_, _ | _⟩⟩⟩⟩)
  rename_i a u d
  simp only [Verb.read, delete, Verb.word, List.cons_append, List.nil_append, keyword_cons from_,
    name_is named, keyword_cons where_, onlyConditions, bind, Except.bind]
  cases conditions source more with
  | error e => rfl
  | ok r =>
    dsimp only
    cases finish r.2 <;> rfl

theorem update_endsInConditions (table column v : String) :
    EndsInConditions .update [.piece (.keyword "UPDATE"), .name table, .piece (.keyword "SET"),
      .name column, .piece (.mark '='), .piece (.value v), .piece (.keyword "WHERE")]
      (.update table column v) := by
  rintro source _ _ more (_ | ⟨-, _ | ⟨named, _ | ⟨set, _ | ⟨namedColumn, _ | ⟨sign, _ | ⟨valued,
    _ | ⟨where_, _ | _⟩⟩⟩⟩⟩⟩⟩)
  rename_i t a u b x d
  have stops : ∀ z ∈ (d :: more).head?, endsAssignedValue z = true := by
    have found : d.isKeyword "WHERE" = true := isKeyword_of_is where_ (by decide)
    simp [endsAssignedValue, found]
  have single : atKind .comma (d :: more) = false := atKind_cons where_ .comma _
  have equals : symbol .equals "'='" (b :: x :: d :: more) = .ok (x :: d :: more) :=
    symbol_cons sign _ _
  have read := value_cons valued (goes_assigned x valued) stops source
  simp only [Verb.read, update, Verb.word, List.cons_append, List.nil_append, name_is named,
    keyword_cons set, name_is namedColumn, equals, read, single, keyword_cons where_,
    onlyConditions, bind, Except.bind]
  cases conditions source more with
  | error e => rfl
  | ok r =>
    dsimp only
    cases finish r.2 <;> rfl

/-! The texts up to WHERE. -/

section
variable {table column : String} {t c after : List Char}

private theorem parts_where (rest : List Char) : Token.Parts (' ' :: ("WHERE".toList ++ rest)) :=
  @Token.parts_append ' ' ['W'] (by decide) (by decide +kernel) ("HERE".toList ++ rest)

private theorem parts_set (rest : List Char) : Token.Parts (' ' :: ("SET".toList ++ ' ' :: rest)) :=
  @Token.parts_append ' ' ['S', 'E', 'T', ' '] (by decide) (by decide +kernel) rest

private theorem parts_equals (rest : List Char) : Token.Parts (' ' :: (['='] ++ rest)) :=
  @Token.parts_append ' ' ['='] (by decide) (by decide +kernel) rest

private theorem where_last (ends : Ends after) {previous : Option Kind}
    (free : previous ≠ some .parameter) :
    Phrase after (· = some .other) previous [.piece (.keyword "WHERE")] "WHERE".toList :=
  .last free (by decide) ends (by decide)

private theorem phrase_selection (spells : SpellsName table t) (ends : Ends after) :
    Phrase after (· = some .other) none [.piece (.keyword "SELECT"), .piece (.mark '*'),
      .piece (.keyword "FROM"), .name table, .piece (.keyword "WHERE")]
      ("SELECT".toList ++ ' ' :: (['*'] ++ ' ' :: ("FROM".toList ++ ' ' :: (t ++ ' ' ::
        "WHERE".toList)))) := by
  refine .piece (by decide) (by decide) (Token.ends_space _) (.blank ?_)
  refine .piece (by decide) (by decide) (Token.ends_space _) (.blank ?_)
  refine .piece (by decide) (by decide) (Token.ends_space _) (.blank ?_)
  refine .name (by decide) spells (.inr (Token.ends_space _)) (parts_where _) fun kind free =>
    .blank ?_
  exact where_last ends (by simpa using free)

private theorem phrase_deletion (spells : SpellsName table t) (ends : Ends after) :
    Phrase after (· = some .other) none [.piece (.keyword "DELETE"), .piece (.keyword "FROM"),
      .name table, .piece (.keyword "WHERE")]
      ("DELETE".toList ++ ' ' :: ("FROM".toList ++ ' ' :: (t ++ ' ' :: "WHERE".toList))) := by
  refine .piece (by decide) (by decide) (Token.ends_space _) (.blank ?_)
  refine .piece (by decide) (by decide) (Token.ends_space _) (.blank ?_)
  refine .name (by decide) spells (.inr (Token.ends_space _)) (parts_where _) fun kind free =>
    .blank ?_
  exact where_last ends (by simpa using free)

private theorem phrase_update (spells : SpellsName table t) (spellsColumn : SpellsName column c)
    (v : String) (ends : Ends after) :
    Phrase after (· = some .other) none [.piece (.keyword "UPDATE"), .name table,
      .piece (.keyword "SET"), .name column, .piece (.mark '='), .piece (.value v),
      .piece (.keyword "WHERE")]
      ("UPDATE".toList ++ ' ' :: (t ++ ' ' :: ("SET".toList ++ ' ' :: (c ++ ' ' :: (['='] ++ ' ' ::
        (quoted '\'' v ++ ' ' :: "WHERE".toList)))))) := by
  refine .piece (by decide) (by decide) (Token.ends_space _) (.blank ?_)
  refine .name (by decide) spells (.inr (Token.ends_space _)) (parts_set _) fun kind free =>
    .blank ?_
  refine .piece (by simpa using free) (by decide) (Token.ends_space _) (.blank ?_)
  refine .name (by decide) spellsColumn (.inr (Token.ends_space _)) (parts_equals _) fun kind free =>
    .blank ?_
  refine .piece (by simpa using free) (by decide) (Token.ends_space _) (.blank ?_)
  refine .piece (by decide) rfl (Token.ends_space _) (.blank ?_)
  exact where_last ends (by simp [Piece.kind])

end

/-! The statements. -/

theorem parse_where_iff {verb : Verb} {p : Part} {parts : List Part} {command : Filter → Command}
    {lead w : List Char} {text : String} (shape : text.toList = lead ++ ' ' :: w)
    (bounds : ∃ middle, lead = verb.word.toList ++ ' ' :: middle ++ "WHERE".toList)
    (phrase : ∀ after, Ends after → Phrase after (· = some .other) none (p :: parts) lead)
    (rule : EndsInConditions verb (p :: parts) command) (c : Command) :
    parse text = .ok c ↔
      ∃ filter, filterOf? (Text.dropRightWhile Text.isBlank (' ' :: w)) = some filter ∧
        c = command filter := by
  obtain ⟨middle, same⟩ := bounds
  have spelled := verb.spells_word
  have where_ : (Piece.keyword "WHERE").Spells "WHERE".toList := by decide
  have solid : Token.Solid lead :=
    same ▸ (Token.solid_spelled spelled).append (Token.solid_spelled where_) (' ' :: middle)
  have trimmed := Token.trim_append solid (' ' :: w)
  rw [← shape] at trimmed
  have ends : Ends (Text.dropRightWhile Text.isBlank (' ' :: w)) := by
    intro d first
    have kept := Token.dropRightWhile_prefix Text.isBlank (' ' :: w)
    obtain ⟨more, shape⟩ := List.head?_eq_some_iff.mp first
    rw [shape, List.cons_prefix_cons] at kept
    exact .inl (kept.1 ▸ Text.isBlank_space)
  generalize Text.dropRightWhile Text.isBlank (' ' :: w) = after at trimmed ends ⊢
  obtain ⟨ts, last, rfl, all, reads⟩ := (phrase after ends).reads 0
  have word : leadingWord (lead ++ after) = verb.word := by
    rw [same, List.append_assoc, List.append_assoc, List.cons_append]
    exact leadingWord_of_spelled spelled Text.isBlank_space _
  have filled : lead ++ after ≠ [] := by simp [same]
  rw [parse_eq_ok_iff trimmed filled word, Token.tokenize, reads, Token.scan_moved, filterOf?]
  cases Token.scan (some .other) 0 after with
  | error unclosed => simp [Except.map]
  | ok more =>
    obtain ⟨t, us, is, others, rfl⟩ := List.forall₂_cons_left_iff.mp all
    have read := rule (lead ++ after) t us (more.map (moved lead.length)) all
    rw [onlyConditions_moved] at read
    have tokens (t' : Token) (ts' : Tokens) :
        Except.map (t :: us ++ ·) (Except.map (·.map (moved lead.length))
          (.ok more : Except Token.Unclosed Tokens)) = .ok (t' :: ts') ↔
          t = t' ∧ us ++ more.map (moved lead.length) = ts' := by
      simp [Except.map]
    simp only [tokens, existsAndEq, true_and, read]
    cases onlyConditions after more with
    | error cause => simp [labelled, Except.map, Except.toOption]
    | ok filter => simp [labelled, Except.map, Except.toOption, eq_comm]

/-- What is read of a text after WHERE: all but the blanks at its end, and nothing of a blank one. -/
def clauseOf (w : String) : List Char := Text.dropRightWhile Text.isBlank (' ' :: w.toList)

def quotedValue (v : String) : String := String.ofList (quoted '\'' v)

section
variable {table column : String} {t c : String}

private theorem toList_select : "SELECT * FROM ".toList =
    "SELECT".toList ++ ' ' :: (['*'] ++ ' ' :: ("FROM".toList ++ [' '])) := rfl

private theorem toList_delete : "DELETE FROM ".toList =
    "DELETE".toList ++ ' ' :: ("FROM".toList ++ [' ']) := rfl

private theorem toList_update : "UPDATE ".toList = "UPDATE".toList ++ [' '] := rfl

private theorem toList_set : " SET ".toList = ' ' :: ("SET".toList ++ [' ']) := rfl

private theorem toList_equals : " = ".toList = ' ' :: (['='] ++ [' ']) := rfl

private theorem toList_where : " WHERE ".toList = ' ' :: ("WHERE".toList ++ [' ']) := rfl

theorem parse_selection_iff (spells : SpellsName table t.toList) (w : String) (command : Command) :
    parse ("SELECT * FROM " ++ t ++ " WHERE " ++ w) = .ok command ↔
      ∃ filter, filterOf? (clauseOf w) = some filter ∧ command = .select table [] filter := by
  refine parse_where_iff ?_ ⟨['*'] ++ ' ' :: ("FROM".toList ++ ' ' :: (t.toList ++ [' '])), ?_⟩
    (fun after => phrase_selection spells) (select_endsInConditions table) command
  · simp only [String.toList_append, toList_select, toList_where, List.append_assoc,
      List.cons_append, List.nil_append]
  · simp only [Verb.word, List.append_assoc, List.cons_append, List.nil_append]

theorem parse_deletion_iff (spells : SpellsName table t.toList) (w : String) (command : Command) :
    parse ("DELETE FROM " ++ t ++ " WHERE " ++ w) = .ok command ↔
      ∃ filter, filterOf? (clauseOf w) = some filter ∧ command = .delete table filter := by
  refine parse_where_iff ?_ ⟨"FROM".toList ++ ' ' :: (t.toList ++ [' ']), ?_⟩
    (fun after => phrase_deletion spells) (delete_endsInConditions table) command
  · simp only [String.toList_append, toList_delete, toList_where, List.append_assoc,
      List.cons_append, List.nil_append]
  · simp only [Verb.word, List.append_assoc, List.cons_append, List.nil_append]

theorem parse_update_iff (spells : SpellsName table t.toList)
    (spellsColumn : SpellsName column c.toList) (v w : String) (command : Command) :
    parse ("UPDATE " ++ t ++ " SET " ++ c ++ " = " ++ quotedValue v ++ " WHERE " ++ w) =
      .ok command ↔
        ∃ filter, filterOf? (clauseOf w) = some filter ∧
          command = .update table column v filter := by
  refine parse_where_iff ?_ ⟨t.toList ++ ' ' :: ("SET".toList ++ ' ' :: (c.toList ++ ' ' ::
    (['='] ++ ' ' :: (quoted '\'' v ++ [' '])))), ?_⟩
    (fun after => phrase_update spells spellsColumn v) (update_endsInConditions table column v)
    command
  · simp only [String.toList_append, toList_update, toList_set, toList_equals, toList_where,
      quotedValue, String.toList_ofList, List.append_assoc, List.cons_append, List.nil_append]
  · simp only [Verb.word, List.append_assoc, List.cons_append, List.nil_append]

/-- Whatever stands after WHERE, the three statements fail together or have one filter. -/
theorem filters_agree (spells : SpellsName table t.toList)
    (spellsColumn : SpellsName column c.toList) (v w : String) :
    (∃ f g h, parse ("SELECT * FROM " ++ t ++ " WHERE " ++ w) = .error f ∧
      parse ("DELETE FROM " ++ t ++ " WHERE " ++ w) = .error g ∧
      parse ("UPDATE " ++ t ++ " SET " ++ c ++ " = " ++ quotedValue v ++ " WHERE " ++ w) =
        .error h) ∨
    ∃ filter, parse ("SELECT * FROM " ++ t ++ " WHERE " ++ w) = .ok (.select table [] filter) ∧
      parse ("DELETE FROM " ++ t ++ " WHERE " ++ w) = .ok (.delete table filter) ∧
      parse ("UPDATE " ++ t ++ " SET " ++ c ++ " = " ++ quotedValue v ++ " WHERE " ++ w) =
        .ok (.update table column v filter) := by
  have selection := parse_selection_iff spells w
  have deletion := parse_deletion_iff spells w
  have update := parse_update_iff spells spellsColumn v w
  cases stated : filterOf? (clauseOf w) with
  | none =>
    have fails {text : String} {command : Filter → Command}
        (h : ∀ c, parse text = .ok c ↔ ∃ filter, filterOf? (clauseOf w) = some filter ∧
          c = command filter) : ∃ fault, parse text = .error fault := by
      cases read : parse text with
      | error fault => exact ⟨fault, rfl⟩
      | ok c =>
        obtain ⟨filter, found, -⟩ := (h c).mp read
        rw [stated] at found
        cases found
    obtain ⟨⟨f, selection⟩, ⟨g, deletion⟩, ⟨h, update⟩⟩ :=
      And.intro (fails selection) (And.intro (fails deletion) (fails update))
    exact .inl ⟨f, g, h, selection, deletion, update⟩
  | some filter =>
    exact .inr ⟨filter, (selection _).mpr ⟨filter, stated, rfl⟩, (deletion _).mpr ⟨filter, stated, rfl⟩,
      (update _).mpr ⟨filter, stated, rfl⟩⟩

/-! A selection without conditions. -/

private theorem solid_name (spells : SpellsName table t.toList) : Token.Solid t.toList := by
  generalize t.toList = s at spells
  cases spells with
  | bare bare =>
    have solid : ∀ d ∈ s, Text.isBlank d = false :=
      fun d member => Token.not_isBlank_of_isNameChar (bare.isNameChar d member)
    have filled : s ≠ [] := by
      rintro rfl
      exact bare
    exact ⟨⟨s.head filled, List.head?_eq_some_head filled, solid _ (List.head_mem filled)⟩,
      ⟨s.getLast filled, List.getLast?_eq_some_getLast filled, solid _ (List.getLast_mem filled)⟩⟩
  | quoted named => exact @Token.solid_spelled (.name table) _ rfl

theorem parse_everything (spells : SpellsName table t.toList) :
    parse ("SELECT * FROM " ++ t) = .ok (.select table [] []) := by
  have phrase : Phrase [] (fun _ => True) none [.piece (.keyword "SELECT"), .piece (.mark '*'),
      .piece (.keyword "FROM"), .name table]
      ("SELECT".toList ++ ' ' :: (['*'] ++ ' ' :: ("FROM".toList ++ ' ' :: (t.toList ++ [])))) := by
    refine .piece (by decide) (by decide) (Token.ends_space _) (.blank ?_)
    refine .piece (by decide) (by decide) (Token.ends_space _) (.blank ?_)
    refine .piece (by decide) (by decide) (Token.ends_space _) (.blank ?_)
    exact .name (by decide) spells (.inr Token.ends_nil) Token.parts_nil fun _ _ => .done trivial
  have shape : ("SELECT * FROM " ++ t).toList =
      Verb.select.word.toList ++ ' ' :: (['*'] ++ ' ' :: ("FROM".toList ++ [' '])) ++ t.toList := by
    rw [String.toList_append, toList_select]
    rfl
  obtain ⟨ts, last, -, all, reads⟩ := phrase.reads 0
  have tokens : Token.tokenize ("SELECT * FROM " ++ t).toList = .ok ts := by
    rw [shape]
    simpa [Verb.word] using reads.tokenize
  rcases all with _ | ⟨-, _ | ⟨star, _ | ⟨from_, _ | ⟨named, _ | _⟩⟩⟩⟩
  rename_i a b d u
  refine parse_of_solid shape (solid_name spells) tokens ?_
  have starred : atKind .star [b, d, u] = true := atKind_cons star .star _
  simp only [Verb.read, select, selection, starred, if_true, List.tail_cons, keyword_cons from_,
    name_is named, bind, Except.bind]
  rfl

end

end Cellstore.Statement
