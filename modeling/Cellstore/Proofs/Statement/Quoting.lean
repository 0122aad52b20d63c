import Cellstore.Proofs.Statement.Acceptance
import Cellstore.Proofs.Statement.Clauses
import Cellstore.Proofs.Statement.Verb

/-! Quoting is safe: a statement whose names and values are quoted is read as the command that
it writes, whatever the quoted texts hold, in any letter case of its keywords and with any
blanks between its pieces. -/
namespace Cellstore.Statement
open Cellstore.Token (Piece Blanks Written Ending Closes keywords statementMarks)

def verbOf : Command → Verb
  | .createDatabase _ => .create
  | .useDatabase _ => .use
  | .createTable _ _ => .create
  | .insert _ _ _ _ => .insert
  | .select _ _ _ => .select
  | .update _ _ _ _ => .update
  | .delete _ _ => .delete
  | .dropTable _ => .drop

/-- No columns are written as a star. -/
def selectionPieces (columns : List String) : List Piece :=
  if columns = [] then [.mark '*'] else namePieces columns

/-- A clause without tests is left out. -/
def wherePieces (filter : Filter) : List Piece :=
  if filter = [] then [] else .keyword "WHERE" :: filterPieces filter

/-- The pieces of a statement after its verb. A column definition is free text and no piece, so
there are none for the creation of a table. -/
def clauses : Command → List Piece
  | .createDatabase database => [.keyword "DATABASE", .name database]
  | .useDatabase database => [.name database]
  | .createTable _ _ => []
  | .insert table columns values _ =>
    .keyword "INTO" :: .name table ::
      (.mark '(' :: (namePieces columns ++ [.mark ')']) ++
        .keyword "VALUES" :: .mark '(' :: (valuePieces values ++ [.mark ')']))
  | .select table columns filter =>
    selectionPieces columns ++ .keyword "FROM" :: .name table :: wherePieces filter
  | .update table column value filter =>
    .name table :: .keyword "SET" :: .name column :: .mark '=' :: .value value ::
      .keyword "WHERE" :: filterPieces filter
  | .delete table filter =>
    .keyword "FROM" :: .name table :: .keyword "WHERE" :: filterPieces filter
  | .dropTable table => [.keyword "TABLE", .name table]

def pieces (c : Command) : List Piece := .keyword (verbOf c).word :: clauses c

/-- Which commands have a quoted statement. Values are free; names are what column names are. -/
def Quotable : Command → Prop
  | .createDatabase database => IsColumnName database
  | .useDatabase database => IsColumnName database
  | .createTable _ _ => False
  | .insert table columns _ _ =>
    IsColumnName table ∧ columns ≠ [] ∧ columns.Nodup ∧ ∀ n ∈ columns, IsColumnName n
  | .select table columns filter =>
    IsColumnName table ∧ (∀ n ∈ columns, IsColumnName n) ∧ ∀ p ∈ filter, IsColumnName p.column
  | .update table column _ filter =>
    IsColumnName table ∧ IsColumnName column ∧ filter ≠ [] ∧ ∀ p ∈ filter, IsColumnName p.column
  | .delete table filter =>
    IsColumnName table ∧ filter ≠ [] ∧ ∀ p ∈ filter, IsColumnName p.column
  | .dropTable table => IsColumnName table

/-- A text that states a command: its pieces with blanks between them, between blanks, and
perhaps a semicolon at the end. -/
def States (c : Command) (text : String) : Prop :=
  ∃ lead body ending, text.toList = lead ++ (body ++ ending) ∧
    Blanks lead ∧ Written (pieces c) body ∧ Ending ending

/-! The clauses of each statement are read back. -/

variable {source : List Char} {ts rest : Tokens}

private theorem use_spelled {database : String} (isName : IsColumnName database)
    (spelled : Spelled [.name database] ts) (closes : Closes rest) :
    use (ts ++ rest) = .ok (.useDatabase database) := by
  obtain ⟨t, us, is, none, rfl⟩ := List.forall₂_cons_left_iff.1 spelled
  cases none
  have read := name_cons is isName "database name" rest
  simp only [use, List.cons_append, List.nil_append, read, finish_of_closes closes, bind,
    Except.bind]
  rfl

private theorem create_spelled {database : String} (isName : IsColumnName database)
    (spelled : Spelled [.keyword "DATABASE", .name database] ts) (closes : Closes rest) :
    create source (ts ++ rest) = .ok (.createDatabase database) := by
  obtain ⟨t, us, object, tail, rfl⟩ := List.forall₂_cons_left_iff.1 spelled
  obtain ⟨u, vs, is, none, rfl⟩ := List.forall₂_cons_left_iff.1 tail
  cases none
  have found : atKeyword "DATABASE" (t :: u :: rest) = true := atKeyword_cons object (by decide) _
  have read := name_cons is isName "database name" rest
  simp only [create, List.cons_append, List.nil_append, found, if_true, List.tail_cons,
    createDatabase, read, finish_of_closes closes, bind, Except.bind]
  rfl

private theorem drop_spelled {table : String} (isName : IsColumnName table)
    (spelled : Spelled [.keyword "TABLE", .name table] ts) (closes : Closes rest) :
    drop (ts ++ rest) = .ok (.dropTable table) := by
  obtain ⟨t, us, object, tail, rfl⟩ := List.forall₂_cons_left_iff.1 spelled
  obtain ⟨u, vs, is, none, rfl⟩ := List.forall₂_cons_left_iff.1 tail
  cases none
  have start := keyword_cons object (u :: rest)
  have read := name_cons is isName "table name" rest
  simp only [drop, List.cons_append, List.nil_append, start, labelled, read,
    finish_of_closes closes, bind, Except.bind]
  rfl

private theorem insert_spelled {table : String} {columns values : List String}
    {sameLength : columns.length = values.length}
    (quotable : Quotable (.insert table columns values sameLength))
    (spelled : Spelled (clauses (.insert table columns values sameLength)) ts)
    (closes : Closes rest) :
    insert source (ts ++ rest) = .ok (.insert table columns values sameLength) := by
  obtain ⟨isTable, filled, distinct, named⟩ := quotable
  obtain ⟨t, us, into, tail, rfl⟩ := List.forall₂_cons_left_iff.1 spelled
  obtain ⟨u, vs, is, listed, rfl⟩ := List.forall₂_cons_left_iff.1 tail
  obtain ⟨columnTokens, ws, rfl, listedColumns, remaining⟩ := forall₂_split listed
  obtain ⟨w, valueTokens, word, listedValues, rfl⟩ := List.forall₂_cons_left_iff.1 remaining
  have filledValues : values ≠ [] := by
    intro empty
    rw [empty, List.length_nil, List.length_eq_zero_iff] at sameLength
    exact filled sameLength
  have start := keyword_cons into (u :: (columnTokens ++ w :: (valueTokens ++ rest)))
  have readTable := name_cons is isTable "table name" (columnTokens ++ w :: (valueTokens ++ rest))
  have readColumns := nameList_reads filled named (fun _ => True) columnTokens
    (w :: (valueTokens ++ rest)) listedColumns (fun _ _ => trivial)
  have next := keyword_cons word (valueTokens ++ rest)
  have readValues := valueList_reads filledValues source (fun _ => True) valueTokens rest
    listedValues (fun _ _ => trivial)
  simp only [insert, List.cons_append, List.append_assoc, start, readTable, readColumns, next,
    readValues, finish_of_closes closes, duplicates_isEmpty_iff.mpr distinct, sameLength, bind,
    Except.bind]
  rfl

private theorem selection_reads {columns : List String} (named : ∀ n ∈ columns, IsColumnName n) :
    ReadsAs selection (selectionPieces columns) (fun u => u.kind ≠ .comma) columns := by
  intro ts rest spelled apart
  cases columns with
  | nil =>
    obtain ⟨t, us, star, none, rfl⟩ := List.forall₂_cons_left_iff.1 spelled
    cases none
    have found : atKind .star (t :: rest) = true := atKind_cons star .star rest
    simp [selection, found]
  | cons n ns =>
    have read := names_reads (by simp) named ts rest spelled apart
    obtain ⟨t, us, is, -, rfl⟩ := List.forall₂_cons_left_iff.1 spelled
    have noStar : atKind .star (t :: (us ++ rest)) = false := atKind_cons is .star _
    have noFrom : atKeyword "FROM" (t :: (us ++ rest)) = false := atKeyword_cons is (by decide) _
    rw [List.cons_append] at read ⊢
    simp [selection, noStar, noFrom, read]

private theorem where_spelled {filter : Filter} (named : ∀ p ∈ filter, IsColumnName p.column)
    (spelled : Spelled (wherePieces filter) ts) (closes : Closes rest) (source : List Char) :
    (atKeyword "WHERE" (ts ++ rest) = true ∧
      conditions source (ts ++ rest).tail = .ok (filter, rest)) ∨
    (atKeyword "WHERE" (ts ++ rest) = false ∧ filter = [] ∧ ts = []) := by
  cases filter with
  | nil =>
    cases spelled
    refine Or.inr ⟨?_, rfl, rfl⟩
    cases closes with
    | nothing => rfl
    | semicolon is => exact atKeyword_cons is (by decide) []
  | cons p filter =>
    obtain ⟨t, us, word, tested, rfl⟩ := List.forall₂_cons_left_iff.1 spelled
    exact Or.inl ⟨atKeyword_cons word (by decide) _,
      conditions_reads (by simp) named source us rest tested (head_of_closes closes)⟩

private theorem select_spelled {table : String} {columns : List String} {filter : Filter}
    (quotable : Quotable (.select table columns filter))
    (spelled : Spelled (clauses (.select table columns filter)) ts) (closes : Closes rest) :
    select source (ts ++ rest) = .ok (.select table columns filter) := by
  obtain ⟨isTable, named, namedFilter⟩ := quotable
  obtain ⟨columnTokens, us, rfl, listed, tail⟩ := forall₂_split spelled
  obtain ⟨t, vs, word, tableTail, rfl⟩ := List.forall₂_cons_left_iff.1 tail
  obtain ⟨u, filterTokens, is, tested, rfl⟩ := List.forall₂_cons_left_iff.1 tableTail
  have apart : ∀ v ∈ (t :: u :: (filterTokens ++ rest)).head?, v.kind ≠ .comma := by
    intro v first
    have same : t = v := by simpa using first
    have kind : t.kind = .other := word.kind
    simp [← same, kind]
  have readColumns := selection_reads named columnTokens (t :: u :: (filterTokens ++ rest)) listed
    apart
  have next := keyword_cons word (u :: (filterTokens ++ rest))
  have readTable := name_cons is isTable "table name" (filterTokens ++ rest)
  rcases where_spelled namedFilter tested closes source with ⟨found, readFilter⟩ | ⟨ended, rfl, rfl⟩
  · simp only [select, List.cons_append, List.append_assoc, readColumns, next, readTable, found,
      if_true, readFilter, finish_of_closes closes, bind, Except.bind]
    rfl
  · rw [List.nil_append] at ended readTable next readColumns
    simp only [select, List.cons_append, List.append_assoc, List.nil_append, readColumns, next,
      readTable, ended, finish_of_closes closes, bind, Except.bind, pure, Except.pure,
      Bool.false_eq_true, if_false]
    rfl

private theorem update_spelled {table column value : String} {filter : Filter}
    (quotable : Quotable (.update table column value filter))
    (spelled : Spelled (clauses (.update table column value filter)) ts) (closes : Closes rest) :
    update source (ts ++ rest) = .ok (.update table column value filter) := by
  obtain ⟨isTable, isColumn, filled, named⟩ := quotable
  obtain ⟨t, afterTable, isT, spelledTable, rfl⟩ := List.forall₂_cons_left_iff.1 spelled
  obtain ⟨u, afterSet, isSet, spelledSet, rfl⟩ := List.forall₂_cons_left_iff.1 spelledTable
  obtain ⟨v, afterColumn, isC, spelledColumn, rfl⟩ := List.forall₂_cons_left_iff.1 spelledSet
  obtain ⟨w, afterSign, isSign, spelledSign, rfl⟩ := List.forall₂_cons_left_iff.1 spelledColumn
  obtain ⟨x, afterValue, isV, spelledValue, rfl⟩ := List.forall₂_cons_left_iff.1 spelledSign
  obtain ⟨y, tested, isWhere, spelledFilter, rfl⟩ := List.forall₂_cons_left_iff.1 spelledValue
  have stops : ∀ z ∈ (y :: (tested ++ rest)).head?, endsAssignedValue z = true := by
    intro z first
    have same : y = z := by simpa using first
    have found : y.isKeyword "WHERE" = true := isKeyword_of_is isWhere (by decide)
    simp [← same, endsAssignedValue, found]
  have single : atKind .comma (y :: (tested ++ rest)) = false := atKind_cons isWhere .comma _
  have readTable := name_cons isT isTable "table name" (u :: v :: w :: x :: y :: (tested ++ rest))
  have set := keyword_cons isSet (v :: w :: x :: y :: (tested ++ rest))
  have readColumn := name_cons isC isColumn "column name" (w :: x :: y :: (tested ++ rest))
  have sign : symbol .equals "'='" (w :: x :: y :: (tested ++ rest)) =
      .ok (x :: y :: (tested ++ rest)) := symbol_cons isSign _ _
  have readValue := value_cons isV (goes_assigned x isV) stops source
  have next := keyword_cons isWhere (tested ++ rest)
  have readFilter := conditions_reads filled named source tested rest spelledFilter
    (head_of_closes closes)
  simp only [update, List.cons_append, readTable, set, readColumn, sign, readValue, single, next,
    readFilter, finish_of_closes closes, bind, Except.bind]
  rfl

private theorem delete_spelled {table : String} {filter : Filter}
    (quotable : Quotable (.delete table filter))
    (spelled : Spelled (clauses (.delete table filter)) ts) (closes : Closes rest) :
    delete source (ts ++ rest) = .ok (.delete table filter) := by
  obtain ⟨isTable, filled, named⟩ := quotable
  obtain ⟨t, us, fromWord, tail, rfl⟩ := List.forall₂_cons_left_iff.1 spelled
  obtain ⟨u, vs, is, tableTail, rfl⟩ := List.forall₂_cons_left_iff.1 tail
  obtain ⟨v, filterTokens, whereWord, tested, rfl⟩ := List.forall₂_cons_left_iff.1 tableTail
  have start := keyword_cons fromWord (u :: v :: (filterTokens ++ rest))
  have readTable := name_cons is isTable "table name" (v :: (filterTokens ++ rest))
  have next := keyword_cons whereWord (filterTokens ++ rest)
  have readFilter := conditions_reads filled named source filterTokens rest tested
    (head_of_closes closes)
  simp only [delete, List.cons_append, start, readTable, next, readFilter,
    finish_of_closes closes, bind, Except.bind]
  rfl

theorem read_clauses {c : Command} (quotable : Quotable c) (spelled : Spelled (clauses c) ts)
    (closes : Closes rest) : (verbOf c).read source (ts ++ rest) = .ok c := by
  cases c with
  | createDatabase database => exact create_spelled quotable spelled closes
  | useDatabase database => exact use_spelled quotable spelled closes
  | createTable table columns => exact quotable.elim
  | insert table columns values sameLength => exact insert_spelled quotable spelled closes
  | select table columns filter => exact select_spelled quotable spelled closes
  | update table column value filter => exact update_spelled quotable spelled closes
  | delete table filter => exact delete_spelled quotable spelled closes
  | dropTable table => exact drop_spelled quotable spelled closes

/-! The verb is the first word of the statement. -/

private theorem clauses_ne_nil {c : Command} (quotable : Quotable c) : clauses c ≠ [] := by
  cases c with
  | createTable table columns => exact quotable.elim
  | select table columns filter => simp [clauses]
  | _ => simp [clauses]

theorem leadingWord_of_written {w : String} {ps : List Piece} {body : List Char}
    (written : Written (.keyword w :: ps) body) (more : ps ≠ []) (after : List Char) :
    leadingWord (body ++ after) = w := by
  cases written with
  | last spelled => exact absurd rfl more
  | @next _ s gap _ rest spelled apart blank others =>
    obtain ⟨d, gap, rfl⟩ := List.exists_cons_of_ne_nil apart
    rw [List.append_assoc, List.append_assoc]
    exact leadingWord_of_spelled spelled (blank d (by simp)) _

theorem parse_of_states {c : Command} {text : String} (quotable : Quotable c)
    (states : States c text) : parse text = .ok c := by
  obtain ⟨lead, body, ending, shape, blank, written, ended⟩ := states
  obtain ⟨after, ts, rest, trimmed, spelled, closes, tokens⟩ :=
    Token.tokenize_statement blank written ended
  obtain ⟨t, us, is, tail, rfl⟩ := List.forall₂_cons_left_iff.1 spelled
  have word := leadingWord_of_written written (clauses_ne_nil quotable) after
  have filled : body ++ after ≠ [] := by
    obtain ⟨⟨d, first, -⟩, -⟩ := Token.solid_written written
    cases body with
    | nil => simp at first
    | cons d body => simp
  rw [← shape] at trimmed
  exact (parse_eq_ok_iff trimmed filled word).mpr
    ⟨t, us ++ rest, tokens, read_clauses quotable tail closes⟩

/-! Every quotable command has a statement. -/

private theorem known_selectionPieces (columns : List String) :
    ∀ p ∈ selectionPieces columns, p.Known := by
  rw [selectionPieces]
  split
  · decide
  · exact known_namePieces columns

private theorem known_wherePieces (filter : Filter) : ∀ p ∈ wherePieces filter, p.Known := by
  rw [wherePieces]
  split
  · simp
  · exact List.forall_mem_cons.2 ⟨by decide, known_filterPieces filter⟩

private theorem known_clauses (c : Command) : ∀ p ∈ clauses c, p.Known := by
  cases c <;> simp only [clauses, List.forall_mem_cons, List.forall_mem_append]
  case createDatabase => exact ⟨by decide, trivial, by simp⟩
  case useDatabase => exact ⟨trivial, by simp⟩
  case createTable => simp
  case insert table columns values sameLength =>
    exact ⟨by decide, trivial, ⟨by decide, known_namePieces columns, by decide, by simp⟩,
      by decide, by decide, known_valuePieces values, by decide, by simp⟩
  case select table columns filter =>
    exact ⟨known_selectionPieces columns, by decide, trivial, known_wherePieces filter⟩
  case update table column value filter =>
    exact ⟨trivial, by decide, trivial, by decide, trivial, by decide, known_filterPieces filter⟩
  case delete table filter =>
    exact ⟨by decide, trivial, by decide, known_filterPieces filter⟩
  case dropTable => exact ⟨by decide, trivial, by simp⟩

private theorem exists_states (c : Command) : ∃ text, States c text := by
  have known : ∀ p ∈ pieces c, p.Known :=
    List.forall_mem_cons.2 ⟨(verbOf c).word_mem_keywords, known_clauses c⟩
  obtain ⟨body, written⟩ := Token.exists_written (by simp [pieces]) known
  refine ⟨String.ofList body, [], body, [], ?_, by decide, written, .plain (by decide)⟩
  simp

/-- Quoting is safe and complete. Every quotable command has a statement, and each of its
statements is read as this command and no other. -/
theorem quoted_statements_parse {c : Command} (quotable : Quotable c) :
    (∃ text, States c text) ∧ ∀ text, States c text → parse text = .ok c :=
  ⟨exists_states c, fun _ states => parse_of_states quotable states⟩

/-- A deletion whose names and values are full of what could end them. -/
def spitefulDeletion : Command :=
  .delete "o\"rders; --" [⟨"WHERE", "it's ; AND 'x' = 'y'\n/* ) , */ -- "⟩, ⟨"(,)", ""⟩]

def spitefulText : String :=
  "\n dElEtE  FROM\t\"o\"\"rders; --\" where \"WHERE\" =\n" ++
    "'it''s ; AND ''x'' = ''y''\n/* ) , */ -- ' and \"(,)\" = '' ; "

private theorem states_spitefulText : States spitefulDeletion spitefulText := by
  have written : Written (pieces spitefulDeletion)
      ("dElEtE".toList ++ "  ".toList ++ ("FROM".toList ++ "\t".toList ++
        ("\"o\"\"rders; --\"".toList ++ " ".toList ++ ("where".toList ++ " ".toList ++
          ("\"WHERE\"".toList ++ " ".toList ++ ("=".toList ++ "\n".toList ++
            ("'it''s ; AND ''x'' = ''y''\n/* ) , */ -- '".toList ++ " ".toList ++
              ("and".toList ++ " ".toList ++ ("\"(,)\"".toList ++ " ".toList ++
                ("=".toList ++ " ".toList ++ "''".toList)))))))))) := by
    repeat
      refine .next ?_ ?_ ?_ ?_
      rotate_left 3
    exact .last (by decide)
    all_goals decide
  have ended : Ending " ; ".toList := @Ending.semicolon [' '] [' '] (by decide) (by decide)
  exact ⟨"\n ".toList, _, " ; ".toList, by decide, by decide, written, ended⟩

/-- Quotes, semicolons, keywords and comment marks inside quotes end nothing. -/
theorem spiteful_text_parses : Quotable spitefulDeletion ∧ States spitefulDeletion spitefulText ∧
    parse spitefulText = .ok spitefulDeletion := by
  have quotable : Quotable spitefulDeletion := by
    refine ⟨by decide, by decide, ?_⟩
    decide
  exact ⟨quotable, states_spitefulText,
    (quoted_statements_parse quotable).2 _ states_spitefulText⟩

end Cellstore.Statement
