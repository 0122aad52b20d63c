import Cellstore.Proofs.Token.Stream
import Cellstore.Statement
import Mathlib.Data.List.Nodup

/-! The grammar of statements.
The productions are over whole runs of tokens and say nothing about reading. A statement is read
exactly if the grammar derives its tokens, and it is read as the command that is derived. -/
namespace Cellstore.Statement

/-! The productions. -/

/-- What a run of tokens writes: the text of one quoted token, and otherwise the characters of the
statement from the first token to the last. -/
inductive WritesValue (source : List Char) : Tokens → String → Prop where
  | quoted {t : Token} (alone : t.isQuoted = true) : WritesValue source [t] t.text
  | verbatim {run : Tokens} {first last : Token} (starts : run.head? = some first)
      (stops : run.getLast? = some last) (plain : run = [first] → first.isQuoted = false) :
      WritesValue source run (Token.slice source first last)

/-- Items with a token of a certain sort between any two. -/
inductive Listed {α : Type} (between : Token → Bool) (Item : Tokens → α → Prop) :
    Tokens → List α → Prop where
  | last {run : Tokens} {a : α} (item : Item run a) : Listed between Item run [a]
  | more {run rest : Tokens} {t : Token} {a : α} {as : List α} (item : Item run a)
      (mark : between t = true) (others : Listed between Item rest as) :
      Listed between Item (run ++ t :: rest) (a :: as)

inductive IsName : Tokens → String → Prop where
  | token {t : Token} {n : String} (spells : t.name? = some n) : IsName [t] n

/-- A value of a list holds no comma and no closing parenthesis. -/
structure IsListedValue (source : List Char) (run : Tokens) (v : String) : Prop where
  writes : WritesValue source run v
  free : ∀ t ∈ run, t.kind ≠ .comma ∧ t.kind ≠ .rightParen

/-- An assigned value holds no comma and no keyword WHERE. -/
structure IsAssignedValue (source : List Char) (run : Tokens) (v : String) : Prop where
  writes : WritesValue source run v
  free : ∀ t ∈ run, t.kind ≠ .comma ∧ t.isKeyword "WHERE" = false

/-- A compared value holds no semicolon and no keyword AND. -/
structure IsComparedValue (source : List Char) (run : Tokens) (v : String) : Prop where
  writes : WritesValue source run v
  free : ∀ t ∈ run, t.kind ≠ .semicolon ∧ t.isKeyword "AND" = false

/-- A test: a name, an equals sign and a value. -/
inductive IsTest (source : List Char) : Tokens → Predicate → Prop where
  | equality {t sign : Token} {run : Tokens} {column v : String} (spells : t.name? = some column)
      (equals : sign.kind = .equals) (value : IsComparedValue source run v) :
      IsTest source (t :: sign :: run) ⟨column, v⟩

abbrev IsNames : Tokens → List String → Prop := Listed (·.kind == .comma) IsName

abbrev IsValues (source : List Char) : Tokens → List String → Prop :=
  Listed (·.kind == .comma) (IsListedValue source)

abbrev IsFilter (source : List Char) : Tokens → Filter → Prop := Listed (·.isKeyword "AND") (IsTest source)

/-- The end of a statement, perhaps with a semicolon. A semicolon that is also the word which goes
on with the statement does not end it; no text has such a token. -/
inductive IsEnd (goesOn : Token → Bool) : Tokens → Prop where
  | nothing : IsEnd goesOn []
  | semicolon {t : Token} (mark : t.kind = .semicolon) (ends : goesOn t = false) : IsEnd goesOn [t]

/-- The selected columns before the keyword FROM: a star, nothing, or a list of names that begins
neither with a star nor with FROM. The keyword itself cannot be taken for a star or a comma. -/
inductive IsSelection (from_ : Token) : Tokens → List String → Prop where
  | star {t : Token} (mark : t.kind = .star) : IsSelection from_ [t] []
  | nothing (apart : from_.kind ≠ .star) : IsSelection from_ [] []
  | names {run : Tokens} {columns : List String} (list : IsNames run columns)
      (starts : ∀ t ∈ run.head?, t.kind ≠ .star ∧ t.isKeyword "FROM" = false)
      (apart : from_.kind ≠ .comma) : IsSelection from_ run columns

/-- What follows the table of a selection. -/
inductive IsTail (source : List Char) : Tokens → Filter → Prop where
  | all {rest : Tokens} (ended : IsEnd (·.isKeyword "WHERE") rest) : IsTail source rest []
  | filtered {where_ : Token} {run rest : Tokens} {filter : Filter}
      (word : where_.isKeyword "WHERE" = true) (tests : IsFilter source run filter)
      (ended : IsEnd (·.isKeyword "AND") rest) : IsTail source (where_ :: (run ++ rest)) filter

/-- The tokens after the verb of a statement, and the command that they state. Columns of a new
table are free text between parentheses and have no production here. -/
inductive Derives (source : List Char) : Verb → Tokens → Command → Prop where
  | createDatabase {object t : Token} {rest : Tokens} {database : String}
      (word : object.isKeyword "DATABASE" = true) (spells : t.name? = some database)
      (ended : IsEnd (fun _ => false) rest) :
      Derives source .create (object :: t :: rest) (.createDatabase database)
  | use {t : Token} {rest : Tokens} {database : String} (spells : t.name? = some database)
      (ended : IsEnd (fun _ => false) rest) : Derives source .use (t :: rest) (.useDatabase database)
  | insert {into t opens closes word opensValues closesValues : Token}
      {names written rest : Tokens} {table : String} {columns values : List String}
      (intoWord : into.isKeyword "INTO" = true) (spells : t.name? = some table)
      (opened : opens.kind = .leftParen) (list : IsNames names columns)
      (closed : closes.kind = .rightParen) (valuesWord : word.isKeyword "VALUES" = true)
      (openedValues : opensValues.kind = .leftParen) (listed : IsValues source written values)
      (closedValues : closesValues.kind = .rightParen) (ended : IsEnd (fun _ => false) rest)
      (sameLength : columns.length = values.length) (distinct : columns.Nodup) :
      Derives source .insert
        (into :: t :: opens :: (names ++ closes :: word :: opensValues ::
          (written ++ closesValues :: rest)))
        (.insert table columns values sameLength)
  | select {from_ t : Token} {selected tail : Tokens} {table : String} {columns : List String}
      {filter : Filter} (selection : IsSelection from_ selected columns)
      (word : from_.isKeyword "FROM" = true) (spells : t.name? = some table)
      (ended : IsTail source tail filter) :
      Derives source .select (selected ++ from_ :: t :: tail) (.select table columns filter)
  | update {t set u sign where_ : Token} {written tests rest : Tokens} {table column v : String}
      {filter : Filter} (spells : t.name? = some table) (word : set.isKeyword "SET" = true)
      (spellsColumn : u.name? = some column) (equals : sign.kind = .equals)
      (assigned : IsAssignedValue source written v) (whereWord : where_.isKeyword "WHERE" = true)
      (apart : where_.kind ≠ .comma) (tested : IsFilter source tests filter)
      (ended : IsEnd (·.isKeyword "AND") rest) :
      Derives source .update (t :: set :: u :: sign :: (written ++ where_ :: (tests ++ rest)))
        (.update table column v filter)
  | delete {from_ t where_ : Token} {tests rest : Tokens} {table : String} {filter : Filter}
      (word : from_.isKeyword "FROM" = true) (spells : t.name? = some table)
      (whereWord : where_.isKeyword "WHERE" = true) (tested : IsFilter source tests filter)
      (ended : IsEnd (·.isKeyword "AND") rest) :
      Derives source .delete (from_ :: t :: where_ :: (tests ++ rest)) (.delete table filter)
  | drop {object t : Token} {rest : Tokens} {table : String}
      (word : object.isKeyword "TABLE" = true) (spells : t.name? = some table)
      (ended : IsEnd (fun _ => false) rest) :
      Derives source .drop (object :: t :: rest) (.dropTable table)

/-! Single tokens. -/

variable {source : List Char} {ts rest : Tokens}

theorem labelled_eq_ok_iff {α : Type} {statement : String} {x : Except Cause α} {a : α} :
    labelled statement x = .ok a ↔ x = .ok a := by
  cases x <;> simp [labelled]

theorem atKeyword_eq_true_iff {w : String} :
    atKeyword w ts = true ↔ ∃ t more, ts = t :: more ∧ t.isKeyword w = true := by
  cases ts <;> simp [atKeyword]

theorem atKind_eq_true_iff {k : Token.Kind} :
    atKind k ts = true ↔ ∃ t more, ts = t :: more ∧ t.kind = k := by
  cases ts <;> simp [atKind]

theorem keyword_eq_ok_iff {w : String} :
    keyword w ts = .ok rest ↔ ∃ t, ts = t :: rest ∧ t.isKeyword w = true := by
  cases ts with
  | nil => simp [keyword, atKeyword]
  | cons t ts => by_cases found : t.isKeyword w = true <;> simp [keyword, atKeyword, found]

theorem symbol_eq_ok_iff {k : Token.Kind} {what : String} :
    symbol k what ts = .ok rest ↔ ∃ t, ts = t :: rest ∧ t.kind = k := by
  cases ts with
  | nil => simp [symbol, atKind]
  | cons t ts => by_cases found : t.kind = k <;> simp [symbol, atKind, found]

theorem name_eq_ok_iff {what n : String} :
    name what ts = .ok (n, rest) ↔ ∃ t, ts = t :: rest ∧ t.name? = some n := by
  cases ts with
  | nil => simp [name]
  | cons t ts => cases spelled : t.name? <;> simp [name, spelled, and_comm]

theorem isEnd_iff {goesOn : Token → Bool} :
    IsEnd goesOn ts ↔ finish ts = .ok () ∧ ∀ t ∈ ts.head?, goesOn t = false := by
  constructor
  · intro ended
    cases ended with
    | nothing => exact ⟨rfl, by simp⟩
    | semicolon mark ends => exact ⟨by simp [finish, atKind, mark], by simpa using ends⟩
  · rintro ⟨done, ends⟩
    cases ts with
    | nil => exact .nothing
    | cons t ts =>
      by_cases mark : t.kind = .semicolon <;> simp [finish, atKind, mark] at done
      subst done
      exact .semicolon mark (ends t rfl)

theorem finish_eq_ok_iff {done : PUnit} : finish ts = .ok done ↔ IsEnd (fun _ => false) ts := by
  rw [isEnd_iff]
  simp

/-! Values. -/

theorem writesValue_iff {t : Token} {more : Tokens} {v : String} :
    WritesValue source (t :: more) v ↔ v = valueOf source t more := by
  unfold valueOf
  cases last : more.getLast? with
  | none =>
    obtain rfl := List.getLast?_eq_none_iff.mp last
    constructor
    · intro writes
      cases writes with
      | quoted alone => simp [alone]
      | verbatim starts stops plain =>
        cases starts
        cases stops
        simp [plain rfl]
    · rintro rfl
      cases alone : t.isQuoted with
      | true => exact .quoted alone
      | false => exact .verbatim rfl rfl fun _ => alone
  | some u =>
    have ends : (t :: more).getLast? = some u := by rw [List.getLast?_cons, last, Option.getD_some]
    constructor
    · intro writes
      cases writes with
      | quoted => cases last
      | verbatim starts stops _ =>
        cases starts
        rw [ends] at stops
        cases stops
        rfl
    · rintro rfl
      refine .verbatim rfl ends fun single => ?_
      cases single
      cases last

theorem not_writesValue_nil {v : String} : ¬ WritesValue source [] v := by
  intro writes
  cases writes with
  | verbatim starts _ _ => cases starts

/-- Reading takes exactly the runs of a production for what they state, as far as a token that may
follow them. -/
def Accepts {α : Type} (read : Tokens → Except Cause (α × Tokens)) (Item : Tokens → α → Prop)
    (follows : Token → Prop) : Prop :=
  ∀ ts a rest, read ts = .ok (a, rest) ↔
    ∃ run, ts = run ++ rest ∧ Item run a ∧ ∀ t ∈ rest.head?, follows t

theorem accepts_value (source : List Char) (stop : Token → Bool) :
    Accepts (value source stop) (fun run v => WritesValue source run v ∧ ∀ t ∈ run, stop t = false)
      (stop · = true) := by
  intro ts v rest
  constructor
  · intro read
    have parts := List.takeWhile_append_dropWhile (p := fun t => !stop t) (l := ts)
    unfold value at read
    split at read
    · cases read
    · rename_i t more run
      cases read
      refine ⟨t :: more, run ▸ parts.symm, ⟨writesValue_iff.mpr rfl, ?_⟩, ?_⟩
      · intro u inside
        rw [← run] at inside
        simpa using (List.mem_takeWhile_imp inside)
      · intro u next
        have head := List.head?_dropWhile_not (fun t => !stop t) ts
        rw [Option.mem_def.mp next] at head
        simpa using head
  · rintro ⟨run, rfl, ⟨writes, free⟩, follows⟩
    have inside : ∀ t ∈ run, (!stop t) = true := by
      intro t member
      simp [free t member]
    have outside : rest.takeWhile (fun t => !stop t) = [] ∧
        rest.dropWhile (fun t => !stop t) = rest := by
      cases rest with
      | nil => exact ⟨rfl, rfl⟩
      | cons u rest => simp [follows u rfl]
    unfold value
    rw [List.takeWhile_append_of_pos inside, List.dropWhile_append_of_pos inside, outside.1,
      outside.2, List.append_nil]
    cases run with
    | nil => exact absurd writes not_writesValue_nil
    | cons t more => rw [writesValue_iff.mp writes]

theorem Accepts.congr {α : Type} {read : Tokens → Except Cause (α × Tokens)}
    {Item Other : Tokens → α → Prop} {follows : Token → Prop} (h : Accepts read Item follows)
    (same : ∀ run a, Item run a ↔ Other run a) : Accepts read Other follows := by
  intro ts a rest
  simp only [← same]
  exact h ts a rest

theorem accepts_listedValue (source : List Char) :
    Accepts (value source endsListedValue) (IsListedValue source) (endsListedValue · = true) := by
  refine (accepts_value source endsListedValue).congr fun run v => ?_
  have free (t : Token) : endsListedValue t = false ↔ t.kind ≠ .comma ∧ t.kind ≠ .rightParen := by
    simp [endsListedValue]
  simp only [free]
  exact ⟨fun h => ⟨h.1, h.2⟩, fun h => ⟨h.writes, h.free⟩⟩

theorem accepts_assignedValue (source : List Char) :
    Accepts (value source endsAssignedValue) (IsAssignedValue source) (endsAssignedValue · = true) := by
  refine (accepts_value source endsAssignedValue).congr fun run v => ?_
  have free (t : Token) :
      endsAssignedValue t = false ↔ t.kind ≠ .comma ∧ t.isKeyword "WHERE" = false := by
    simp [endsAssignedValue]
  simp only [free]
  exact ⟨fun h => ⟨h.1, h.2⟩, fun h => ⟨h.writes, h.free⟩⟩

theorem accepts_comparedValue (source : List Char) :
    Accepts (value source endsComparedValue) (IsComparedValue source) (endsComparedValue · = true) := by
  refine (accepts_value source endsComparedValue).congr fun run v => ?_
  have free (t : Token) :
      endsComparedValue t = false ↔ t.kind ≠ .semicolon ∧ t.isKeyword "AND" = false := by
    simp [endsComparedValue]
  simp only [free]
  exact ⟨fun h => ⟨h.1, h.2⟩, fun h => ⟨h.writes, h.free⟩⟩

theorem accepts_predicate (source : List Char) :
    Accepts (predicate source) (IsTest source) (endsComparedValue · = true) := by
  intro ts p rest
  obtain ⟨column, v⟩ := p
  unfold predicate
  simp only [bind_eq_ok_iff, symbol_eq_ok_iff, name_eq_ok_iff, Prod.exists,
    accepts_comparedValue source _ _ _, pure, Except.pure, Except.ok.injEq, Prod.mk.injEq]
  constructor
  · rintro ⟨_, _, ⟨t, rfl, spells⟩, _, ⟨sign, rfl, equals⟩, _, _, ⟨run, rfl, value, next⟩, same, rfl⟩
    cases same
    exact ⟨t :: sign :: run, rfl, .equality spells equals value, next⟩
  · rintro ⟨_, rfl, ⟨spells, equals, value⟩, next⟩
    exact ⟨_, _, ⟨_, rfl, spells⟩, _, ⟨_, rfl, equals⟩, _, _, ⟨_, rfl, value, next⟩, rfl, rfl⟩

/-! Lists. -/

/-- One clause, and then further ones. -/
def listing {α : Type} (item : Tokens → Except Cause (α × Tokens))
    (more : Tokens → Except Cause (List α × Tokens)) (ts : Tokens) :
    Except Cause (List α × Tokens) := do
  let (first, ts) ← item ts
  let (others, ts) ← more ts
  return (first :: others, ts)

section
variable {α : Type} {between : Token → Bool} {item : Tokens → Except Cause (α × Tokens)}
  {more : Tokens → Except Cause (List α × Tokens)} {Item : Tokens → α → Prop}
  {follows : Token → Prop}

theorem listing_of_error {ts : Tokens} {e : Cause} (failed : item ts = .error e) :
    listing item more ts = .error e := by
  simp only [listing, failed, bind, Except.bind]

theorem listing_of_ok {ts after : Tokens} {a : α} (read : item ts = .ok (a, after)) :
    listing item more ts = (more after).map fun r => (a :: r.1, r.2) := by
  simp only [listing, read, bind, Except.bind]
  cases more after <;> rfl

/-- Goes on with an item as long as a token that stands between two items comes next. -/
structure GoesOn (between : Token → Bool) (item : Tokens → Except Cause (α × Tokens))
    (more : Tokens → Except Cause (List α × Tokens)) : Prop where
  stop : ∀ rest, (∀ t ∈ rest.head?, between t = false) → more rest = .ok ([], rest)
  step : ∀ t ts, between t = true → more (t :: ts) = listing item more ts

theorem GoesOn.sound (goesOn : GoesOn between item more) (accepts : Accepts item Item follows)
    {ts : Tokens} {as : List α} {rest : Tokens} (read : listing item more ts = .ok (as, rest)) :
    ∃ run, ts = run ++ rest ∧ Listed between Item run as ∧
      ∀ t ∈ rest.head?, follows t ∧ between t = false := by
  -- What is left after an item and a token between two is shorter.
  induction size : ts.length using Nat.strong_induction_on generalizing ts as rest with
  | _ n ih =>
    subst size
    simp only [listing, bind_eq_ok_iff, Prod.exists] at read
    obtain ⟨a, after, first, others, end_, readMore, same⟩ := read
    cases same
    obtain ⟨run, parts, is, next⟩ := (accepts ts a after).mp first
    by_cases mark : ∃ t tail, after = t :: tail ∧ between t = true
    · obtain ⟨t, tail, rfl, mark⟩ := mark
      rw [goesOn.step t tail mark] at readMore
      have shorter : tail.length < ts.length := by
        simp only [parts, List.length_append, List.length_cons]
        omega
      obtain ⟨runs, rfl, all, ended⟩ := ih tail.length shorter readMore rfl
      exact ⟨run ++ t :: runs, by simp [parts], .more is mark all, ended⟩
    · have stops : ∀ t ∈ after.head?, between t = false := by
        intro t head
        obtain ⟨tail, rfl⟩ := List.head?_eq_some_iff.mp head
        simpa using fun goes => mark ⟨t, tail, rfl, goes⟩
      rw [goesOn.stop after stops] at readMore
      cases readMore
      exact ⟨run, parts, .last is, fun t head => ⟨next t head, stops t head⟩⟩

theorem GoesOn.complete (goesOn : GoesOn between item more)
    (accepts : Accepts item Item follows) (ends : ∀ t, between t = true → follows t)
    {run rest : Tokens} {as : List α} (derived : Listed between Item run as)
    (after : ∀ t ∈ rest.head?, follows t ∧ between t = false) :
    listing item more (run ++ rest) = .ok (as, rest) := by
  induction derived with
  | @last run a is =>
    have first := (accepts _ _ rest).mpr ⟨run, rfl, is, fun t head => (after t head).1⟩
    have stops := goesOn.stop rest fun t head => (after t head).2
    rw [listing_of_ok first, stops]
    rfl
  | @more run others t a as is mark _ ih =>
    have first := (accepts (run ++ t :: (others ++ rest)) a (t :: (others ++ rest))).mpr
      ⟨run, rfl, is, by simpa using ends t mark⟩
    rw [List.append_assoc, List.cons_append, listing_of_ok first, goesOn.step _ _ mark, ih]
    rfl

theorem GoesOn.accepts (goesOn : GoesOn between item more) (accepts : Accepts item Item follows)
    (ends : ∀ t, between t = true → follows t) :
    Accepts (listing item more) (Listed between Item) fun t => follows t ∧ between t = false := by
  intro ts as rest
  constructor
  · exact goesOn.sound accepts
  · rintro ⟨run, rfl, derived, after⟩
    exact goesOn.complete accepts ends derived after

end

theorem accepts_name (what : String) : Accepts (name what) IsName fun _ => True := by
  intro ts n rest
  rw [name_eq_ok_iff]
  constructor
  · rintro ⟨t, rfl, spells⟩
    exact ⟨[t], rfl, .token spells, fun _ _ => trivial⟩
  · rintro ⟨_, rfl, ⟨spells⟩, -⟩
    exact ⟨_, rfl, spells⟩

theorem goesOn_names : GoesOn (·.kind == .comma) (name "column name") moreNames where
  stop := by
    intro rest apart
    rw [moreNames.eq_def]
    cases rest with
    | nil => rfl
    | cons t rest =>
      have differs : t.kind ≠ .comma := by simpa using apart t rfl
      simp [differs]
  step := by
    intro t ts comma
    have mark : t.kind = .comma := by simpa using comma
    cases ts with
    | nil => simp [moreNames, mark, listing, name, bind, Except.bind]
    | cons u ts =>
      cases spelled : u.name? with
      | none =>
        have failed : name "column name" (u :: ts) = .error (.expected "column name" u.text) := by
          simp [name, spelled]
        simp [moreNames, mark, spelled, listing_of_error failed]
      | some n =>
        have read : name "column name" (u :: ts) = .ok (n, ts) := by simp [name, spelled]
        simp [moreNames, mark, spelled, listing_of_ok read]

private theorem goesOn_values (source : List Char) :
    GoesOn (·.kind == .comma) (value source endsListedValue) (moreValues source) where
  stop := by
    intro rest apart
    rw [moreValues.eq_def]
    cases rest with
    | nil => rfl
    | cons t rest =>
      have differs : t.kind ≠ .comma := by simpa using apart t rfl
      simp [differs]
  step := by
    intro t ts comma
    have mark : t.kind = .comma := by simpa using comma
    rw [moreValues]
    simp only [mark, if_true]
    split
    · rename_i failed
      rw [listing_of_error failed]
    · rename_i read
      rw [listing_of_ok read]

theorem goesOn_predicates (source : List Char) :
    GoesOn (·.isKeyword "AND") (predicate source) (morePredicates source) where
  stop := by
    intro rest apart
    rw [morePredicates.eq_def]
    cases rest with
    | nil => rfl
    | cons t rest => simp [apart t rfl]
  step := by
    intro t ts word
    rw [morePredicates]
    simp only [word, if_true]
    split
    · rename_i failed
      rw [listing_of_error failed]
    · rename_i read
      rw [listing_of_ok read]

theorem accepts_names : Accepts names IsNames fun t => True ∧ (t.kind == .comma) = false :=
  goesOn_names.accepts (accepts_name _) fun _ _ => trivial

theorem accepts_values (source : List Char) :
    Accepts (listing (value source endsListedValue) (moreValues source)) (IsValues source)
      fun t => endsListedValue t = true ∧ (t.kind == .comma) = false := by
  refine (goesOn_values source).accepts (accepts_listedValue source) fun t comma => ?_
  simp only [endsListedValue, comma, Bool.true_or]

theorem accepts_conditions (source : List Char) :
    Accepts (conditions source) (IsFilter source)
      fun t => endsComparedValue t = true ∧ t.isKeyword "AND" = false := by
  refine (goesOn_predicates source).accepts (accepts_predicate source) fun t word => ?_
  simp only [endsComparedValue, word, Bool.or_true]

theorem nameList_eq_ok_iff {columns : List String} :
    nameList ts = .ok (columns, rest) ↔ ∃ opens run closes, ts = opens :: (run ++ closes :: rest) ∧
      opens.kind = .leftParen ∧ IsNames run columns ∧ closes.kind = .rightParen := by
  unfold nameList
  simp only [bind_eq_ok_iff, symbol_eq_ok_iff, Prod.exists, accepts_names _ _ _, pure,
    Except.pure, Except.ok.injEq, Prod.mk.injEq]
  constructor
  · rintro ⟨_, ⟨opens, rfl, opened⟩, _, _, ⟨run, rfl, list, -⟩, _, ⟨closes, rfl, closed⟩, rfl, rfl⟩
    exact ⟨opens, run, closes, rfl, opened, list, closed⟩
  · rintro ⟨opens, run, closes, rfl, opened, list, closed⟩
    exact ⟨_, ⟨opens, rfl, opened⟩, _, _, ⟨run, rfl, list, by simp [closed]⟩, _,
      ⟨closes, rfl, closed⟩, rfl, rfl⟩

theorem valueList_eq_ok_iff {values : List String} :
    valueList source ts = .ok (values, rest) ↔
      ∃ opens run closes, ts = opens :: (run ++ closes :: rest) ∧ opens.kind = .leftParen ∧
        IsValues source run values ∧ closes.kind = .rightParen := by
  have shape : valueList source ts = symbol .leftParen "'('" ts >>= fun ts =>
      listing (value source endsListedValue) (moreValues source) ts >>= fun read =>
        symbol .rightParen "')'" read.2 >>= fun ts => pure (read.1, ts) := by
    simp only [valueList, listing, bind_assoc]
    rfl
  rw [shape]
  simp only [bind_eq_ok_iff, symbol_eq_ok_iff, Prod.exists, accepts_values source _ _ _, pure,
    Except.pure, Except.ok.injEq, Prod.mk.injEq]
  constructor
  · rintro ⟨_, ⟨opens, rfl, opened⟩, _, _, ⟨run, rfl, list, -⟩, _, ⟨closes, rfl, closed⟩, rfl, rfl⟩
    exact ⟨opens, run, closes, rfl, opened, list, closed⟩
  · rintro ⟨opens, run, closes, rfl, opened, list, closed⟩
    exact ⟨_, ⟨opens, rfl, opened⟩, _, _,
      ⟨run, rfl, list, by simp [endsListedValue, closed]⟩, _, ⟨closes, rfl, closed⟩, rfl, rfl⟩

theorem conditions_finish_iff {filter : Filter} :
    (∃ rest, conditions source ts = .ok (filter, rest) ∧ finish rest = .ok ()) ↔
      ∃ run rest, ts = run ++ rest ∧ IsFilter source run filter ∧
        IsEnd (·.isKeyword "AND") rest := by
  simp only [accepts_conditions source _ _ _, isEnd_iff]
  constructor
  · rintro ⟨rest, ⟨run, rfl, tests, next⟩, done⟩
    exact ⟨run, rest, rfl, tests, done, fun t head => (next t head).2⟩
  · rintro ⟨run, rest, rfl, tests, done, ends⟩
    refine ⟨rest, ⟨run, rfl, tests, fun t head => ⟨?_, ends t head⟩⟩, done⟩
    obtain ⟨more, rfl⟩ := List.head?_eq_some_iff.mp head
    cases finish_eq_ok_iff.mp done with
    | semicolon mark _ => simp [endsComparedValue, mark]

end Cellstore.Statement
