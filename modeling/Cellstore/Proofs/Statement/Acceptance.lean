import Cellstore.Proofs.Statement.Grammar

/-! Statements are read by the grammar.
Every rule accepts exactly the runs of tokens that its productions derive. The columns of a new
table are the only clause outside of the grammar. -/
namespace Cellstore.Statement

variable {source : List Char} {ts rest : Tokens}

theorem duplicates_isEmpty_iff {columns : List String} :
    (duplicates columns).isEmpty = true ↔ columns.Nodup := by
  have repeated : (duplicates columns).isEmpty = true ↔
      columns.filter (fun c => columns.count c > 1) = [] := by
    rw [duplicates, List.isEmpty_iff, ← List.length_eq_zero_iff, List.length_mergeSort,
      List.length_eq_zero_iff]
    cases columns.filter (fun c => columns.count c > 1) <;> simp [List.eraseDups_cons]
  rw [repeated, List.filter_eq_nil_iff, List.nodup_iff_count_le_one]
  constructor
  · intro once c
    by_cases inside : c ∈ columns
    · simpa using once c inside
    · rw [List.count_eq_zero_of_not_mem inside]
      exact Nat.zero_le 1
  · intro once c _
    simpa using once c

theorem createDatabase_iff {c : Command} :
    createDatabase ts = .ok c ↔ ∃ t rest database, ts = t :: rest ∧ t.name? = some database ∧
      IsEnd (fun _ => false) rest ∧ c = .createDatabase database := by
  unfold createDatabase
  simp only [labelled_eq_ok_iff, bind_eq_ok_iff, name_eq_ok_iff, finish_eq_ok_iff, Prod.exists, pure,
    Except.pure, Except.ok.injEq]
  constructor
  · rintro ⟨database, rest, ⟨t, rfl, spells⟩, ⟨⟩, ended, rfl⟩
    exact ⟨t, rest, database, rfl, spells, ended, rfl⟩
  · rintro ⟨t, rest, database, rfl, spells, ended, rfl⟩
    exact ⟨database, rest, ⟨t, rfl, spells⟩, ⟨⟩, ended, rfl⟩

theorem use_iff {source : List Char} {c : Command} : use ts = .ok c ↔ Derives source .use ts c := by
  unfold use
  simp only [labelled_eq_ok_iff, bind_eq_ok_iff, name_eq_ok_iff, finish_eq_ok_iff, Prod.exists, pure,
    Except.pure, Except.ok.injEq]
  constructor
  · rintro ⟨database, rest, ⟨t, rfl, spells⟩, ⟨⟩, ended, rfl⟩
    exact .use spells ended
  · intro derived
    cases derived with
    | use spells ended => exact ⟨_, _, ⟨_, rfl, spells⟩, ⟨⟩, ended, rfl⟩

theorem drop_iff {source : List Char} {c : Command} : drop ts = .ok c ↔ Derives source .drop ts c := by
  unfold drop
  simp only [labelled_eq_ok_iff, bind_eq_ok_iff, keyword_eq_ok_iff, name_eq_ok_iff,
    finish_eq_ok_iff, Prod.exists, pure, Except.pure, Except.ok.injEq]
  constructor
  · rintro ⟨_, ⟨object, rfl, word⟩, table, rest, ⟨t, rfl, spells⟩, ⟨⟩, ended, rfl⟩
    exact .drop word spells ended
  · intro derived
    cases derived with
    | drop word spells ended => exact ⟨_, ⟨_, rfl, word⟩, _, _, ⟨_, rfl, spells⟩, ⟨⟩, ended, rfl⟩

theorem insert_iff {c : Command} : insert source ts = .ok c ↔ Derives source .insert ts c := by
  unfold insert
  simp only [labelled_eq_ok_iff, bind_eq_ok_iff, keyword_eq_ok_iff, name_eq_ok_iff,
    nameList_eq_ok_iff, valueList_eq_ok_iff, finish_eq_ok_iff, Prod.exists]
  constructor
  · rintro ⟨_, ⟨into, rfl, intoWord⟩, table, _, ⟨t, rfl, spells⟩, columns, _,
      ⟨opens, run, closes, rfl, opened, list, closed⟩, _, ⟨word, rfl, valuesWord⟩, values, rest,
      ⟨opensValues, written, closesValues, rfl, openedValues, listed, closedValues⟩, ⟨⟩, ended, done⟩
    split_ifs at done with sameLength distinct
    · cases done
      exact .insert intoWord spells opened list closed valuesWord openedValues listed closedValues
        ended sameLength (duplicates_isEmpty_iff.mp distinct)
  · intro derived
    cases derived with
    | insert intoWord spells opened list closed valuesWord openedValues listed closedValues ended
        sameLength distinct =>
      refine ⟨_, ⟨_, rfl, intoWord⟩, _, _, ⟨_, rfl, spells⟩, _, _,
        ⟨_, _, _, rfl, opened, list, closed⟩, _, ⟨_, rfl, valuesWord⟩, _, _,
        ⟨_, _, _, rfl, openedValues, listed, closedValues⟩, ⟨⟩, ended, ?_⟩
      rw [dif_pos sameLength, if_pos (duplicates_isEmpty_iff.mpr distinct)]
      rfl

theorem IsNames.exists_cons {run : Tokens} {columns : List String} (list : IsNames run columns) :
    ∃ t more, run = t :: more := by
  cases list with
  | last item =>
    cases item
    exact ⟨_, _, rfl⟩
  | more item =>
    cases item
    exact ⟨_, _, rfl⟩

private theorem selection_iff {from_ : Token} {columns : List String}
    (word : from_.isKeyword "FROM" = true) :
    selection ts = .ok (columns, from_ :: rest) ↔
      ∃ selected, ts = selected ++ from_ :: rest ∧ IsSelection from_ selected columns := by
  unfold selection
  constructor
  · intro read
    split_ifs at read with star source
    · obtain ⟨t, more, rfl, mark⟩ := atKind_eq_true_iff.mp star
      cases read
      exact ⟨[t], rfl, .star mark⟩
    · cases read
      exact ⟨[], rfl, .nothing (by simpa [atKind] using star)⟩
    · obtain ⟨run, rfl, list, next⟩ := (accepts_names _ _ _).mp read
      refine ⟨run, rfl, .names list ?_ (by simpa using next)⟩
      intro t head
      obtain ⟨more, rfl⟩ := List.head?_eq_some_iff.mp head
      exact ⟨by simpa [atKind] using star, by simpa [atKeyword] using source⟩
  · rintro ⟨selected, rfl, derived⟩
    cases derived with
    | star mark => simp [atKind, mark]
    | nothing apart => simp [atKind, atKeyword, apart, word]
    | names list starts apart =>
      have read : names (selected ++ from_ :: rest) = .ok (columns, from_ :: rest) :=
        (accepts_names _ _ _).mpr ⟨selected, rfl, list, by simpa using apart⟩
      obtain ⟨t, more, rfl⟩ := list.exists_cons
      obtain ⟨noStar, noSource⟩ := starts t rfl
      simpa [atKind, atKeyword, noStar, noSource] using read

/-- The tests after WHERE, and no tests where there is no such clause. -/
def optionalConditions (source : List Char) (ts : Tokens) : Except Cause (Filter × Tokens) :=
  if atKeyword "WHERE" ts then conditions source ts.tail else .ok ([], ts)

private theorem optionalConditions_finish_iff {filter : Filter} :
    (∃ rest, optionalConditions source ts = .ok (filter, rest) ∧ finish rest = .ok ()) ↔
      IsTail source ts filter := by
  unfold optionalConditions
  constructor
  · rintro ⟨rest, read, done⟩
    split_ifs at read with clause
    · obtain ⟨where_, more, rfl, word⟩ := atKeyword_eq_true_iff.mp clause
      obtain ⟨run, rest, rfl, tests, ended⟩ := conditions_finish_iff.mp ⟨rest, read, done⟩
      exact .filtered word tests ended
    · cases read
      refine .all (isEnd_iff.mpr ⟨done, fun t head => ?_⟩)
      obtain ⟨more, rfl⟩ := List.head?_eq_some_iff.mp head
      simpa [atKeyword] using clause
  · intro derived
    cases derived with
    | all ended =>
      obtain ⟨done, ends⟩ := isEnd_iff.mp ended
      have noClause : atKeyword "WHERE" ts = false := by
        cases ts with
        | nil => rfl
        | cons t ts => simpa [atKeyword] using ends t rfl
      exact ⟨ts, by simp [noClause], done⟩
    | filtered word tests ended =>
      obtain ⟨rest, read, done⟩ := conditions_finish_iff.mpr ⟨_, _, rfl, tests, ended⟩
      exact ⟨rest, by simpa [atKeyword, word] using read, done⟩

theorem select_eq : select source ts = labelled "SELECT" (do
    let (columns, ts) ← selection ts
    let ts ← keyword "FROM" ts
    let (table, ts) ← name "table name" ts
    let (filter, ts) ← optionalConditions source ts
    finish ts
    return .select table columns filter) := by
  unfold select optionalConditions
  refine congrArg _ (bind_congr fun _ => bind_congr fun _ => bind_congr fun r => ?_)
  by_cases clause : atKeyword "WHERE" r.2 = true
  · simp only [if_pos clause]
  · simp only [if_neg clause]
    rfl

theorem select_iff {c : Command} : select source ts = .ok c ↔ Derives source .select ts c := by
  rw [select_eq]
  simp only [labelled_eq_ok_iff, bind_eq_ok_iff, keyword_eq_ok_iff, name_eq_ok_iff, Prod.exists, pure,
    Except.pure, Except.ok.injEq]
  constructor
  · rintro ⟨columns, _, selected, _, ⟨from_, rfl, word⟩, table, tail, ⟨t, rfl, spells⟩, filter, rest,
      read, ⟨⟩, done, rfl⟩
    obtain ⟨run, rfl, selection⟩ := (selection_iff word).mp selected
    exact .select selection word spells (optionalConditions_finish_iff.mp ⟨rest, read, done⟩)
  · intro derived
    cases derived with
    | select selection word spells ended =>
      obtain ⟨rest, read, done⟩ := optionalConditions_finish_iff.mpr ended
      exact ⟨_, _, (selection_iff word).mpr ⟨_, rfl, selection⟩, _, ⟨_, rfl, word⟩, _, _,
        ⟨_, rfl, spells⟩, _, rest, read, ⟨⟩, done, rfl⟩

theorem delete_iff {c : Command} : delete source ts = .ok c ↔ Derives source .delete ts c := by
  unfold delete
  simp only [labelled_eq_ok_iff, bind_eq_ok_iff, keyword_eq_ok_iff, name_eq_ok_iff, Prod.exists, pure,
    Except.pure, Except.ok.injEq]
  constructor
  · rintro ⟨_, ⟨from_, rfl, word⟩, table, _, ⟨t, rfl, spells⟩, _, ⟨where_, rfl, whereWord⟩, filter,
      rest, read, ⟨⟩, done, rfl⟩
    obtain ⟨run, rest, rfl, tests, ended⟩ := conditions_finish_iff.mp ⟨rest, read, done⟩
    exact .delete word spells whereWord tests ended
  · intro derived
    cases derived with
    | delete word spells whereWord tests ended =>
      obtain ⟨rest, read, done⟩ := conditions_finish_iff.mpr ⟨_, _, rfl, tests, ended⟩
      exact ⟨_, ⟨_, rfl, word⟩, _, _, ⟨_, rfl, spells⟩, _, ⟨_, rfl, whereWord⟩, _, rest, read, ⟨⟩,
        done, rfl⟩

theorem update_iff {c : Command} : update source ts = .ok c ↔ Derives source .update ts c := by
  unfold update
  simp only [labelled_eq_ok_iff, bind_eq_ok_iff, keyword_eq_ok_iff, symbol_eq_ok_iff, name_eq_ok_iff,
    accepts_assignedValue source _ _ _, Prod.exists]
  constructor
  · rintro ⟨table, _, ⟨t, rfl, spells⟩, _, ⟨set, rfl, word⟩, column, _, ⟨u, rfl, spellsColumn⟩, _,
      ⟨sign, rfl, equals⟩, v, after, ⟨run, rfl, assigned, next⟩, read⟩
    split_ifs at read with several
    · cases read
    simp only [bind_eq_ok_iff, keyword_eq_ok_iff, Prod.exists, pure, Except.pure,
      Except.ok.injEq] at read
    obtain ⟨_, ⟨where_, rfl, whereWord⟩, filter, rest, tested, ⟨⟩, done, rfl⟩ := read
    obtain ⟨tests, rest, rfl, tested, ended⟩ := conditions_finish_iff.mp ⟨rest, tested, done⟩
    exact .update spells word spellsColumn equals assigned whereWord (by simpa [atKind] using several)
      tested ended
  · intro derived
    cases derived with
    | @update t set u sign where_ written tests rest table column v filter spells word spellsColumn
        equals assigned whereWord apart tested ended =>
      obtain ⟨left, read, done⟩ := conditions_finish_iff.mpr ⟨_, _, rfl, tested, ended⟩
      have next : endsAssignedValue where_ = true := by simp [endsAssignedValue, whereWord]
      have single : atKind .comma (where_ :: (tests ++ rest)) = false := by simp [atKind, apart]
      refine ⟨table, _, ⟨t, rfl, spells⟩, _, ⟨set, rfl, word⟩, column, _, ⟨u, rfl, spellsColumn⟩, _,
        ⟨sign, rfl, equals⟩, v, _, ⟨written, rfl, assigned, by simpa using next⟩, ?_⟩
      rw [single, if_neg Bool.false_ne_true]
      simp only [bind_eq_ok_iff, keyword_eq_ok_iff, Prod.exists, pure, Except.pure, Except.ok.injEq]
      exact ⟨_, ⟨where_, rfl, whereWord⟩, filter, left, read, ⟨⟩, done, rfl⟩

/-- The tokens after CREATE name a table. -/
def ofTable : Verb → Tokens → Bool
  | .create, ts => atKeyword "TABLE" ts
  | _, _ => false

theorem not_isKeyword_both {t : Token} (word : t.isKeyword "DATABASE" = true) :
    t.isKeyword "TABLE" = false := by
  have spelled : Text.upperText t.text = "DATABASE" := by
    have parts := word
    simp only [Token.isKeyword, Bool.and_eq_true, beq_iff_eq] at parts
    exact parts.2
  simp [Token.isKeyword, spelled]

theorem create_iff {c : Command} : create source ts = .ok c ↔
    Derives source .create ts c ∨ ofTable .create ts = true ∧ createTable source ts.tail = .ok c := by
  unfold create
  by_cases database : atKeyword "DATABASE" ts = true
  · rw [if_pos database, createDatabase_iff]
    obtain ⟨object, more, rfl, word⟩ := atKeyword_eq_true_iff.mp database
    have noTable : ofTable .create (object :: more) = false := by
      simpa [ofTable, atKeyword] using not_isKeyword_both word
    simp only [noTable, Bool.false_eq_true, false_and, or_false]
    constructor
    · rintro ⟨t, rest, name, shape, spells, ended, rfl⟩
      obtain rfl : more = t :: rest := shape
      exact .createDatabase word spells ended
    · intro derived
      cases derived with
      | createDatabase _ spells ended => exact ⟨_, _, _, rfl, spells, ended, rfl⟩
  · rw [if_neg database]
    have noDatabase : ¬ Derives source .create ts c := by
      intro derived
      cases derived with
      | createDatabase word => simp [atKeyword, word] at database
    by_cases table : atKeyword "TABLE" ts = true <;> simp [ofTable, table, noDatabase]

theorem read_iff {verb : Verb} {c : Command} : verb.read source ts = .ok c ↔
    Derives source verb ts c ∨ ofTable verb ts = true ∧ createTable source ts.tail = .ok c := by
  cases verb with
  | create => exact create_iff
  | use => simpa [ofTable, Verb.read] using use_iff
  | insert => simpa [ofTable, Verb.read] using insert_iff
  | select => simpa [ofTable, Verb.read] using select_iff
  | update => simpa [ofTable, Verb.read] using update_iff
  | delete => simpa [ofTable, Verb.read] using delete_iff
  | drop => simpa [ofTable, Verb.read] using drop_iff

/-- A fault names the statement whose rules the tokens break. -/
def Malformed (r : Except Fault Command) : Prop :=
  ∃ statement cause, r = .error (.malformed statement cause)

theorem labelled_ok_or_malformed (statement : String) (x : Except Cause Command) :
    (∃ c, labelled statement x = .ok c) ∨ Malformed (labelled statement x) := by
  cases x with
  | ok c => exact .inl ⟨c, rfl⟩
  | error cause => exact .inr ⟨statement, cause, rfl⟩

theorem read_ok_or_malformed (verb : Verb) (source : List Char) (ts : Tokens) :
    (∃ c, verb.read source ts = .ok c) ∨ Malformed (verb.read source ts) ∨ ofTable verb ts = true := by
  have either {statement : String} {x : Except Cause Command} :=
    (labelled_ok_or_malformed statement x).imp_right (Or.inl (b := ofTable verb ts = true))
  cases verb with
  | create =>
    unfold Verb.read create
    by_cases database : atKeyword "DATABASE" ts = true
    · rw [if_pos database]
      exact either
    · by_cases table : atKeyword "TABLE" ts = true
      · exact .inr (.inr table)
      · rw [if_neg database, if_neg table]
        exact .inr (.inl ⟨_, _, rfl⟩)
  | drop =>
    unfold Verb.read drop
    cases word : keyword "TABLE" ts with
    | error cause => exact .inr (.inl ⟨_, cause, rfl⟩)
    | ok rest => exact either
  | use => exact either
  | insert => exact either
  | select => exact either
  | update => exact either
  | delete => exact either

theorem ofTokens_reads_grammar (word : String) (verb : Verb) (source : List Char) (ts : Tokens) :
    (∀ c, ofTokens word verb source ts = .ok c ↔ ∃ t rest, ts = t :: rest ∧
      (Derives source verb rest c ∨
        ofTable verb rest = true ∧ createTable source rest.tail = .ok c)) ∧
    ((∃ c, ofTokens word verb source ts = .ok c) ∨ Malformed (ofTokens word verb source ts) ∨
      ofTable verb ts.tail = true) := by
  cases ts with
  | nil => exact ⟨fun c => by simp [ofTokens], .inr (.inl ⟨word, .unexpectedEnd, rfl⟩)⟩
  | cons t rest =>
    refine ⟨fun c => ?_, read_ok_or_malformed verb source rest⟩
    rw [ofTokens, read_iff]
    constructor
    · exact fun reads => ⟨t, rest, rfl, reads⟩
    · rintro ⟨_, _, same, reads⟩
      cases same
      exact reads

end Cellstore.Statement
