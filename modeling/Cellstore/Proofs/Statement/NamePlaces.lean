import Cellstore.Proofs.Statement.WellFormed

/-! The places of names in a statement.
Where the rules want a name is told by the tokens before it, whatever stands there. A token at such
a place spells a name of the command, or the statement is refused. -/
namespace Cellstore.Statement

variable {source : List Char} {ts rest : Tokens}

/-! What stands before a place. -/

/-- Whole items of a list, each with a token behind it that goes on with the list. -/
inductive Led (between : Token → Bool) (Item : Tokens → Prop) : Tokens → Prop where
  | first : Led between Item []
  | next {run lead : Tokens} {t : Token} (item : Item run) (mark : between t = true)
      (more : Led between Item lead) : Led between Item (run ++ t :: lead)

/-- One token, where a name is wanted. -/
inductive IsSingle : Tokens → Prop where
  | token (t : Token) : IsSingle [t]

/-- A token where a name is wanted, one where the sign is wanted, and a value up to what ends it. -/
inductive IsTestRun : Tokens → Prop where
  | equality (t sign : Token) {run : Tokens} (inside : ∀ u ∈ run, endsComparedValue u = false) :
      IsTestRun (t :: sign :: run)

/-- The depth of parentheses behind a part of a column definition: none if a comma or a closing
parenthesis ends the definition before. -/
def depthBehind (depth : Nat) : Tokens → Option Nat
  | [] => some depth
  | t :: ts =>
    if t.kind = .leftParen then depthBehind (depth + 1) ts
    else if t.kind = .rightParen then
      match depth with
      | 0 => none
      | depth + 1 => depthBehind depth ts
    else if t.kind = .comma ∧ depth = 0 then none
    else depthBehind depth ts

/-- A column definition: no comma and no closing parenthesis stands in it but between
parentheses. -/
def IsDefinitionRun (run : Tokens) : Prop := depthBehind 0 run = some 0

abbrev LedNames : Tokens → Prop := Led (·.kind == .comma) IsSingle

abbrev LedDefinitions : Tokens → Prop := Led (·.kind == .comma) IsDefinitionRun

abbrev LedTests : Tokens → Prop := Led (·.isKeyword "AND") IsTestRun

/-- Neither a star, which selects all columns, nor the keyword FROM. -/
def StartsNames (t : Token) : Prop := t.kind ≠ .star ∧ t.isKeyword "FROM" = false

/-- What stands between the verb and the keyword FROM of a selection. -/
inductive IsSelectionRun (from_ : Token) : Tokens → Prop where
  | star {t : Token} (mark : t.kind = .star) : IsSelectionRun from_ [t]
  | nothing (apart : from_.kind ≠ .star) : IsSelectionRun from_ []
  | names {lead : Tokens} (t : Token) (led : LedNames lead)
      (starts : ∀ u ∈ (lead ++ [t]).head?, StartsNames u) (apart : from_.kind ≠ .comma) :
      IsSelectionRun from_ (lead ++ [t])

/-- The tokens between the verb and a place where the rules want a name. -/
inductive WantsName : Verb → Tokens → Prop where
  | created {object : Token}
      (word : object.isKeyword "DATABASE" = true ∨ object.isKeyword "TABLE" = true) :
      WantsName .create [object]
  | defined {object opens : Token} {lead : Tokens} (t : Token)
      (word : object.isKeyword "TABLE" = true) (opened : opens.kind = .leftParen)
      (led : LedDefinitions lead) : WantsName .create (object :: t :: opens :: lead)
  | used : WantsName .use []
  | dropped {object : Token} (word : object.isKeyword "TABLE" = true) : WantsName .drop [object]
  | filled {into : Token} (word : into.isKeyword "INTO" = true) : WantsName .insert [into]
  | listed {into opens : Token} {lead : Tokens} (t : Token) (word : into.isKeyword "INTO" = true)
      (opened : opens.kind = .leftParen) (led : LedNames lead) :
      WantsName .insert (into :: t :: opens :: lead)
  | selected {lead : Tokens} (led : LedNames lead) (starts : ∀ t ∈ lead.head?, StartsNames t) :
      WantsName .select lead
  | selectedFrom {from_ : Token} {run : Tokens} (selection : IsSelectionRun from_ run)
      (word : from_.isKeyword "FROM" = true) : WantsName .select (run ++ [from_])
  | selectedWhere {from_ where_ : Token} {run lead : Tokens} (t : Token)
      (selection : IsSelectionRun from_ run) (word : from_.isKeyword "FROM" = true)
      (whereWord : where_.isKeyword "WHERE" = true) (led : LedTests lead) :
      WantsName .select (run ++ from_ :: t :: where_ :: lead)
  | updated : WantsName .update []
  | assigned {set : Token} (t : Token) (word : set.isKeyword "SET" = true) :
      WantsName .update [t, set]
  | updatedWhere {set where_ : Token} {run lead : Tokens} (t u sign : Token)
      (word : set.isKeyword "SET" = true) (inside : ∀ v ∈ run, endsAssignedValue v = false)
      (whereWord : where_.isKeyword "WHERE" = true) (led : LedTests lead) :
      WantsName .update (t :: set :: u :: sign :: (run ++ where_ :: lead))
  | deletedFrom {from_ : Token} (word : from_.isKeyword "FROM" = true) : WantsName .delete [from_]
  | deletedWhere {from_ where_ : Token} {lead : Tokens} (t : Token)
      (word : from_.isKeyword "FROM" = true) (whereWord : where_.isKeyword "WHERE" = true)
      (led : LedTests lead) : WantsName .delete (from_ :: t :: where_ :: lead)

/-! A token at a place spells a name of what is read. -/

section
variable {α : Type} {between : Token → Bool} {item : Tokens → Except Cause (α × Tokens)}
  {more : Tokens → Except Cause (List α × Tokens)} {Item : Tokens → Prop}

/-- Reading an item takes its run and no more. -/
def Takes (between : Token → Bool) (item : Tokens → Except Cause (α × Tokens))
    (Item : Tokens → Prop) : Prop :=
  ∀ run t rest a after, Item run → between t = true →
    item (run ++ t :: rest) = .ok (a, after) → after = t :: rest

theorem GoesOn.behind (goesOn : GoesOn between item more) (takes : Takes between item Item)
    {lead : Tokens} (led : Led between Item lead) {as : List α}
    (read : listing item more (lead ++ ts) = .ok (as, rest)) :
    ∃ others, listing item more ts = .ok (others, rest) ∧ ∀ a ∈ others, a ∈ as := by
  induction led generalizing as with
  | first => exact ⟨as, read, fun _ member => member⟩
  | @next run lead t isItem mark led ih =>
    rw [List.append_assoc, List.cons_append] at read
    simp only [listing, bind_eq_ok_iff, Prod.exists] at read
    obtain ⟨a, after, first, others, _, readMore, same⟩ := read
    cases same
    obtain rfl := takes _ _ _ _ _ isItem mark first
    rw [goesOn.step _ _ mark] at readMore
    obtain ⟨inner, readInner, within⟩ := ih readMore
    exact ⟨inner, readInner, fun b member => List.mem_cons_of_mem a (within b member)⟩

theorem GoesOn.item_at (goesOn : GoesOn between item more) (takes : Takes between item Item)
    {lead : Tokens} (led : Led between Item lead) {as : List α}
    (read : listing item more (lead ++ ts) = .ok (as, rest)) :
    ∃ a after, item ts = .ok (a, after) ∧ a ∈ as := by
  obtain ⟨others, readInner, within⟩ := goesOn.behind takes led read
  simp only [listing, bind_eq_ok_iff, Prod.exists] at readInner
  obtain ⟨a, after, first, _, _, _, same⟩ := readInner
  cases same
  exact ⟨a, after, first, within a (List.mem_cons_self ..)⟩

end

private theorem takes_name : Takes (·.kind == .comma) (name "column name") IsSingle := by
  intro run t rest n after single mark read
  cases single
  obtain ⟨u, same, -⟩ := name_eq_ok_iff.mp read
  cases same
  rfl

theorem name_at {lead after : Tokens} {u : Token} {columns : List String} (led : LedNames lead)
    (read : names (lead ++ u :: after) = .ok (columns, rest)) :
    ∃ n, u.name? = some n ∧ n ∈ columns := by
  obtain ⟨n, _, first, member⟩ := goesOn_names.item_at takes_name led read
  obtain ⟨t, same, spells⟩ := name_eq_ok_iff.mp first
  cases same
  exact ⟨n, spells, member⟩

theorem rest_of_names {lead tail : Tokens} {t from_ : Token} {columns : List String}
    (led : LedNames lead) (apart : from_.kind ≠ .comma)
    (read : names (lead ++ t :: from_ :: tail) = .ok (columns, rest)) : rest = from_ :: tail := by
  obtain ⟨others, readInner, -⟩ := goesOn_names.behind takes_name led read
  simp only [listing, bind_eq_ok_iff, Prod.exists] at readInner
  obtain ⟨n, after, first, _, _, readMore, same⟩ := readInner
  cases same
  obtain ⟨u, same, -⟩ := name_eq_ok_iff.mp first
  cases same
  rw [goesOn_names.stop _ (by simpa using apart)] at readMore
  cases readMore
  rfl

theorem rest_of_value {stop : Token → Bool} {v : String}
    (read : value source stop ts = .ok (v, rest)) : rest = ts.dropWhile fun t => !stop t := by
  unfold value at read
  split at read
  · cases read
  · cases read
    rfl

theorem dropWhile_run {stop : Token → Bool} {run : Tokens} {t : Token}
    (inside : ∀ u ∈ run, stop u = false) (stops : stop t = true) (ts : Tokens) :
    ((run ++ t :: ts).dropWhile fun u => !stop u) = t :: ts := by
  have goes : ∀ u ∈ run, (!stop u) = true := by
    intro u member
    simp [inside u member]
  rw [List.dropWhile_append_of_pos goes]
  simp [stops]

private theorem takes_predicate (source : List Char) :
    Takes (·.isKeyword "AND") (predicate source) IsTestRun := by
  rintro _ mark rest p after ⟨t, sign, inside⟩ word read
  unfold predicate at read
  simp only [bind_eq_ok_iff, symbol_eq_ok_iff, name_eq_ok_iff, Prod.exists, pure, Except.pure,
    Except.ok.injEq] at read
  obtain ⟨column, _, ⟨_, same, -⟩, _, ⟨_, sameSign, -⟩, v, left, readValue, result⟩ := read
  cases same
  cases sameSign
  cases result
  rw [rest_of_value readValue]
  exact dropWhile_run inside (by simp [endsComparedValue, word]) rest

theorem test_at {lead after : Tokens} {u : Token} {filter : Filter} (led : LedTests lead)
    (read : conditions source (lead ++ u :: after) = .ok (filter, rest)) :
    ∃ n, u.name? = some n ∧ n ∈ filter.columns := by
  obtain ⟨p, _, first, member⟩ := (goesOn_predicates source).item_at (takes_predicate source) led read
  obtain ⟨run, same, test, -⟩ := (accepts_predicate source _ _ _).mp first
  cases test with
  | equality spells =>
    cases same
    exact ⟨_, spells, List.mem_map.mpr ⟨_, member, rfl⟩⟩

/-! Column definitions. -/

theorem columnList_behind {statement : String} {depth depth' : Nat} {run : Tokens}
    (ends : depthBehind depth run = some depth') (group ts : Tokens) :
    columnList statement source depth group (run ++ ts) =
      columnList statement source depth' (group ++ run) ts := by
  fun_induction depthBehind depth run generalizing group with
  | case1 =>
    cases ends
    simp
  | case2 depth t run opens ih =>
    rw [List.cons_append, columnList.eq_def]
    simp only [if_pos opens, ih ends, List.append_assoc, List.singleton_append]
  | case3 => cases ends
  | case4 t run opens closes depth ih =>
    rw [List.cons_append, columnList.eq_def]
    simp only [if_neg opens, if_pos closes, ih ends, List.append_assoc, List.singleton_append]
  | case5 => cases ends
  | case6 depth t run opens closes comma ih =>
    rw [List.cons_append, columnList.eq_def]
    simp only [if_neg opens, if_neg closes, if_neg comma, ih ends, List.append_assoc,
      List.singleton_append]

theorem name_of_columnOf {statement : String} {group : Tokens} {u : Token}
    {column : ColumnDefinition} (head : group.head? = some u)
    (read : columnOf statement source group = .ok column) : u.name? = some column.name := by
  obtain ⟨more, rfl⟩ := List.head?_eq_some_iff.mp head
  rw [columnOf] at read
  split at read
  · cases read
  · rename_i n spells
    split at read
    · rename_i made
      cases read
      rw [spells, (ColumnDefinition.isColumnName_of_make made).1]
    · cases read

theorem column_of_group {statement : String} {depth : Nat} {group : Tokens} {u : Token}
    {columns : List ColumnDefinition} (head : group.head? = some u)
    (read : columnList statement source depth group ts = .ok (columns, rest)) :
    ∃ column ∈ columns, u.name? = some column.name := by
  have kept {group : Tokens} (head : group.head? = some u) (t : Token) :
      (group ++ [t]).head? = some u := by
    simp [List.head?_append, head]
  fun_induction columnList statement source depth group ts generalizing columns with
  | case1 => cases read
  | case2 depth group t ts opens ih => exact ih (kept head t) read
  | case3 group t ts =>
    simp only [bind_eq_ok_iff, pure, Except.pure, Except.ok.injEq, Prod.mk.injEq] at read
    obtain ⟨column, read, rfl, -⟩ := read
    exact ⟨column, List.mem_singleton_self _, name_of_columnOf head read⟩
  | case4 group t ts _ _ depth ih => exact ih (kept head t) read
  | case5 depth group t ts _ _ _ ih =>
    simp only [bind_eq_ok_iff, pure, Except.pure, Except.ok.injEq, Prod.mk.injEq] at read
    obtain ⟨column, read, _, -, rfl, -⟩ := read
    exact ⟨column, List.mem_cons_self .., name_of_columnOf head read⟩
  | case6 depth group t ts _ _ _ ih => exact ih (kept head t) read

theorem column_at {statement : String} {lead after : Tokens} {u : Token}
    {columns : List ColumnDefinition} (led : LedDefinitions lead)
    (read : columnList statement source 0 [] (lead ++ u :: after) = .ok (columns, rest)) :
    ∃ column ∈ columns, u.name? = some column.name := by
  induction led generalizing columns with
  | first =>
    rw [List.nil_append, columnList.eq_def] at read
    simp only [columnOf, bind, Except.bind] at read
    split_ifs at read with opens closes comma
    · exact column_of_group rfl read
    · exact column_of_group rfl read
  | @next run lead t definition mark led ih =>
    have comma : t.kind = .comma := by simpa using mark
    rw [List.append_assoc, columnList_behind definition, List.cons_append, columnList.eq_def] at read
    simp only [comma, reduceCtorEq, if_false, and_self, if_true, bind_eq_ok_iff, Prod.exists, pure,
      Except.pure, Except.ok.injEq, Prod.mk.injEq] at read
    obtain ⟨column, -, others, _, readMore, rfl, rfl⟩ := read
    obtain ⟨found, member, spells⟩ := ih readMore
    exact ⟨found, List.mem_cons_of_mem _ member, spells⟩

/-! The rules of the verbs. -/

section
variable {u : Token} {c : Command}

/-- The token where a name is wanted spells a name of the command. -/
def Named (u : Token) (c : Command) : Prop := ∃ n ∈ c.names, u.name? = some n

theorem named_subject (spells : u.name? = some c.subject) : Named u c :=
  ⟨_, List.mem_cons_self .., spells⟩

theorem named_column {n : String} (spells : u.name? = some n) (member : n ∈ c.columnNames) :
    Named u c :=
  ⟨n, List.mem_cons_of_mem _ member, spells⟩

private theorem use_named (read : use (u :: ts) = .ok c) : Named u c := by
  have derived : Derives [] .use (u :: ts) c := use_iff.mp read
  cases derived with
  | use spells => exact named_subject spells

private theorem drop_named {object : Token} (read : drop (object :: u :: ts) = .ok c) :
    Named u c := by
  have derived : Derives [] .drop (object :: u :: ts) c := drop_iff.mp read
  cases derived with
  | drop word spells => exact named_subject spells

private theorem createTable_named {t : Token} (read : createTable source (t :: ts) = .ok c) :
    Named t c ∧ ∀ opens lead after, ts = opens :: (lead ++ u :: after) → LedDefinitions lead →
      Named u c := by
  unfold createTable at read
  simp only [bind_eq_ok_iff, labelled_eq_ok_iff, name_eq_ok_iff, symbol_eq_ok_iff, Prod.exists, pure,
    Except.pure, Except.ok.injEq] at read
  obtain ⟨table, _, ⟨_, same, spells⟩, _, ⟨_, rfl, -⟩, columns, rest, read, -, -, rfl⟩ := read
  cases same
  refine ⟨named_subject spells, ?_⟩
  rintro opens lead after same led
  cases same
  obtain ⟨column, member, spellsColumn⟩ := column_at led read
  exact named_column spellsColumn (List.mem_map.mpr ⟨column, member, rfl⟩)

private theorem create_named {object : Token} (read : create source (object :: u :: ts) = .ok c) :
    Named u c := by
  unfold create at read
  split_ifs at read with database table
  · obtain ⟨_, _, name, same, spells, -, rfl⟩ := createDatabase_iff.mp read
    cases same
    exact named_subject spells
  · exact (createTable_named (u := u) read).1

private theorem definition_named {object t opens : Token} {lead after : Tokens}
    (word : object.isKeyword "TABLE" = true) (led : LedDefinitions lead)
    (read : create source (object :: t :: opens :: (lead ++ u :: after)) = .ok c) : Named u c := by
  rcases create_iff.mp read with derived | ⟨-, read⟩
  · generalize whole : object :: t :: opens :: (lead ++ u :: after) = ts at derived
    cases derived with
    | createDatabase database =>
      cases whole
      rw [not_isKeyword_both database] at word
      cases word
  · exact (createTable_named read).2 opens lead after rfl led

private theorem insert_named {into : Token} (read : insert source (into :: u :: ts) = .ok c) :
    Named u c := by
  cases insert_iff.mp read with
  | insert intoWord spells => exact named_subject spells

private theorem listed_named {into t opens : Token} {lead after : Tokens} (led : LedNames lead)
    (read : insert source (into :: t :: opens :: (lead ++ u :: after)) = .ok c) : Named u c := by
  rw [insert_iff] at read
  generalize whole : into :: t :: opens :: (lead ++ u :: after) = ts at read
  cases read with
  | insert intoWord spells opened list closed =>
    obtain ⟨-, -, -, same⟩ : _ ∧ _ ∧ _ ∧ lead ++ u :: after = _ := by simpa using whole
    obtain ⟨n, spells, member⟩ := name_at led
      ((accepts_names _ _ _).mpr ⟨_, same, list, by simp [closed]⟩)
    exact named_column spells member

private theorem select_inv (read : select source ts = .ok c) :
    ∃ columns from_ t tail table filter left, selection ts = .ok (columns, from_ :: t :: tail) ∧
      t.name? = some table ∧ optionalConditions source tail = .ok (filter, left) ∧
      c = .select table columns filter := by
  rw [select_eq] at read
  simp only [labelled_eq_ok_iff, bind_eq_ok_iff, keyword_eq_ok_iff, name_eq_ok_iff, Prod.exists, pure,
    Except.pure, Except.ok.injEq] at read
  obtain ⟨columns, _, selected, _, ⟨from_, rfl, -⟩, table, tail, ⟨t, rfl, spells⟩, filter, left,
    tested, -, -, rfl⟩ := read
  exact ⟨columns, from_, t, tail, table, filter, left, selected, spells, tested, rfl⟩

private theorem selection_eq_names (starts : ∀ t ∈ ts.head?, StartsNames t) :
    selection ts = names ts := by
  cases ts with
  | nil => rfl
  | cons t ts =>
    obtain ⟨noStar, noSource⟩ := starts t rfl
    simp [selection, atKind, atKeyword, noStar, noSource]

private theorem rest_of_selection {from_ : Token} {run tail : Tokens} {columns : List String}
    (shape : IsSelectionRun from_ run) (word : from_.isKeyword "FROM" = true)
    (read : selection (run ++ from_ :: tail) = .ok (columns, rest)) : rest = from_ :: tail := by
  cases shape with
  | star mark =>
    simp only [selection, atKind, mark, List.singleton_append, List.head?_cons, Option.map_some,
      beq_self_eq_true, Option.getD_some, if_true, List.tail_cons] at read
    cases read
    rfl
  | nothing apart =>
    have star : atKind .star (from_ :: tail) = false := by simp [atKind, apart]
    rw [List.nil_append, selection, star, if_neg Bool.false_ne_true, if_pos (by simpa [atKeyword])]
      at read
    cases read
    rfl
  | @names lead t led starts apart =>
    have first : ∀ u ∈ (lead ++ [t] ++ from_ :: tail).head?, StartsNames u := by
      simpa [List.head?_append] using starts
    rw [selection_eq_names first, List.append_assoc] at read
    exact rest_of_names led apart read

private theorem selected_named {lead after : Tokens} (led : LedNames lead)
    (starts : ∀ t ∈ lead.head?, StartsNames t) (word : StartsNames u)
    (read : select source (lead ++ u :: after) = .ok c) : Named u c := by
  obtain ⟨columns, _, _, _, table, filter, _, selected, -, -, rfl⟩ := select_inv read
  have first : ∀ t ∈ (lead ++ u :: after).head?, StartsNames t := by
    cases lead with
    | nil => simpa using word
    | cons => simpa using starts
  rw [selection_eq_names first] at selected
  obtain ⟨n, spells, member⟩ := name_at led selected
  exact named_column spells (List.mem_append_left _ member)

private theorem selectedFrom_named {from_ : Token} {run after : Tokens}
    (shape : IsSelectionRun from_ run) (word : from_.isKeyword "FROM" = true)
    (read : select source (run ++ from_ :: u :: after) = .ok c) : Named u c := by
  obtain ⟨columns, _, _, _, table, filter, _, selected, spells, -, rfl⟩ := select_inv read
  cases rest_of_selection shape word selected
  exact named_subject spells

private theorem selectedWhere_named {from_ t where_ : Token} {run lead after : Tokens}
    (shape : IsSelectionRun from_ run) (word : from_.isKeyword "FROM" = true)
    (whereWord : where_.isKeyword "WHERE" = true) (led : LedTests lead)
    (read : select source (run ++ from_ :: t :: where_ :: (lead ++ u :: after)) = .ok c) :
    Named u c := by
  obtain ⟨columns, _, _, _, table, filter, _, selected, -, tested, rfl⟩ := select_inv read
  cases rest_of_selection shape word selected
  rw [optionalConditions, if_pos (by simpa [atKeyword])] at tested
  obtain ⟨n, spells, member⟩ := test_at led tested
  exact named_column spells (List.mem_append_right _ member)

private theorem tested_at {run lead after : Tokens} {filter : Filter}
    (tests : IsFilter source run filter) (ended : IsEnd (·.isKeyword "AND") rest)
    (led : LedTests lead) (same : lead ++ u :: after = run ++ rest) :
    ∃ n, u.name? = some n ∧ n ∈ filter.columns := by
  obtain ⟨_, read, -⟩ := conditions_finish_iff.mpr ⟨run, rest, same, tests, ended⟩
  exact test_at led read

private theorem update_named (read : update source (u :: ts) = .ok c) : Named u c := by
  cases update_iff.mp read with
  | update spells => exact named_subject spells

private theorem assigned_named {t set : Token} (read : update source (t :: set :: u :: ts) = .ok c) :
    Named u c := by
  cases update_iff.mp read with
  | update spells word spellsColumn => exact named_column spellsColumn (List.mem_cons_self ..)

private theorem updatedWhere_named {t set v sign where_ : Token} {run lead after : Tokens}
    (inside : ∀ v ∈ run, endsAssignedValue v = false) (whereWord : where_.isKeyword "WHERE" = true)
    (led : LedTests lead)
    (read : update source (t :: set :: v :: sign :: (run ++ where_ :: (lead ++ u :: after))) = .ok c) :
    Named u c := by
  rw [update_iff] at read
  generalize whole : t :: set :: v :: sign :: (run ++ where_ :: (lead ++ u :: after)) = ts at read
  cases read with
  | @update _ _ _ _ _ written _ _ _ _ _ _ spells word spellsColumn equals assigned otherWord apart
      tested ended =>
    obtain ⟨-, -, -, -, same⟩ : _ ∧ _ ∧ _ ∧ _ ∧ run ++ where_ :: (lead ++ u :: after) = _ := by
      simpa using whole
    have stops {t : Token} (word : t.isKeyword "WHERE" = true) : endsAssignedValue t = true := by
      simp [endsAssignedValue, word]
    have free (t : Token) (member : t ∈ written) : endsAssignedValue t = false := by
      simp [endsAssignedValue, assigned.free t member]
    have cut := congrArg (List.dropWhile fun t => !endsAssignedValue t) same
    rw [dropWhile_run inside (stops whereWord), dropWhile_run free (stops otherWord)] at cut
    obtain ⟨n, spells, member⟩ := tested_at tested ended led (List.cons.inj cut).2
    exact named_column spells (List.mem_cons_of_mem _ member)

private theorem delete_named {from_ : Token} (read : delete source (from_ :: u :: ts) = .ok c) :
    Named u c := by
  cases delete_iff.mp read with
  | delete word spells => exact named_subject spells

private theorem deletedWhere_named {from_ t where_ : Token} {lead after : Tokens}
    (led : LedTests lead)
    (read : delete source (from_ :: t :: where_ :: (lead ++ u :: after)) = .ok c) : Named u c := by
  rw [delete_iff] at read
  generalize whole : from_ :: t :: where_ :: (lead ++ u :: after) = ts at read
  cases read with
  | delete word spells whereWord tested ended =>
    obtain ⟨-, -, -, same⟩ : _ ∧ _ ∧ _ ∧ lead ++ u :: after = _ := by simpa using whole
    obtain ⟨n, spells, member⟩ := tested_at tested ended led same
    exact named_column spells member

/-- In a statement that is read, a token where a name is wanted spells a name of the command. -/
theorem named_of_wantsName {verb : Verb} {before after : Tokens} (wants : WantsName verb before)
    (starts : StartsNames u) (read : verb.read source (before ++ u :: after) = .ok c) :
    Named u c := by
  cases wants with
  | created => exact create_named read
  | defined t word opened led => exact definition_named word led read
  | used => exact use_named read
  | dropped => exact drop_named read
  | filled => exact insert_named read
  | listed t word opened led => exact listed_named led read
  | selected led first => exact selected_named led first starts read
  | selectedFrom shape word =>
    rw [List.append_assoc] at read
    exact selectedFrom_named shape word read
  | selectedWhere t shape word whereWord led =>
    rw [List.append_assoc] at read
    exact selectedWhere_named shape word whereWord led read
  | updated => exact update_named read
  | assigned => exact assigned_named read
  | updatedWhere t v sign word inside whereWord led =>
    simp only [List.cons_append, List.append_assoc] at read
    exact updatedWhere_named inside whereWord led read
  | deletedFrom => exact delete_named read
  | deletedWhere t word whereWord led => exact deletedWhere_named led read

end

end Cellstore.Statement
