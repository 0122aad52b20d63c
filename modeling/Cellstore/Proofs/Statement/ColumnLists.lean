import Cellstore.Proofs.Statement.NameLeads

/-! The columns of a new table in its statement.
They stand between a parenthesis and its partner, and are split at the commas outside of inner
parentheses. Reading counts how deep it is, one token after the other. What it takes are the parts
that the nesting of parentheses gives, of which there is only one choice. -/
namespace Cellstore.Statement

variable {source : List Char} {run ts rest : Tokens}

/-- Every parenthesis has its partner among these tokens. -/
inductive IsBalanced : Tokens → Prop where
  | nothing : IsBalanced []
  | token {t : Token} {ts : Tokens} (opens : t.kind ≠ .leftParen) (closes : t.kind ≠ .rightParen)
      (more : IsBalanced ts) : IsBalanced (t :: ts)
  | group {opens closes : Token} {inside ts : Tokens} (opened : opens.kind = .leftParen)
      (inner : IsBalanced inside) (closed : closes.kind = .rightParen) (more : IsBalanced ts) :
      IsBalanced (opens :: (inside ++ closes :: ts))

/-- Balanced tokens with no comma outside of parentheses. -/
inductive IsSegment : Tokens → Prop where
  | nothing : IsSegment []
  | token {t : Token} {ts : Tokens} (opens : t.kind ≠ .leftParen) (closes : t.kind ≠ .rightParen)
      (comma : t.kind ≠ .comma) (more : IsSegment ts) : IsSegment (t :: ts)
  | group {opens closes : Token} {inside ts : Tokens} (opened : opens.kind = .leftParen)
      (inner : IsBalanced inside) (closed : closes.kind = .rightParen) (more : IsSegment ts) :
      IsSegment (opens :: (inside ++ closes :: ts))

/-- Tokens that are cut at every comma outside of parentheses. -/
abbrev Splits : Tokens → List Tokens → Prop :=
  Listed (·.kind == .comma) fun run segment => IsSegment run ∧ segment = run

/-- A segment names its column by the first token, and the characters from there to its last token
are the definition. -/
inductive Defines (source : List Char) : Tokens → ColumnDefinition → Prop where
  | named {segment : Tokens} {first last : Token} {c : ColumnDefinition}
      (starts : segment.head? = some first) (stops : segment.getLast? = some last)
      (spells : first.name? = some c.name) (text : c.definition = Token.slice source first last) :
      Defines source segment c

/-- The name of a table, and a parenthesis with its partner, behind which at most a semicolon stands.
What is between them is split into segments. -/
inductive IsTable : Tokens → String → List Tokens → Prop where
  | table {t opens closes : Token} {body rest : Tokens} {name : String} {segments : List Tokens}
      (spells : t.name? = some name) (opened : opens.kind = .leftParen) (balanced : IsBalanced body)
      (closed : closes.kind = .rightParen) (split : Splits body segments)
      (ended : IsEnd (fun _ => false) rest) :
      IsTable (t :: opens :: (body ++ closes :: rest)) name segments

/-! Segments of balanced tokens. -/

theorem IsBalanced.append (balanced : IsBalanced run) (others : IsBalanced ts) :
    IsBalanced (run ++ ts) := by
  induction balanced with
  | nothing => exact others
  | token opens closes _ ih => exact .token opens closes ih
  | group opened inner closed _ _ ih =>
    rw [List.cons_append, List.append_assoc, List.cons_append]
    exact .group opened inner closed ih

theorem IsSegment.balanced (segment : IsSegment run) : IsBalanced run := by
  induction segment with
  | nothing => exact .nothing
  | token opens closes _ _ ih => exact .token opens closes ih
  | group opened inner closed _ ih => exact .group opened inner closed ih

theorem balanced_of_splits {segments : List Tokens} (split : Splits run segments) :
    IsBalanced run := by
  induction split with
  | last item => exact item.1.balanced
  | more item mark _ ih =>
    have comma := beq_iff_eq.mp mark
    refine item.1.balanced.append (.token ?_ ?_ ih) <;> simp [comma]

theorem exists_splits (balanced : IsBalanced run) : ∃ segments, Splits run segments := by
  induction balanced with
  | nothing => exact ⟨[[]], .last ⟨.nothing, rfl⟩⟩
  | @token t ts opens closes _ ih =>
    obtain ⟨segments, split⟩ := ih
    by_cases comma : t.kind = .comma
    · exact ⟨[] :: segments, .more ⟨.nothing, rfl⟩ (by simpa using comma) split⟩
    · cases split with
      | last item => exact ⟨_, .last ⟨.token opens closes comma item.1, rfl⟩⟩
      | more item mark others =>
        exact ⟨_, .more ⟨.token opens closes comma item.1, rfl⟩ mark others⟩
  | @group _ _ inside ts opened inner closed _ _ ih =>
    obtain ⟨segments, split⟩ := ih
    cases split with
    | last item => exact ⟨_, .last ⟨.group opened inner closed item.1, rfl⟩⟩
    | @more run rest t _ as item mark others =>
      have whole : Splits _ _ := .more ⟨IsSegment.group opened inner closed item.1, rfl⟩ mark others
      rw [List.cons_append, List.append_assoc, List.cons_append] at whole
      exact ⟨_, whole⟩

theorem mem_of_splits {segments : List Tokens} (split : Splits run segments) :
    ∀ segment ∈ segments, ∀ t ∈ segment, t ∈ run := by
  induction split with
  | last item =>
    rintro _ (_ | ⟨_, ⟨⟩⟩) t inside
    exact item.2 ▸ inside
  | more item mark _ ih =>
    rintro segment (_ | ⟨_, member⟩) t inside
    · exact List.mem_append_left _ (item.2 ▸ inside)
    · exact List.mem_append_right _ (List.mem_cons_of_mem _ (ih segment member t inside))

/-! The count of open parentheses. -/

section
variable {depth : Nat} {t : Token}

def EndsSegment (t : Token) : Prop := t.kind = .comma ∨ t.kind = .rightParen

theorem depthBehind_opens (opens : t.kind = .leftParen) :
    depthBehind depth (t :: ts) = depthBehind (depth + 1) ts := by
  rw [depthBehind.eq_def]
  exact if_pos opens

theorem depthBehind_closes (closes : t.kind = .rightParen) :
    depthBehind (depth + 1) (t :: ts) = depthBehind depth ts := by
  rw [depthBehind.eq_def]
  simp [closes]

theorem depthBehind_other (opens : t.kind ≠ .leftParen) (closes : t.kind ≠ .rightParen)
    (comma : ¬ (t.kind = .comma ∧ depth = 0)) :
    depthBehind depth (t :: ts) = depthBehind depth ts := by
  rw [depthBehind.eq_def]
  dsimp only
  rw [if_neg opens, if_neg closes, if_neg comma]

theorem depthBehind_ends (ends : EndsSegment t) : depthBehind 0 (t :: ts) = none := by
  rw [depthBehind.eq_def]
  rcases ends with kind | kind <;> simp [kind]

end

theorem IsBalanced.depthBehind_eq (balanced : IsBalanced run) (depth : Nat) :
    depthBehind (depth + 1) run = some (depth + 1) := by
  induction balanced generalizing depth with
  | nothing => rfl
  | token opens closes _ ih => rw [depthBehind_other opens closes (by simp), ih]
  | group opened _ closed _ ihInside ih =>
    rw [depthBehind_opens opened, depthBehind_append, ihInside, Option.bind_some,
      depthBehind_closes closed, ih]

theorem IsSegment.depthBehind_eq (segment : IsSegment run) : depthBehind 0 run = some 0 := by
  induction segment with
  | nothing => rfl
  | token opens closes comma _ ih => rw [depthBehind_other opens closes (by simp [comma]), ih]
  | group opened inner closed _ ih =>
    rw [depthBehind_opens opened, depthBehind_append, inner.depthBehind_eq, Option.bind_some,
      depthBehind_closes closed, ih]

/-- If the count comes down from above, the parenthesis that closes first has its partner before. -/
theorem exists_partner {depth : Nat} (down : depthBehind (depth + 1) run = some 0) :
    ∃ inside closes after, run = inside ++ closes :: after ∧ IsBalanced inside ∧
      closes.kind = .rightParen ∧ depthBehind depth after = some 0 := by
  induction size : run.length using Nat.strong_induction_on generalizing run depth with
  | _ size ih =>
  cases run with
  | nil => cases down
  | cons t run =>
    rw [List.length_cons] at size
    by_cases opens : t.kind = .leftParen
    · -- The inner parenthesis is closed first, and then the outer one.
      rw [depthBehind_opens opens] at down
      obtain ⟨inner, partner, between, rfl, balanced, closed, down⟩ := ih _ (by omega) down rfl
      rw [List.length_append, List.length_cons] at size
      obtain ⟨inside, closes, after, rfl, others, closing, down⟩ := ih _ (by omega) down rfl
      refine ⟨t :: (inner ++ partner :: inside), closes, after, ?_, ?_, closing, down⟩
      · simp
      · exact .group opens balanced closed others
    by_cases closes : t.kind = .rightParen
    · rw [depthBehind_closes closes] at down
      exact ⟨[], t, run, rfl, .nothing, closes, down⟩
    · rw [depthBehind_other opens closes (by simp)] at down
      obtain ⟨inside, partner, after, rfl, balanced, closed, down⟩ := ih _ (by omega) down rfl
      exact ⟨t :: inside, partner, after, rfl, .token opens closes balanced, closed, down⟩

theorem isSegment_iff : IsSegment run ↔ IsDefinitionRun run := by
  refine ⟨IsSegment.depthBehind_eq, fun level => ?_⟩
  unfold IsDefinitionRun at level
  induction size : run.length using Nat.strong_induction_on generalizing run with
  | _ size ih =>
  cases run with
  | nil => exact .nothing
  | cons t run =>
    rw [List.length_cons] at size
    by_cases opens : t.kind = .leftParen
    · rw [depthBehind_opens opens] at level
      obtain ⟨inside, partner, after, rfl, balanced, closed, down⟩ := exists_partner level
      rw [List.length_append, List.length_cons] at size
      exact .group opens balanced closed (ih _ (by omega) down rfl)
    by_cases ends : EndsSegment t
    · rw [depthBehind_ends ends] at level
      cases level
    · obtain ⟨comma, closes⟩ := not_or.mp ends
      rw [depthBehind_other opens closes fun top => comma top.1] at level
      exact .token opens closes comma (ih _ (by omega) level rfl)

/-! There is one choice. -/

theorem not_isSegment_append {t : Token} (segment : IsSegment run) (ends : EndsSegment t) :
    ¬ IsSegment (run ++ t :: ts) := by
  intro longer
  have count := longer.depthBehind_eq
  rw [depthBehind_append, segment.depthBehind_eq, Option.bind_some, depthBehind_ends ends] at count
  cases count

theorem segment_unique {run' ts' : Tokens} {t t' : Token} (segment : IsSegment run)
    (segment' : IsSegment run') (ends : EndsSegment t) (ends' : EndsSegment t')
    (same : run ++ t :: ts = run' ++ t' :: ts') : run = run' ∧ t = t' ∧ ts = ts' := by
  rcases List.append_eq_append_iff.mp same with ⟨more, rfl, tail⟩ | ⟨more, rfl, tail⟩
  · cases more with
    | nil => simpa using tail
    | cons u more =>
      obtain ⟨rfl, rfl⟩ := List.cons.inj tail
      exact absurd segment' (not_isSegment_append segment ends)
  · cases more with
    | nil => simpa [eq_comm] using tail
    | cons u more =>
      obtain ⟨rfl, rfl⟩ := List.cons.inj tail
      exact absurd segment (not_isSegment_append segment' ends')

theorem splits_unique {body body' rest' : Tokens} {closes closes' : Token}
    {segments segments' : List Tokens} (split : Splits body segments)
    (split' : Splits body' segments') (closed : closes.kind = .rightParen)
    (closed' : closes'.kind = .rightParen)
    (same : body ++ closes :: rest = body' ++ closes' :: rest') : segments = segments' := by
  have comma {t : Token} (mark : (t.kind == .comma) = true) : t.kind = .comma := beq_iff_eq.mp mark
  induction split generalizing body' segments' with
  | last item =>
    obtain ⟨segment, rfl⟩ := item
    cases split' with
    | last item' =>
      obtain ⟨segment', rfl⟩ := item'
      rw [(segment_unique segment segment' (.inr closed) (.inr closed') same).1]
    | more item' mark others =>
      rw [List.append_assoc, List.cons_append] at same
      obtain ⟨-, rfl, -⟩ :=
        segment_unique segment item'.1 (.inr closed) (.inl (comma mark)) same
      rw [comma mark] at closed
      cases closed
  | more item mark others ih =>
    obtain ⟨segment, rfl⟩ := item
    rw [List.append_assoc, List.cons_append] at same
    cases split' with
    | last item' =>
      obtain ⟨-, rfl, -⟩ :=
        segment_unique segment item'.1 (.inl (comma mark)) (.inr closed') same
      rw [comma mark] at closed'
      cases closed'
    | more item' mark' others' =>
      obtain ⟨segment', rfl⟩ := item'
      rw [List.append_assoc, List.cons_append] at same
      obtain ⟨rfl, -, tails⟩ :=
        segment_unique segment segment' (.inl (comma mark)) (.inl (comma mark')) same
      rw [ih others' tails]

theorem isTable_unique {table table' : String} {segments segments' : List Tokens}
    (here : IsTable ts table segments) (there : IsTable ts table' segments') :
    table = table' ∧ segments = segments' := by
  generalize same : ts = us at there
  cases here with
  | table spells _ _ closed split =>
    cases there with
    | table spells' _ _ closed' split' =>
      obtain ⟨rfl, -, same⟩ : _ ∧ _ ∧ _ := by simpa using same
      rw [spells] at spells'
      exact ⟨Option.some.inj spells', splits_unique split split' closed closed' same⟩

/-! What reading takes. -/

theorem columnOf_eq_ok_iff {statement : String} {group : Tokens} {c : ColumnDefinition} :
    columnOf statement source group = .ok c ↔ Defines source group c := by
  cases group with
  | nil => exact ⟨nofun, fun ⟨starts, _, _, _⟩ => nomatch starts⟩
  | cons t more =>
    have last : (t :: more).getLast? = some (more.getLastD t) := by
      rw [List.getLast?_cons, List.getLastD_eq_getLast?]
    rw [columnOf]
    constructor
    · intro read
      split at read
      · cases read
      · rename_i n spells
        split at read
        · rename_i made
          cases read
          obtain ⟨name, definition⟩ := ColumnDefinition.isColumnName_of_make made
          exact .named rfl last (name ▸ spells) definition
        · cases read
    · rintro ⟨starts, stops, spells, text⟩
      cases starts
      rw [last] at stops
      cases stops
      rw [spells]
      dsimp only
      rw [ColumnDefinition.make_of_isColumnName _ c.isColumnName, ← text]

/-- The first definition ends at a comma, and others follow, or at the parenthesis that closes the
list. -/
theorem columnList_cut {statement : String} {depth : Nat} {group : Tokens}
    {columns : List ColumnDefinition}
    (read : columnList statement source depth group ts = .ok (columns, rest)) :
    ∃ run t after c, ts = run ++ t :: after ∧ depthBehind depth run = some 0 ∧
      columnOf statement source (group ++ run) = .ok c ∧
      (t.kind = .rightParen ∧ columns = [c] ∧ rest = after ∨
        t.kind = .comma ∧ ∃ others, columnList statement source 0 [] after = .ok (others, rest) ∧
          columns = c :: others) := by
  fun_induction columnList statement source depth group ts generalizing columns with
  | case1 => cases read
  | case2 depth group t ts opens ih =>
    obtain ⟨run, mark, after, c, rfl, level, first, others⟩ := ih read
    refine ⟨t :: run, mark, after, c, rfl, ?_, ?_, others⟩
    · rw [depthBehind_opens opens, level]
    · rwa [List.append_assoc] at first
  | case3 group t ts _ closes =>
    simp only [bind_eq_ok_iff, pure, Except.pure, Except.ok.injEq, Prod.mk.injEq] at read
    obtain ⟨c, first, rfl, rfl⟩ := read
    exact ⟨[], t, ts, c, rfl, rfl, by rwa [List.append_nil], .inl ⟨closes, rfl, rfl⟩⟩
  | case4 group t ts opens closes depth ih =>
    obtain ⟨run, mark, after, c, rfl, level, first, others⟩ := ih read
    refine ⟨t :: run, mark, after, c, rfl, ?_, ?_, others⟩
    · rw [depthBehind_closes closes, level]
    · rwa [List.append_assoc] at first
  | case5 depth group t ts _ _ comma _ =>
    simp only [bind_eq_ok_iff, pure, Except.pure, Except.ok.injEq, Prod.exists, Prod.mk.injEq] at read
    obtain ⟨c, first, others, _, more, rfl, rfl⟩ := read
    refine ⟨[], t, ts, c, rfl, ?_, by rwa [List.append_nil], .inr ⟨comma.1, others, more, rfl⟩⟩
    rw [comma.2]
    rfl
  | case6 depth group t ts opens closes comma ih =>
    obtain ⟨run, mark, after, c, rfl, level, first, others⟩ := ih read
    refine ⟨t :: run, mark, after, c, rfl, ?_, ?_, others⟩
    · rw [depthBehind_other opens closes comma, level]
    · rwa [List.append_assoc] at first

theorem columnList_eq_ok_iff {statement : String} {columns : List ColumnDefinition} :
    columnList statement source 0 [] ts = .ok (columns, rest) ↔ ∃ body closes segments,
      ts = body ++ closes :: rest ∧ closes.kind = .rightParen ∧ Splits body segments ∧
      List.Forall₂ (Defines source) segments columns := by
  constructor
  · intro read
    induction size : ts.length using Nat.strong_induction_on generalizing ts columns with
    | _ size ih =>
    obtain ⟨run, t, after, c, rfl, level, first, others⟩ := columnList_cut read
    have segment : IsSegment run := isSegment_iff.mpr level
    have defines : Defines source run c := columnOf_eq_ok_iff.mp first
    rcases others with ⟨closes, rfl, rfl⟩ | ⟨comma, others, more, rfl⟩
    · exact ⟨run, t, [run], rfl, closes, .last ⟨segment, rfl⟩, .cons defines .nil⟩
    · rw [List.length_append, List.length_cons] at size
      obtain ⟨body, closes, segments, rfl, closed, split, related⟩ := ih _ (by omega) more rfl
      refine ⟨run ++ t :: body, closes, run :: segments, ?_, closed, ?_, .cons defines related⟩
      · simp
      · exact .more ⟨segment, rfl⟩ (by simpa using comma) split
  · rintro ⟨body, closes, segments, rfl, closed, split, related⟩
    have read {run : Tokens} {c : ColumnDefinition} (defines : Defines source run c) :
        columnOf statement source run = .ok c := columnOf_eq_ok_iff.mpr defines
    induction split generalizing columns with
    | @last run _ item =>
      obtain ⟨segment, rfl⟩ := item
      cases related with
      | cons defines none =>
        cases none
        rw [columnList_behind segment.depthBehind_eq, columnList]
        simp [closed, read defines, bind, Except.bind, pure, Except.pure]
    | @more run _ t _ _ item mark _ ih =>
      obtain ⟨segment, rfl⟩ := item
      have comma : t.kind = .comma := beq_iff_eq.mp mark
      cases related with
      | cons defines others =>
        rw [List.append_assoc, List.cons_append, columnList_behind segment.depthBehind_eq, columnList]
        simp [comma, read defines, ih others, bind, Except.bind, pure, Except.pure]

theorem createTable_eq_ok_iff {c : Command} : createTable source ts = .ok c ↔
    ∃ table segments columns, IsTable ts table segments ∧
      List.Forall₂ (Defines source) segments columns ∧ c = .createTable table columns := by
  unfold createTable
  simp only [bind_eq_ok_iff, labelled_eq_ok_iff, name_eq_ok_iff, symbol_eq_ok_iff, Prod.exists,
    columnList_eq_ok_iff, finish_eq_ok_iff, pure, Except.pure, Except.ok.injEq]
  constructor
  · rintro ⟨table, _, ⟨t, rfl, spells⟩, _, ⟨opens, rfl, opened⟩, columns, rest,
      ⟨body, closes, segments, rfl, closed, split, related⟩, ⟨⟩, ended, rfl⟩
    exact ⟨table, segments, columns,
      .table spells opened (balanced_of_splits split) closed split ended, related, rfl⟩
  · rintro ⟨table, segments, columns, shape, related, rfl⟩
    cases shape with
    | table spells opened _ closed split ended =>
      exact ⟨table, _, ⟨_, rfl, spells⟩, _, ⟨_, rfl, opened⟩, columns, _,
        ⟨_, _, segments, rfl, closed, split, related⟩, ⟨⟩, ended, rfl⟩

theorem exists_defines_iff {segment : Tokens} (honest : ∀ t ∈ segment, Honest t) :
    (∃ c, Defines source segment c) ↔ ∃ t ∈ segment.head?, t.name?.isSome = true := by
  constructor
  · rintro ⟨c, starts, _, spells, _⟩
    exact ⟨_, starts, by simp [spells]⟩
  · rintro ⟨t, head, spelled⟩
    obtain ⟨more, rfl⟩ := List.head?_eq_some_iff.mp head
    obtain ⟨n, spells⟩ := Option.isSome_iff_exists.mp spelled
    have named : IsColumnName n := honest t (List.mem_cons_self ..) n spells
    exact ⟨⟨n, _, named⟩, .named rfl List.getLast?_cons spells rfl⟩

theorem exists_forall₂_defines_iff {segments : List Tokens} :
    (∃ columns, List.Forall₂ (Defines source) segments columns) ↔
      ∀ segment ∈ segments, ∃ c, Defines source segment c := by
  have read {segment : Tokens} {c : ColumnDefinition} :
      columnOf "CREATE TABLE" source segment = .ok c ↔ Defines source segment c := columnOf_eq_ok_iff
  simp only [← read]
  rw [← exists_mapM_iff]
  refine exists_congr fun columns => ?_
  rw [mapM_eq_ok_iff]
  exact ⟨fun related => related.imp fun _ _ => read.mpr, fun related => related.imp fun _ _ => read.mp⟩

/-- The columns of a new table are what stands between a parenthesis and its partner, split exactly
at the commas outside of inner parentheses. Each part has to begin with a name, and all that is no
such list is refused. -/
theorem columns_are_split_at_outer_commas (source : List Char) :
    (∀ ts c, createTable source ts = .ok c ↔ ∃ table segments columns, IsTable ts table segments ∧
      List.Forall₂ (Defines source) segments columns ∧ c = .createTable table columns) ∧
    (∀ ts, (∀ t ∈ ts, Honest t) →
      ((∃ c, createTable source ts = .ok c) ↔ ∃ table segments, IsTable ts table segments ∧
        ∀ segment ∈ segments, ∃ t ∈ segment.head?, t.name?.isSome = true) ∧
      ((∃ c, createTable source ts = .ok c) ∨ Malformed (createTable source ts))) ∧
    (∀ tokens, Token.tokenize source = .ok tokens → ∀ t ∈ tokens, Honest t) ∧
    (∀ body, IsBalanced body → ∃ segments, Splits body segments) ∧
    ∀ ts table table' segments segments', IsTable ts table segments → IsTable ts table' segments' →
      table = table' ∧ segments = segments' := by
  refine ⟨fun ts c => createTable_eq_ok_iff, fun ts honest => ⟨?_, ?_⟩,
    fun tokens => Token.isColumnName_of_name?, fun body => exists_splits,
    fun ts table table' segments segments' => isTable_unique⟩
  · have parts {table : String} {segments : List Tokens} (shape : IsTable ts table segments) :
        (∃ columns, List.Forall₂ (Defines source) segments columns) ↔
          ∀ segment ∈ segments, ∃ t ∈ segment.head?, t.name?.isSome = true := by
      rw [exists_forall₂_defines_iff]
      refine forall₂_congr fun segment member => exists_defines_iff fun t inside => honest t ?_
      cases shape with
      | table _ _ _ _ split => simp [mem_of_splits split segment member t inside]
    constructor
    · rintro ⟨c, read⟩
      obtain ⟨table, segments, columns, shape, related, -⟩ := createTable_eq_ok_iff.mp read
      exact ⟨table, segments, shape, (parts shape).mp ⟨columns, related⟩⟩
    · rintro ⟨table, segments, shape, named⟩
      obtain ⟨columns, related⟩ := (parts shape).mpr named
      exact ⟨_, createTable_eq_ok_iff.mpr ⟨table, segments, columns, shape, related, rfl⟩⟩
  · cases read : createTable source ts with
    | ok c => exact .inl ⟨c, rfl⟩
    | error fault =>
      have malformed := (createTable_spec honest).2 fault read
      cases fault with
      | malformed statement cause => exact .inr ⟨statement, cause, rfl⟩
      | _ => exact malformed.elim

/-- A comma between inner parentheses belongs to the definition of the first column. -/
theorem columns_are_split_at_outer_commas_nested :
    let source := "t (a DECIMAL(10, 2), b INT);".toList
    ∃ ts segments, Token.tokenize source = .ok ts ∧ (∀ t ∈ ts, Honest t) ∧
      IsTable ts "t" segments ∧ List.Forall₂ (Defines source) segments
        [⟨"a", "a DECIMAL(10, 2)", by decide⟩, ⟨"b", "b INT", by decide⟩] := by
  intro source
  obtain ⟨accepts, -, honest, -⟩ := columns_are_split_at_outer_commas source
  have read : (Token.tokenize source).toOption.map (fun ts => createTable source ts) =
      some (.ok (.createTable "t"
        [⟨"a", "a DECIMAL(10, 2)", by decide⟩, ⟨"b", "b INT", by decide⟩])) := by decide +kernel
  cases tokens : Token.tokenize source with
  | error unclosed => simp [tokens, Except.toOption] at read
  | ok ts =>
    rw [tokens] at read
    obtain ⟨table, segments, columns, shape, related, same⟩ := (accepts ts _).mp (Option.some.inj read)
    cases same
    exact ⟨ts, segments, rfl, honest ts tokens, shape, related⟩

end Cellstore.Statement
