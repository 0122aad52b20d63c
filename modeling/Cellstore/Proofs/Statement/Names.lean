import Cellstore.Proofs.Statement.Acceptance

/-! Commands that texts state.
Every name in them can name a column, lists of columns and tests are not empty, and no text is
refused for a column that cannot be defined. -/
namespace Cellstore.Statement

/-- What the rules of statements guarantee of a command. -/
def IsStated : Command → Prop
  | .createDatabase name => IsColumnName name
  | .useDatabase name => IsColumnName name
  | .createTable table columns => IsColumnName table ∧ columns ≠ []
  | .insert table columns _ _ =>
    IsColumnName table ∧ columns ≠ [] ∧ columns.Nodup ∧ ∀ column ∈ columns, IsColumnName column
  | .select table columns filter =>
    IsColumnName table ∧ (∀ column ∈ columns, IsColumnName column) ∧
      ∀ test ∈ filter, IsColumnName test.column
  | .update table column _ filter =>
    IsColumnName table ∧ IsColumnName column ∧ filter ≠ [] ∧ ∀ test ∈ filter, IsColumnName test.column
  | .delete table filter =>
    IsColumnName table ∧ filter ≠ [] ∧ ∀ test ∈ filter, IsColumnName test.column
  | .dropTable table => IsColumnName table

/-- If a token spells a name at all, it is one that can name a column. -/
def Honest (t : Token) : Prop := ∀ n, t.name? = some n → IsColumnName n

variable {source : List Char} {ts : Tokens}

theorem Listed.ne_nil {α : Type} {between : Token → Bool} {Item : Tokens → α → Prop} {run : Tokens}
    {as : List α} (listed : Listed between Item run as) : as ≠ [] := by
  cases listed <;> simp

theorem Listed.forall_mem {α : Type} {between : Token → Bool} {Item : Tokens → α → Prop}
    {P : α → Prop} (each : ∀ run a, (∀ t ∈ run, Honest t) → Item run a → P a) {run : Tokens}
    {as : List α} (listed : Listed between Item run as) (honest : ∀ t ∈ run, Honest t) :
    ∀ a ∈ as, P a := by
  induction listed with
  | last item => simpa using each _ _ honest item
  | more item mark others ih =>
    simp only [List.forall_mem_append, List.forall_mem_cons] at honest ⊢
    exact ⟨each _ _ honest.1 item, ih honest.2.2⟩

theorem isColumnName_of_isNames {run : Tokens} {columns : List String} (list : IsNames run columns)
    (honest : ∀ t ∈ run, Honest t) : ∀ column ∈ columns, IsColumnName column := by
  refine list.forall_mem (fun run name each item => ?_) honest
  cases item with
  | token spells => exact each _ (by simp) _ spells

theorem isColumnName_of_isFilter {run : Tokens} {filter : Filter} (tests : IsFilter source run filter)
    (honest : ∀ t ∈ run, Honest t) : ∀ test ∈ filter, IsColumnName test.column := by
  refine tests.forall_mem (P := fun test : Predicate => IsColumnName test.column)
    (fun run test each item => ?_) honest
  cases item with
  | equality spells => exact each _ (by simp) _ spells

theorem isStated_of_derives {verb : Verb} {c : Command} (derived : Derives source verb ts c)
    (honest : ∀ t ∈ ts, Honest t) : IsStated c := by
  cases derived with
  | createDatabase word spells => exact honest _ (by simp) _ spells
  | use spells => exact honest _ (by simp) _ spells
  | insert intoWord spells opened list closed valuesWord openedValues listed closedValues ended
      sameLength distinct =>
    exact ⟨honest _ (by simp) _ spells, list.ne_nil, distinct,
      isColumnName_of_isNames list fun t member => honest t (by simp [member])⟩
  | select selection word spells ended =>
    refine ⟨honest _ (by simp) _ spells, ?_, ?_⟩
    · cases selection with
      | star => simp
      | nothing => simp
      | names list => exact isColumnName_of_isNames list fun t member => honest t (by simp [member])
    · cases ended with
      | all => simp
      | filtered word tests =>
        exact isColumnName_of_isFilter tests fun t member => honest t (by simp [member])
  | update spells word spellsColumn equals assigned whereWord apart tested =>
    exact ⟨honest _ (by simp) _ spells, honest _ (by simp) _ spellsColumn, tested.ne_nil,
      isColumnName_of_isFilter tested fun t member => honest t (by simp [member])⟩
  | delete word spells whereWord tested =>
    exact ⟨honest _ (by simp) _ spells, tested.ne_nil,
      isColumnName_of_isFilter tested fun t member => honest t (by simp [member])⟩
  | drop word spells => exact honest _ (by simp) _ spells

/-! Column definitions. -/

/-- Not a fault of a column that was read well and cannot be defined. -/
def Fault.IsOfText : Fault → Prop
  | .column _ => False
  | _ => True

/-- A fault of the tokens behind the verb. -/
def Fault.IsMalformed : Fault → Prop
  | .malformed _ _ => True
  | _ => False

theorem Fault.IsMalformed.isOfText {fault : Fault} (malformed : fault.IsMalformed) :
    fault.IsOfText := by
  cases fault with
  | malformed => trivial
  | _ => exact malformed.elim

theorem isMalformed_of_labelled {α : Type} {statement : String} {x : Except Cause α} {fault : Fault}
    (failed : labelled statement x = .error fault) : fault.IsMalformed := by
  cases x with
  | ok a => cases failed
  | error cause =>
    cases failed
    trivial

private theorem columnOf_isMalformed {statement : String} {group : Tokens} {fault : Fault}
    (honest : ∀ t ∈ group, Honest t) (failed : columnOf statement source group = .error fault) :
    fault.IsMalformed := by
  cases group with
  | nil =>
    cases failed
    trivial
  | cons t more =>
    rw [columnOf] at failed
    split at failed
    · cases failed
      trivial
    · rename_i n spells
      rw [ColumnDefinition.make_of_isColumnName _ (honest t (by simp) n spells)] at failed
      cases failed

theorem columnList_spec (statement : String) (source : List Char) (depth : Nat) (group ts : Tokens)
    (honestGroup : ∀ t ∈ group, Honest t) (honest : ∀ t ∈ ts, Honest t) :
    (∀ columns rest, columnList statement source depth group ts = .ok (columns, rest) →
      columns ≠ []) ∧
    ∀ fault, columnList statement source depth group ts = .error fault → fault.IsMalformed := by
  have grown {group : Tokens} {t : Token} (old : ∀ u ∈ group, Honest u) (new : Honest t) :
      ∀ u ∈ group ++ [t], Honest u := by
    rw [List.forall_mem_append]
    exact ⟨old, by simpa using new⟩
  fun_induction columnList statement source depth group ts with
  | case1 =>
    refine ⟨by simp, ?_⟩
    rintro fault ⟨⟩
    trivial
  | case2 depth group t ts opens ih =>
    rw [List.forall_mem_cons] at honest
    exact ih (grown honestGroup honest.1) honest.2
  | case3 group t ts =>
    simp only [bind_eq_ok_iff, bind_eq_error_iff, pure, Except.pure, Except.ok.injEq,
      Prod.mk.injEq, reduceCtorEq, and_false, exists_false, or_false]
    refine ⟨?_, fun fault failed => columnOf_isMalformed honestGroup failed⟩
    rintro _ _ ⟨column, -, rfl, -⟩
    simp
  | case4 group t ts _ _ depth ih =>
    rw [List.forall_mem_cons] at honest
    exact ih (grown honestGroup honest.1) honest.2
  | case5 depth group t ts _ _ _ ih =>
    rw [List.forall_mem_cons] at honest
    obtain ⟨-, ofText⟩ := ih (by simp) honest.2
    simp only [bind_eq_ok_iff, bind_eq_error_iff, pure, Except.pure, Except.ok.injEq,
      Prod.mk.injEq, reduceCtorEq, and_false, exists_false, or_false]
    constructor
    · rintro _ _ ⟨column, -, more, -, rfl, -⟩
      simp
    · rintro fault (failed | ⟨column, -, failed⟩)
      · exact columnOf_isMalformed honestGroup failed
      · exact ofText fault failed
  | case6 depth group t ts _ _ _ ih =>
    rw [List.forall_mem_cons] at honest
    exact ih (grown honestGroup honest.1) honest.2

theorem createTable_spec (honest : ∀ t ∈ ts, Honest t) :
    (∀ c, createTable source ts = .ok c → IsStated c) ∧
      ∀ fault, createTable source ts = .error fault → fault.IsMalformed := by
  unfold createTable
  simp only [bind_eq_ok_iff, bind_eq_error_iff, pure, Except.pure, Except.ok.injEq, Prod.exists,
    labelled_eq_ok_iff, name_eq_ok_iff, symbol_eq_ok_iff, reduceCtorEq, and_false, exists_false,
    or_false]
  constructor
  · rintro _ ⟨table, _, ⟨t, rfl, spells⟩, _, ⟨opens, rfl, opened⟩, columns, rest, read, -, -, rfl⟩
    simp only [List.forall_mem_cons] at honest
    have spec := columnList_spec "CREATE TABLE" source 0 [] _ (by simp) honest.2.2
    exact ⟨honest.1 _ spells, spec.1 _ _ read⟩
  · rintro fault (failed | ⟨table, _, ⟨t, rfl, spells⟩, failed | ⟨_, ⟨opens, rfl, opened⟩, rest⟩⟩)
    · exact isMalformed_of_labelled failed
    · exact isMalformed_of_labelled failed
    · simp only [List.forall_mem_cons] at honest
      have spec := columnList_spec "CREATE TABLE" source 0 [] _ (by simp) honest.2.2
      rcases rest with failed | ⟨columns, after, read, failed⟩
      · exact spec.2 fault failed
      · exact isMalformed_of_labelled failed

/-! Whole statements. -/

theorem read_isStated {verb : Verb} {c : Command} (honest : ∀ t ∈ ts, Honest t)
    (read : verb.read source ts = .ok c) : IsStated c := by
  rcases read_iff.mp read with derived | ⟨-, created⟩
  · exact isStated_of_derives derived honest
  · exact (createTable_spec fun t member => honest t (List.mem_of_mem_tail member)).1 c created

theorem read_isMalformed {verb : Verb} {fault : Fault} (honest : ∀ t ∈ ts, Honest t)
    (failed : verb.read source ts = .error fault) : fault.IsMalformed := by
  rcases read_ok_or_malformed verb source ts with ⟨c, read⟩ | ⟨statement, cause, read⟩ | table
  · rw [read] at failed
    cases failed
  · rw [read] at failed
    cases failed
    trivial
  · cases verb with
    | create =>
      have created := @createTable_spec source ts.tail fun t member =>
        honest t (List.mem_of_mem_tail member)
      unfold Verb.read create at failed
      split_ifs at failed
      · exact isMalformed_of_labelled failed
      · exact created.2 fault failed
      · cases failed
        trivial
    | _ => cases table

theorem parse_spec (text : String) :
    (∀ c, parse text = .ok c → IsStated c) ∧
      ∀ fault, parse text = .error fault → fault.IsOfText := by
  unfold parse
  dsimp only
  split_ifs
  · refine ⟨by simp, ?_⟩
    rintro fault ⟨⟩
    trivial
  split
  · refine ⟨by simp, ?_⟩
    rintro fault ⟨⟩
    trivial
  · rename_i verb _
    split
    · refine ⟨by simp, ?_⟩
      rintro fault ⟨⟩
      trivial
    · rename_i tokens scanned
      have honest : ∀ t ∈ tokens, Honest t := Token.isColumnName_of_name? scanned
      cases tokens with
      | nil =>
        refine ⟨by simp [ofTokens], ?_⟩
        rintro fault ⟨⟩
        trivial
      | cons t rest =>
        have others : ∀ t ∈ rest, Honest t := fun t member => honest t (List.mem_cons_of_mem _ member)
        exact ⟨fun c read => read_isStated others read,
          fun fault failed => (read_isMalformed others failed).isOfText⟩

end Cellstore.Statement
