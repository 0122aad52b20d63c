import Cellstore.Proofs.Statement.NamePlaces

/-! The names of a command stand at places.
A statement that is read has, for each name of its command, a token at a place where the rules want
a name, and this token spells it. -/
namespace Cellstore.Statement

variable {source : List Char} {ts rest : Tokens}

/-- The tokens lead up to one that spells this name. -/
def LeadsTo (Lead : Tokens → Prop) (ts : Tokens) (n : String) : Prop :=
  ∃ before t after, ts = before ++ t :: after ∧ Lead before ∧ t.name? = some n

section
variable {n : String} {Lead Other : Tokens → Prop}

theorem LeadsTo.first {t : Token} (lead : Lead []) (spells : t.name? = some n) :
    LeadsTo Lead (t :: ts) n :=
  ⟨[], t, ts, rfl, lead, spells⟩

theorem LeadsTo.append (front : Tokens) (leads : LeadsTo Lead ts n)
    (within : ∀ before, Lead before → Other (front ++ before)) :
    LeadsTo Other (front ++ ts) n := by
  obtain ⟨before, t, after, rfl, lead, spells⟩ := leads
  exact ⟨front ++ before, t, after, by rw [List.append_assoc], within before lead, spells⟩

theorem LeadsTo.starts {P : Token → Prop} (leads : LeadsTo Lead ts n) (first : ∀ t ∈ ts.head?, P t) :
    LeadsTo (fun before => Lead before ∧ ∀ t ∈ before.head?, P t) ts n := by
  obtain ⟨before, t, after, rfl, lead, spells⟩ := leads
  refine ⟨before, t, after, rfl, ⟨lead, ?_⟩, spells⟩
  cases before with
  | nil => simp
  | cons => simpa using first

theorem LeadsTo.before (leads : LeadsTo Lead ts n) (rest : Tokens) :
    LeadsTo Lead (ts ++ rest) n := by
  obtain ⟨before, t, after, rfl, lead, spells⟩ := leads
  exact ⟨before, t, after ++ rest, by rw [List.append_assoc, List.cons_append], lead, spells⟩

end

theorem Listed.leadsTo {α : Type} {between : Token → Bool} {Item : Tokens → α → Prop}
    {Run : Tokens → Prop} (named : α → String)
    (each : ∀ run a, Item run a → Run run ∧ LeadsTo (· = []) run (named a)) {run : Tokens}
    {as : List α} (listed : Listed between Item run as) :
    ∀ a ∈ as, LeadsTo (Led between Run) run (named a) := by
  have starts {run : Tokens} {a : α} (item : Item run a) : LeadsTo (Led between Run) run (named a) :=
    (each _ _ item).2.append [] (by rintro _ rfl; exact .first)
  induction listed with
  | last item => simpa using starts item
  | @more run rest t a as item mark others ih =>
    rw [List.forall_mem_cons]
    refine ⟨(starts item).before _, fun b member => ?_⟩
    have later := (ih b member).append (run ++ [t]) fun before led => by
      rw [List.append_assoc]
      exact Led.next (each _ _ item).1 mark led
    rwa [List.append_assoc] at later

theorem leadsTo_of_isNames {run : Tokens} {columns : List String} (list : IsNames run columns) :
    ∀ n ∈ columns, LeadsTo LedNames run n := by
  refine list.leadsTo id fun run n item => ?_
  cases item with
  | token spells => exact ⟨.token _, .first rfl spells⟩

theorem leadsTo_of_isFilter {run : Tokens} {filter : Filter} (tests : IsFilter source run filter) :
    ∀ n ∈ filter.columns, LeadsTo LedTests run n := by
  have each : ∀ test ∈ filter, LeadsTo LedTests run test.column := by
    refine tests.leadsTo Predicate.column fun run test item => ?_
    cases item with
    | equality spells equals value =>
      refine ⟨.equality _ _ fun u member => ?_, .first rfl spells⟩
      simp [endsComparedValue, value.free u member]
  simpa [Filter.columns] using each

theorem IsNames.exists_last {run : Tokens} {columns : List String} (list : IsNames run columns) :
    ∃ lead t, run = lead ++ [t] ∧ LedNames lead := by
  induction list with
  | last item =>
    cases item
    exact ⟨[], _, rfl, .first⟩
  | more item mark others ih =>
    cases item
    obtain ⟨lead, t, rfl, led⟩ := ih
    exact ⟨_, t, by rw [List.append_assoc]; rfl, .next (.token _) mark led⟩

theorem isSelectionRun_of_isSelection {from_ : Token} {run : Tokens} {columns : List String}
    (selection : IsSelection from_ run columns) : IsSelectionRun from_ run := by
  cases selection with
  | star mark => exact .star mark
  | nothing apart => exact .nothing apart
  | names list starts apart =>
    obtain ⟨lead, t, rfl, led⟩ := IsNames.exists_last list
    exact .names t led starts apart

theorem depthBehind_append (depth : Nat) (front back : Tokens) :
    depthBehind depth (front ++ back) = (depthBehind depth front).bind (depthBehind · back) := by
  fun_induction depthBehind depth front with
  | case1 => rfl
  | case2 depth t front opens ih => rw [List.cons_append, depthBehind.eq_def]; simpa [opens] using ih
  | case3 t front opens closes => rw [List.cons_append, depthBehind.eq_def]; simp [closes]
  | case4 t front opens closes depth ih =>
    rw [List.cons_append, depthBehind.eq_def]
    simpa [closes] using ih
  | case5 depth t front opens closes comma =>
    rw [List.cons_append, depthBehind.eq_def]
    simp [comma]
  | case6 depth t front opens closes comma ih =>
    rw [List.cons_append, depthBehind.eq_def]
    simpa [opens, closes, comma] using ih

private theorem leadsTo_of_columnOf {statement : String} {group : Tokens} {column : ColumnDefinition}
    (read : columnOf statement source group = .ok column) (ts : Tokens) :
    LeadsTo LedDefinitions (group ++ ts) column.name := by
  cases group with
  | nil => cases read
  | cons t more => exact .first .first (name_of_columnOf rfl read)

/-- What is read of a definition so far goes on with it, and the definitions behind a comma are led
by it. -/
theorem leadsTo_of_columnList {statement : String} {depth : Nat} {group : Tokens}
    {columns : List ColumnDefinition} (open_ : depthBehind 0 group = some depth)
    (read : columnList statement source depth group ts = .ok (columns, rest)) :
    ∀ column ∈ columns, LeadsTo LedDefinitions (group ++ ts) column.name := by
  -- A token that stays in the group moves there from what is left.
  have grown {group : Tokens} {depth : Nat} (open_ : depthBehind 0 group = some depth) (t : Token) :
      depthBehind 0 (group ++ [t]) = depthBehind depth [t] := by
    rw [depthBehind_append, open_, Option.bind_some]
  have later {group ts : Tokens} {t : Token} {n : String}
      (leads : LeadsTo LedDefinitions (group ++ [t] ++ ts) n) :
      LeadsTo LedDefinitions (group ++ t :: ts) n := by
    rwa [List.append_assoc, List.singleton_append] at leads
  fun_induction columnList statement source depth group ts generalizing columns with
  | case1 => cases read
  | case2 depth group t ts opens ih =>
    have next : depthBehind 0 (group ++ [t]) = some (depth + 1) := by
      rw [grown open_]
      simp [depthBehind, opens]
    exact fun column member => later (ih next read column member)
  | case3 group t ts =>
    simp only [bind_eq_ok_iff, pure, Except.pure, Except.ok.injEq, Prod.mk.injEq] at read
    obtain ⟨column, read, rfl, -⟩ := read
    rw [List.forall_mem_singleton]
    exact leadsTo_of_columnOf read _
  | case4 group t ts opens closes depth ih =>
    have next : depthBehind 0 (group ++ [t]) = some depth := by
      rw [grown open_]
      simp [depthBehind, closes]
    exact fun column member => later (ih next read column member)
  | case5 depth group t ts opens closes comma ih =>
    obtain ⟨comma, rfl⟩ := comma
    simp only [bind_eq_ok_iff, Prod.exists, pure, Except.pure, Except.ok.injEq, Prod.mk.injEq] at read
    obtain ⟨column, read, others, _, readMore, rfl, rfl⟩ := read
    rw [List.forall_mem_cons]
    refine ⟨leadsTo_of_columnOf read _, fun other member => later ?_⟩
    refine (ih rfl readMore other member).append (group ++ [t]) fun before led => ?_
    rw [List.append_assoc]
    exact .next open_ (by simp [comma]) led
  | case6 depth group t ts opens closes comma ih =>
    have next : depthBehind 0 (group ++ [t]) = some depth := by
      rw [grown open_]
      simp [depthBehind, opens, closes, comma]
    exact fun column member => later (ih next read column member)

private theorem leadsTo_of_createTable {object : Token} {c : Command}
    (word : object.isKeyword "TABLE" = true) (read : createTable source ts = .ok c) :
    ∀ n ∈ c.names, LeadsTo (WantsName .create) (object :: ts) n := by
  unfold createTable at read
  simp only [bind_eq_ok_iff, labelled_eq_ok_iff, name_eq_ok_iff, symbol_eq_ok_iff, Prod.exists, pure,
    Except.pure, Except.ok.injEq] at read
  obtain ⟨table, _, ⟨t, rfl, spells⟩, ts, ⟨opens, rfl, opened⟩, columns, rest, read, -, -, rfl⟩ := read
  rw [Command.names, List.forall_mem_cons]
  refine ⟨⟨[object], t, _, rfl, .created (.inr word), spells⟩, ?_⟩
  rw [Command.columnNames, List.forall_mem_map]
  intro column member
  exact (leadsTo_of_columnList rfl read column member).append [object, t, opens] fun before led =>
    .defined t word opened led

private theorem leadsTo_of_derives {verb : Verb} {c : Command} (derived : Derives source verb ts c) :
    ∀ n ∈ c.names, LeadsTo (WantsName verb) ts n := by
  cases derived with
  | createDatabase word spells =>
    exact List.forall_mem_singleton.mpr ⟨[_], _, _, rfl, .created (.inl word), spells⟩
  | use spells => exact List.forall_mem_singleton.mpr ⟨[], _, _, rfl, .used, spells⟩
  | insert intoWord spells opened list closed =>
    refine List.forall_mem_cons.mpr ⟨⟨[_], _, _, rfl, .filled intoWord, spells⟩, fun n member => ?_⟩
    exact ((leadsTo_of_isNames list n member).before _).append [_, _, _] fun before led =>
      .listed _ intoWord opened led
  | @select from_ t selected tail table columns filter selection word spells ended =>
    have shape := isSelectionRun_of_isSelection selection
    refine List.forall_mem_cons.mpr ⟨⟨selected ++ [from_], t, tail, by simp, .selectedFrom shape word,
      spells⟩, List.forall_mem_append.mpr ⟨fun n member => ?_, fun n member => ?_⟩⟩
    · cases selection with
      | star | nothing => cases member
      | names list starts apart =>
        exact ((leadsTo_of_isNames list n member).starts starts).before _ |>.append []
          fun before led => .selected led.1 led.2
    · cases ended with
      | all => cases member
      | @filtered where_ run rest _ whereWord tests ended =>
        have leads : LeadsTo (WantsName .select) (selected ++ [from_, t, where_] ++ (run ++ rest)) n :=
          ((leadsTo_of_isFilter tests n member).before rest).append _ fun before led => by
            simpa using WantsName.selectedWhere t shape word whereWord led
        simpa using leads
  | @update t set u sign where_ written tests rest table column v filter spells word spellsColumn
      equals assigned whereWord apart tested ended =>
    refine List.forall_mem_cons.mpr ⟨⟨[], _, _, rfl, .updated, spells⟩,
      List.forall_mem_cons.mpr ⟨⟨[_, _], _, _, rfl, .assigned _ word, spellsColumn⟩,
        fun n member => ?_⟩⟩
    have inside : ∀ w ∈ written, endsAssignedValue w = false := by
      intro w member
      simp [endsAssignedValue, assigned.free w member]
    have leads : LeadsTo (WantsName .update)
        (t :: set :: u :: sign :: (written ++ [where_]) ++ (tests ++ rest)) n :=
      ((leadsTo_of_isFilter tested n member).before rest).append _ fun before led => by
        simpa using WantsName.updatedWhere t u sign word inside whereWord led
    simpa using leads
  | delete word spells whereWord tested =>
    refine List.forall_mem_cons.mpr ⟨⟨[_], _, _, rfl, .deletedFrom word, spells⟩, fun n member => ?_⟩
    exact ((leadsTo_of_isFilter tested n member).before _).append [_, _, _] fun before led =>
      .deletedWhere _ word whereWord led
  | drop word spells => exact List.forall_mem_singleton.mpr ⟨[_], _, _, rfl, .dropped word, spells⟩

/-- The names of a command stand in its statement where the rules want names. -/
theorem leadsTo_of_read {verb : Verb} {c : Command} (read : verb.read source ts = .ok c) :
    ∀ n ∈ c.names, LeadsTo (WantsName verb) ts n := by
  rcases read_iff.mp read with derived | ⟨table, created⟩
  · exact leadsTo_of_derives derived
  · cases verb with
    | create =>
      obtain ⟨object, more, rfl, word⟩ := atKeyword_eq_true_iff.mp table
      exact leadsTo_of_createTable word created
    | _ => cases table

end Cellstore.Statement
