import Cellstore.Proofs.Statement.ColumnLists
import Cellstore.Proofs.Token.Semicolon

/-! How statements end.
Reading takes from the text only what is cut out between tokens, so the characters behind the last
token do not count. A statement ends with a name, a closing parenthesis or a compared value. No
semicolon is one of these, and one semicolon may follow. -/
namespace Cellstore.Statement
open Cellstore.Token (keywords stretched)

variable {source other : List Char} {run ts rest : Tokens}

/-! What is cut out of the text. -/

/-- Two texts with the same characters between any of these tokens. -/
def SameCuts (source other : List Char) (ts : Tokens) : Prop :=
  ∀ first ∈ ts, ∀ last ∈ ts, Token.slice source first last = Token.slice other first last

theorem SameCuts.subset (same : SameCuts source other ts) (subset : run ⊆ ts) :
    SameCuts source other run :=
  fun first starts last stops => same first (subset starts) last (subset stops)

theorem sameCuts_append (inside : ∀ t ∈ ts, t.stop ≤ source.length) (more : List Char) :
    SameCuts source (source ++ more) ts := by
  intro first _ last member
  have stop := inside last member
  have cut : ((source ++ more).drop first.start).take (last.stop - first.start) =
      (source.drop first.start).take (last.stop - first.start) := by
    by_cases start : first.start ≤ source.length
    · rw [List.drop_append_of_le_length start, List.take_append_of_le_length]
      rw [List.length_drop]
      omega
    · have none : last.stop - first.start = 0 := by omega
      rw [none, List.take_zero, List.take_zero]
  rw [Token.slice, Token.slice, cut]

theorem WritesValue.of_sameCuts {v : String} (writes : WritesValue source run v)
    (same : SameCuts source other run) : WritesValue other run v := by
  cases writes with
  | quoted alone => exact .quoted alone
  | verbatim starts stops plain =>
    rw [same _ (List.mem_of_mem_head? starts) _ (List.mem_of_getLast? stops)]
    exact .verbatim starts stops plain

theorem Listed.imp_of_subset {α : Type} {between : Token → Bool} {Item Other : Tokens → α → Prop}
    {as : List α} (listed : Listed between Item run as)
    (each : ∀ part ⊆ run, ∀ a, Item part a → Other part a) : Listed between Other run as := by
  induction listed with
  | last item => exact .last (each _ (List.Subset.refl _) _ item)
  | more item mark _ ih =>
    refine .more (each _ (List.subset_append_left ..) _ item) mark
      (ih fun part inside => each part ?_)
    exact fun t member => List.mem_append_right _ (List.mem_cons_of_mem _ (inside member))

theorem isTest_of_sameCuts {p : Predicate} (test : IsTest source run p)
    (same : SameCuts source other run) : IsTest other run p := by
  cases test with
  | equality spells equals value =>
    have inside := same.subset (List.subset_cons_of_subset _ (List.subset_cons_self ..))
    exact .equality spells equals ⟨value.writes.of_sameCuts inside, value.free⟩

theorem isFilter_of_sameCuts {filter : Filter} (tests : IsFilter source run filter)
    (same : SameCuts source other run) : IsFilter other run filter :=
  tests.imp_of_subset fun _ inside _ test => isTest_of_sameCuts test (same.subset inside)

theorem isValues_of_sameCuts {values : List String} (listed : IsValues source run values)
    (same : SameCuts source other run) : IsValues other run values :=
  listed.imp_of_subset fun _ inside _ value =>
    ⟨value.writes.of_sameCuts (same.subset inside), value.free⟩

theorem derives_of_sameCuts {verb : Verb} {c : Command} (derived : Derives source verb ts c)
    (same : SameCuts source other ts) : Derives other verb ts c := by
  cases derived with
  | createDatabase word spells ended => exact .createDatabase word spells ended
  | use spells ended => exact .use spells ended
  | insert intoWord spells opened list closed valuesWord openedValues listed closedValues ended
      sameLength distinct =>
    refine .insert intoWord spells opened list closed valuesWord openedValues
      (isValues_of_sameCuts listed (same.subset fun t member => ?_)) closedValues ended sameLength
      distinct
    simp [member]
  | select selection word spells ended =>
    refine .select selection word spells ?_
    cases ended with
    | all ended => exact .all ended
    | filtered whereWord tests ended =>
      refine .filtered whereWord (isFilter_of_sameCuts tests (same.subset fun t member => ?_)) ended
      simp [member]
  | update spells word spellsColumn equals assigned whereWord apart tested ended =>
    have written := assigned.writes.of_sameCuts (same.subset fun t member => by simp [member])
    have tests := isFilter_of_sameCuts tested (same.subset fun t member => by simp [member])
    exact .update spells word spellsColumn equals ⟨written, assigned.free⟩ whereWord apart tests ended
  | delete word spells whereWord tested ended =>
    refine .delete word spells whereWord
      (isFilter_of_sameCuts tested (same.subset fun t member => ?_)) ended
    simp [member]
  | drop word spells ended => exact .drop word spells ended

theorem defines_of_sameCuts {c : ColumnDefinition} (defines : Defines source run c)
    (same : SameCuts source other run) : Defines other run c := by
  cases defines with
  | named starts stops spells text =>
    rw [same _ (List.mem_of_mem_head? starts) _ (List.mem_of_getLast? stops)] at text
    exact .named starts stops spells text

theorem createTable_of_sameCuts {c : Command} (read : createTable source ts = .ok c)
    (same : SameCuts source other ts) : createTable other ts = .ok c := by
  obtain ⟨table, segments, columns, shape, related, rfl⟩ := createTable_eq_ok_iff.mp read
  refine createTable_eq_ok_iff.mpr ⟨table, segments, columns, shape, ?_, rfl⟩
  have inside : ∀ segment ∈ segments, segment ⊆ ts := by
    cases shape with
    | table _ _ _ _ split =>
      intro segment member t here
      simp [mem_of_splits split segment member t here]
  exact ((List.forall₂_and_left _ _).mpr ⟨inside, related⟩).imp fun segment c both =>
    defines_of_sameCuts both.2 (same.subset both.1)

theorem read_of_sameCuts {verb : Verb} {c : Command} (read : verb.read source ts = .ok c)
    (same : SameCuts source other ts) : verb.read other ts = .ok c := by
  rcases read_iff.mp read with derived | ⟨table, created⟩
  · exact read_iff.mpr (.inl (derives_of_sameCuts derived same))
  · have longer := createTable_of_sameCuts created (same.subset (List.tail_subset ts))
    exact read_iff.mpr (.inr ⟨table, longer⟩)

/-! The last token. -/

/-- A token as a semicolon in the text gives it. -/
structure IsSemicolon (t : Token) : Prop where
  kind : t.kind = .semicolon
  text : t.text = ";"

section
variable {t : Token}

theorem IsSemicolon.name? (is : IsSemicolon t) : t.name? = none := by
  rw [Token.name?, is.kind, is.text]
  rfl

private theorem semicolon_ne_keyword : ∀ w ∈ keywords, (Text.upperText ";" == w) = false := by
  decide

theorem IsSemicolon.ends (is : IsSemicolon t) {w : String} (member : w ∈ keywords) :
    IsEnd (·.isKeyword w) [t] := by
  refine .semicolon is.kind ?_
  rw [Token.isKeyword, is.text, semicolon_ne_keyword w member, Bool.and_false]

theorem IsSemicolon.ends_always (is : IsSemicolon t) : IsEnd (fun _ => false) [t] :=
  .semicolon is.kind rfl

theorem IsEnd.always {goesOn : Token → Bool} (ended : IsEnd goesOn rest) :
    IsEnd (fun _ => false) rest := by
  cases ended with
  | nothing => exact .nothing
  | semicolon mark => exact .semicolon mark rfl

/-- Some token that is no semicolon comes last, and at most one semicolon behind it. With any
semicolon behind that token, `Reads` holds. -/
inductive Stops (Reads : Tokens → Prop) : Tokens → Prop where
  | behind (front : Tokens) {rest : Tokens} {last : Token} (solid : ¬ IsSemicolon last)
      (ended : IsEnd (fun _ => false) rest)
      (reads : ∀ t, IsSemicolon t → Reads (front ++ [last, t])) :
      Stops Reads (front ++ last :: rest)

theorem Stops.of_eq {Reads : Tokens → Prop} (stops : Stops Reads ts) (same : ts = run) :
    Stops Reads run := same ▸ stops

theorem not_isSemicolon_of_name {n : String} (spells : t.name? = some n) : ¬ IsSemicolon t := by
  intro is
  rw [is.name?] at spells
  cases spells

theorem not_isSemicolon_of_kind (other : t.kind ≠ .semicolon) : ¬ IsSemicolon t :=
  fun is => other is.kind

theorem not_isSemicolon_of_closes (closed : t.kind = .rightParen) : ¬ IsSemicolon t :=
  not_isSemicolon_of_kind (by simp [closed])

theorem WritesValue.ne_nil {v : String} (writes : WritesValue source run v) : run ≠ [] := by
  rintro rfl
  exact not_writesValue_nil writes

theorem exists_last_of_isFilter {filter : Filter} (tests : IsFilter source run filter) :
    ∃ front last, run = front ++ [last] ∧ last.kind ≠ .semicolon := by
  induction tests with
  | last item =>
    cases item with
    | @equality t sign run column v spells equals value =>
      have filled := value.writes.ne_nil
      refine ⟨t :: sign :: run.dropLast, run.getLast filled, ?_, ?_⟩
      · simp [List.dropLast_append_getLast]
      · exact (value.free _ (List.getLast_mem filled)).1
  | @more run rest t a as item mark _ ih =>
    obtain ⟨front, last, rfl, solid⟩ := ih
    exact ⟨run ++ t :: front, last, by simp, solid⟩

theorem IsFilter.stops {filter : Filter} {Reads : Tokens → Prop}
    (tests : IsFilter source run filter) (front : Tokens) (ended : IsEnd (·.isKeyword "AND") rest)
    (reads : ∀ rest, IsEnd (·.isKeyword "AND") rest → Reads (front ++ (run ++ rest))) :
    Stops Reads (front ++ (run ++ rest)) := by
  obtain ⟨lead, last, rfl, solid⟩ := exists_last_of_isFilter tests
  have stops : Stops Reads (front ++ lead ++ last :: rest) := by
    refine .behind (front ++ lead) (not_isSemicolon_of_kind solid) ended.always fun t is => ?_
    simpa using reads [t] (is.ends (by decide))
  simpa using stops

theorem stops_of_derives {verb : Verb} {c : Command} (derived : Derives source verb ts c) :
    Stops (fun ts => Derives source verb ts c) ts := by
  cases derived with
  | @createDatabase object _ _ _ word spells ended =>
    exact .behind [object] (not_isSemicolon_of_name spells) ended fun u is =>
      .createDatabase word spells is.ends_always
  | use spells ended =>
    exact .behind [] (not_isSemicolon_of_name spells) ended fun u is => .use spells is.ends_always
  | @insert into t opens closes word opensValues _ names written _ _ _ _ intoWord spells opened list
      closed valuesWord openedValues listed closedValues ended sameLength distinct =>
    refine .of_eq (.behind (into :: t :: opens :: (names ++ closes :: word :: opensValues :: written))
      (not_isSemicolon_of_closes closedValues) ended fun u is => ?_) (by simp)
    have longer := Derives.insert intoWord spells opened list closed valuesWord openedValues listed
      closedValues is.ends_always sameLength distinct
    simpa using longer
  | @select from_ t selected _ _ _ _ selection word spells ended =>
    cases ended with
    | all ended =>
      refine .of_eq (.behind (selected ++ [from_]) (not_isSemicolon_of_name spells) ended.always
        fun u is => ?_) (by simp)
      have rest : IsTail source [u] [] := .all (is.ends (by decide))
      have longer := Derives.select selection word spells rest
      simpa using longer
    | @filtered where_ _ _ _ whereWord tests ended =>
      refine .of_eq (tests.stops (selected ++ [from_, t, where_]) ended fun rest ended => ?_)
        (by simp)
      have longer := Derives.select selection word spells (.filtered whereWord tests ended)
      simpa using longer
  | @update t set u sign where_ written _ _ _ _ _ _ spells word spellsColumn equals assigned whereWord
      apart tested ended =>
    refine .of_eq (tested.stops (t :: set :: u :: sign :: (written ++ [where_])) ended
      fun rest ended => ?_) (by simp)
    have longer := Derives.update spells word spellsColumn equals assigned whereWord apart tested ended
    simpa using longer
  | @delete from_ t where_ _ _ _ _ word spells whereWord tested ended =>
    refine tested.stops [from_, t, where_] ended fun rest ended => ?_
    have longer := Derives.delete word spells whereWord tested ended
    simpa using longer
  | @drop object _ _ _ word spells ended =>
    exact .behind [object] (not_isSemicolon_of_name spells) ended fun u is =>
      .drop word spells is.ends_always

theorem stops_of_createTable {object : Token} {c : Command} (word : object.isKeyword "TABLE" = true)
    (read : createTable source ts = .ok c) :
    Stops (fun ts => Verb.create.read source ts = .ok c) (object :: ts) := by
  obtain ⟨table, segments, columns, shape, related, rfl⟩ := createTable_eq_ok_iff.mp read
  cases shape with
  | @table t opens closes body _ _ _ spells opened balanced closed split ended =>
    refine .of_eq (.behind (object :: t :: opens :: body)
      (not_isSemicolon_of_closes closed) ended fun u is => ?_) (by simp)
    have longer := IsTable.table spells opened balanced closed split is.ends_always
    refine read_iff.mpr (.inr ⟨atKeyword_eq_true_iff.mpr ⟨object, _, rfl, word⟩, ?_⟩)
    exact createTable_eq_ok_iff.mpr ⟨table, segments, columns, by simpa using longer, related, rfl⟩

/-- A statement that is read ends with a token that is no semicolon, or with one semicolon behind it,
and it does not matter which. -/
theorem stops_of_read {verb : Verb} {c : Command} (read : verb.read source ts = .ok c) :
    Stops (fun ts => verb.read source ts = .ok c) ts := by
  rcases read_iff.mp read with derived | ⟨table, created⟩
  · cases stops_of_derives derived with
    | behind front solid ended reads =>
      exact .behind front solid ended fun t is => read_iff.mpr (.inl (reads t is))
  · cases verb with
    | create =>
      obtain ⟨object, more, rfl, word⟩ := atKeyword_eq_true_iff.mp table
      exact stops_of_createTable word created
    | _ => cases table

end

end Cellstore.Statement
