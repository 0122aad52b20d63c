import Cellstore.Proofs.Statement.Ends
import Cellstore.Proofs.Statement.NameSpelling
import Mathlib.Data.List.DropRight

/-! A semicolon behind a statement.
It ends the statement and is no part of it. Where an embedded command ends the statement, it makes
blanks count that would be trimmed without it. -/
namespace Cellstore

def Filter.lengthened (more : String) (filter : Filter) : Filter :=
  filter.modifyLast fun test => { test with value := test.value ++ more }

def Command.lengthened (more : String) : Command → Command
  | .select table columns filter => .select table columns (filter.lengthened more)
  | .update table column value filter => .update table column value (filter.lengthened more)
  | .delete table filter => .delete table (filter.lengthened more)
  | c => c

@[simp] theorem Filter.lengthened_nil (more : String) : Filter.lengthened more [] = [] := rfl

@[simp] theorem Filter.lengthened_concat (more : String) (filter : Filter) (test : Predicate) :
    Filter.lengthened more (filter ++ [test]) =
      filter ++ [{ test with value := test.value ++ more }] :=
  List.modifyLast_concat ..

theorem Filter.lengthened_empty (filter : Filter) : filter.lengthened "" = filter := by
  induction filter using List.reverseRecOn with
  | nil => rfl
  | append_singleton filter test => simp

theorem Command.lengthened_empty (c : Command) : c.lengthened "" = c := by
  cases c <;> simp [Command.lengthened, Filter.lengthened_empty]

namespace Statement
open Cellstore.Token (keywords stretched)

variable {source other : List Char} {lead front run ts rest : Tokens} {w t : Token} {k : Nat}
  {blanks : String}

/-! What is swallowed at the end. -/

/-- The string `t` stands behind a command word, and it reaches further in another text. -/
structure Reaches (source other : List Char) (k : Nat) (blanks : String) (lead : Tokens)
    (w t : Token) : Prop where
  command : w.kind = .command
  plain : ∀ word ∈ keywords, w.isKeyword word = false
  string : t.kind = .string
  same : SameCuts source other (lead ++ [w])
  longer : ∀ first ∈ lead ++ [w],
    Token.slice other first (stretched k t) = Token.slice source first t ++ blanks

theorem Reaches.behind (reaches : Reaches source other k blanks (front ++ lead) w t) :
    Reaches source other k blanks lead w t where
  command := reaches.command
  plain := reaches.plain
  string := reaches.string
  same := reaches.same.subset fun u member => by simp at member ⊢; tauto
  longer first member := reaches.longer first (by simp at member ⊢; tauto)

theorem exists_front (front : Tokens) (whole : lead ++ [w, t] = front ++ run)
    (long : 2 ≤ run.length) : ∃ inner, run = inner ++ [w, t] ∧ lead = front ++ inner := by
  rcases List.append_eq_append_iff.mp whole with ⟨inner, rfl, same⟩ | ⟨inner, rfl, same⟩
  · have sizes := congrArg List.length same
    simp only [List.length_append, List.length_cons, List.length_nil] at sizes
    obtain rfl : inner = [] := List.length_eq_zero_iff.mp (by omega)
    exact ⟨[], same.symm, by simp⟩
  · exact ⟨inner, same, rfl⟩

theorem writesValue_lengthened {v : String} (writes : WritesValue source (lead ++ [w, t]) v)
    (longer : ∀ first ∈ lead ++ [w],
      Token.slice other first (stretched k t) = Token.slice source first t ++ blanks) :
    WritesValue other (lead ++ [w, stretched k t]) (v ++ blanks) := by
  generalize whole : lead ++ [w, t] = run at writes
  cases writes with
  | quoted alone =>
    have sizes := congrArg List.length whole
    simp at sizes
  | @verbatim _ first last starts stops plain =>
    subst whole
    obtain rfl : t = last := by simpa [List.getLast?_append] using stops
    have head : (lead ++ [w, stretched k t]).head? = some first ∧ first ∈ lead ++ [w] := by
      cases lead <;> simp_all
    rw [← longer first head.2]
    refine .verbatim head.1 (by simp [List.getLast?_append]) fun single => ?_
    have sizes := congrArg List.length single
    simp at sizes

theorem isTest_lengthened {p : Predicate} (test : IsTest source (lead ++ [w, t]) p)
    (reaches : Reaches source other k blanks lead w t) :
    IsTest other (lead ++ [w, stretched k t]) { p with value := p.value ++ blanks } := by
  generalize whole : lead ++ [w, t] = run at test
  cases test with
  | @equality u sign run column v spells equals value =>
    have long : 2 ≤ run.length := by
      by_contra short
      have filled := List.length_pos_iff.mpr value.writes.ne_nil
      obtain ⟨x, rfl⟩ := List.length_eq_one_iff.mp (by omega : run.length = 1)
      have whole : lead ++ [w, t] = [u] ++ [sign, x] := whole
      obtain ⟨-, same⟩ := List.append_inj' whole rfl
      obtain rfl : w = sign := (List.cons.inj same).1
      rw [reaches.command] at equals
      cases equals
    obtain ⟨inner, rfl, rfl⟩ := exists_front [u, sign] whole long
    have writes := writesValue_lengthened value.writes reaches.behind.longer
    refine .equality spells equals ⟨writes, fun x member => ?_⟩
    have member : x ∈ inner ++ [w, stretched k t] := member
    simp only [List.mem_append, List.mem_cons, List.not_mem_nil, or_false] at member
    rcases member with here | rfl | rfl
    · exact value.free x (by simp [here])
    · exact value.free x (by simp)
    · exact value.free t (by simp)

theorem two_le_length_of_isFilter {filter : Filter} (tests : IsFilter source run filter) :
    2 ≤ run.length := by
  have each {run : Tokens} {p : Predicate} (test : IsTest source run p) : 2 ≤ run.length := by
    cases test
    simp
  cases tests with
  | last item => exact each item
  | more item =>
    rw [List.length_append]
    exact Nat.le_add_right_of_le (each item)

theorem isFilter_lengthened {filter : Filter} (tests : IsFilter source (lead ++ [w, t]) filter)
    (reaches : Reaches source other k blanks lead w t) :
    IsFilter other (lead ++ [w, stretched k t]) (filter.lengthened blanks) := by
  generalize whole : lead ++ [w, t] = run at tests
  induction tests generalizing lead with
  | last item =>
    subst whole
    exact .last (isTest_lengthened item reaches)
  | @more run rest x a as item mark others ih =>
    have parts : lead ++ [w, t] = run ++ [x] ++ rest := by rw [whole, List.append_cons]
    obtain ⟨inner, rfl, rfl⟩ := exists_front _ parts (two_le_length_of_isFilter others)
    have same : SameCuts source other run := reaches.same.subset fun u member => by simp [member]
    have more := Listed.more (isTest_of_sameCuts item same) mark (ih reaches.behind rfl)
    have last : Filter.lengthened blanks (a :: as) = a :: Filter.lengthened blanks as :=
      List.modifyLast_append_of_right_ne_nil _ [a] as others.ne_nil
    rw [last]
    simpa using more

section
variable {goesOn : Token → Bool} {u v : Token}

private theorem getLast?_two : (lead ++ [w, t]).getLast? = some t := by
  simp [List.getLast?_append]

theorem Reaches.eq_nil (reaches : Reaches source other k blanks lead w t) (front : Tokens)
    (whole : lead ++ [w, t] = front ++ rest) (ended : IsEnd goesOn rest) : rest = [] := by
  cases ended with
  | nothing => rfl
  | @semicolon u mark =>
    have last : t = u := by simpa [List.getLast?_append] using congrArg List.getLast? whole
    rw [← last, reaches.string] at mark
    cases mark

theorem Reaches.not_named (reaches : Reaches source other k blanks lead w t) (front : Tokens)
    (whole : lead ++ [w, t] = front ++ u :: v :: rest) (ended : IsEnd goesOn rest) {word : String}
    (is : u.isKeyword word = true) (member : word ∈ keywords) : False := by
  have parts : lead ++ [w, t] = front ++ [u, v] ++ rest := by simp [whole]
  obtain rfl := reaches.eq_nil _ parts ended
  obtain ⟨-, same⟩ := List.append_inj' whole rfl
  obtain rfl : w = u := (List.cons.inj same).1
  rw [reaches.plain word member] at is
  cases is

theorem Reaches.not_closed (reaches : Reaches source other k blanks lead w t) (front : Tokens)
    (whole : lead ++ [w, t] = front ++ u :: rest) (ended : IsEnd goesOn rest)
    (closed : u.kind = .rightParen) : False := by
  have parts : lead ++ [w, t] = front ++ [u] ++ rest := by simp [whole]
  obtain rfl := reaches.eq_nil _ parts ended
  have last : t = u := by simpa [List.getLast?_append] using congrArg List.getLast? whole
  rw [← last, reaches.string] at closed
  cases closed

theorem Reaches.exists_filter {filter : Filter}
    (reaches : Reaches source other k blanks lead w t) (front : Tokens)
    (whole : lead ++ [w, t] = front ++ run ++ rest) (tests : IsFilter source run filter)
    (ended : IsEnd goesOn rest) :
    ∃ inner, lead = front ++ inner ∧ run = inner ++ [w, t] ∧ rest = [] ∧
      IsFilter other (inner ++ [w, stretched k t]) (filter.lengthened blanks) := by
  obtain rfl := reaches.eq_nil _ whole ended
  rw [List.append_nil] at whole
  obtain ⟨inner, rfl, rfl⟩ := exists_front front whole (two_le_length_of_isFilter tests)
  exact ⟨inner, rfl, rfl, rfl, isFilter_lengthened tests reaches.behind⟩

end

theorem derives_lengthened {verb : Verb} {c : Command}
    (derived : Derives source verb (lead ++ [w, t]) c) (reaches : Reaches source other k blanks lead w t) :
    Derives other verb (lead ++ [w, stretched k t]) (c.lengthened blanks) := by
  generalize whole : lead ++ [w, t] = ts at derived
  -- Only a filter can end with what a command word swallowed.
  cases derived with
  | createDatabase word spells ended =>
    exact (reaches.not_named [] whole ended word (by decide)).elim
  | @use u _ _ spells ended =>
    obtain rfl := reaches.eq_nil [u] whole ended
    have sizes := congrArg List.length whole
    simp at sizes
  | @insert into u opens closes word opensValues closesValues names written rest _ _ _ _ _ _ _ _ _ _ _
      closedValues ended =>
    have parts : lead ++ [w, t] = into :: u :: opens ::
      (names ++ closes :: word :: opensValues :: written) ++ closesValues :: rest := by simp [whole]
    exact (reaches.not_closed _ parts ended closedValues).elim
  | @select from_ u selected _ _ _ _ selection word spells ended =>
    cases ended with
    | all ended => exact (reaches.not_named selected whole ended word (by decide)).elim
    | @filtered where_ run rest _ whereWord tests ended =>
      have parts : lead ++ [w, t] = selected ++ [from_, u, where_] ++ run ++ rest := by simp [whole]
      obtain ⟨inner, rfl, rfl, rfl, tests⟩ := reaches.exists_filter _ parts tests ended
      have longer := Derives.select selection word spells (.filtered whereWord tests .nothing)
      simpa [Command.lengthened] using longer
  | @update u set x sign where_ written tests rest _ _ _ _ spells word spellsColumn equals assigned whereWord
      apart tested ended =>
    have parts : lead ++ [w, t] = u :: set :: x :: sign :: (written ++ [where_]) ++ tests ++ rest := by
      simp [whole]
    obtain ⟨inner, rfl, rfl, rfl, tested⟩ := reaches.exists_filter _ parts tested ended
    have assigns := assigned.writes.of_sameCuts (reaches.same.subset fun y member => by simp [member])
    have longer := Derives.update spells word spellsColumn equals ⟨assigns, assigned.free⟩ whereWord apart
      tested .nothing
    simpa [Command.lengthened] using longer
  | @delete from_ u where_ tests rest _ _ word spells whereWord tested ended =>
    have parts : lead ++ [w, t] = [from_, u, where_] ++ tests ++ rest := by simp [whole]
    obtain ⟨inner, rfl, rfl, rfl, tested⟩ := reaches.exists_filter _ parts tested ended
    have longer := Derives.delete word spells whereWord tested .nothing
    simpa [Command.lengthened] using longer
  | drop word spells ended => exact (reaches.not_named [] whole ended word (by decide)).elim

theorem read_lengthened {verb : Verb} {c : Command}
    (read : verb.read source (lead ++ [w, t]) = .ok c) (reaches : Reaches source other k blanks lead w t) :
    verb.read other (lead ++ [w, stretched k t]) = .ok (c.lengthened blanks) := by
  rcases read_iff.mp read with derived | ⟨table, created⟩
  · exact read_iff.mpr (.inl (derives_lengthened derived reaches))
  · cases verb with
    | create =>
      obtain ⟨object, more, whole, word⟩ := atKeyword_eq_true_iff.mp table
      rw [whole, List.tail_cons] at created
      obtain ⟨_, _, _, shape, -, -⟩ := createTable_eq_ok_iff.mp created
      cases shape with
      | @table u opens closes body _ _ _ spells opened balanced closed split ended =>
        have parts : lead ++ [w, t] = object :: u :: opens :: body ++ closes :: _ := whole
        exact (reaches.not_closed _ parts ended closed).elim
    | _ => cases table

/-! Semicolons behind the last token. -/

theorem Stops.append {Reads : Tokens → Prop} (stops : Stops Reads ts)
    (apart : ∀ u ∈ ts.getLast?, u.kind ≠ .semicolon) (is : IsSemicolon t) : Reads (ts ++ [t]) := by
  cases stops with
  | @behind front rest last solid ended reads =>
    cases ended with
    | nothing => simpa using reads t is
    | @semicolon u mark => exact absurd mark (apart u (by simp [List.getLast?_append]))

theorem Stops.not_twice {Reads : Tokens → Prop} {u : Token} (stops : Stops Reads (ts ++ [t, u]))
    (first : IsSemicolon t) (second : IsSemicolon u) : False := by
  generalize whole : ts ++ [t, u] = run at stops
  cases stops with
  | @behind front rest last solid ended reads =>
    cases ended with
    | nothing =>
      have same : u = last := by simpa [List.getLast?_append] using congrArg List.getLast? whole
      exact solid (same ▸ second)
    | @semicolon v mark =>
      obtain ⟨-, same⟩ := List.append_inj' whole rfl
      obtain ⟨rfl, -⟩ := List.cons.inj same
      exact solid first

/-! Whole texts. -/

section
variable {tail more : List Char}

theorem isSemicolon_at (place : Nat) : IsSemicolon (Token.semicolonAt place) := ⟨rfl, rfl⟩

/-- The first word does not take in blanks, and semicolons are cut from it. -/
theorem leadingWord_behind (gap : Token.Blanks tail) (semicolons : ∀ c ∈ more, c = ';') :
    leadingWord (source ++ (tail ++ more)) = leadingWord source := by
  have cut : ∃ back, Text.firstWord (source ++ (tail ++ more)) = Text.firstWord source ++ back ∧
      ∀ c ∈ back, (c == ';') = true := by
    unfold Text.firstWord
    rw [List.takeWhile_append]
    split_ifs with whole
    · refine ⟨_, congrArg (· ++ _) ((List.takeWhile_prefix _).eq_of_length whole).symm, ?_⟩
      intro c member
      have solid := List.mem_takeWhile_imp member
      rcases List.mem_append.mp (List.takeWhile_subset _ member) with blank | behind
      · simp [gap c blank] at solid
      · simp [semicolons c behind]
    · exact ⟨[], by simp, by simp⟩
  obtain ⟨back, same, all⟩ := cut
  rw [leadingWord, same, Token.dropRightWhile_append_of_all all, leadingWord]

theorem rtakeWhile_of_solid {margin : List Char} (solid : Token.Solid source)
    (gap : Token.Blanks tail) : (margin ++ (source ++ tail)).rtakeWhile Text.isBlank = tail := by
  obtain ⟨-, c, last, stays⟩ := solid
  have back : ∀ d ∈ tail.reverse, Text.isBlank d = true :=
    fun d member => gap d (List.mem_reverse.mp member)
  obtain ⟨front, rfl⟩ := List.getLast?_eq_some_iff.mp last
  simp [List.rtakeWhile, List.takeWhile_append_of_pos back, stays]

theorem slice_stretched {first : Token} (start : first.start ≤ source.length)
    (stop : t.stop = source.length) (tail more : List Char) :
    Token.slice (source ++ (tail ++ more)) first (stretched tail.length t) =
      Token.slice source first t ++ String.ofList tail := by
  have size : source.length + tail.length - first.start =
      (source.drop first.start ++ tail).length := by
    rw [List.length_append, List.length_drop]
    omega
  have whole : (source.drop first.start).take (source.length - first.start) =
      source.drop first.start := List.take_of_length_le (by rw [List.length_drop])
  rw [Token.slice, Token.slice, stretched, stop, whole, List.drop_append_of_le_length start,
    ← List.append_assoc, size, List.take_left, String.ofList_append]

end

section
variable {verb : Verb} {v : Token} {c : Command} {tail : List Char}

/-- The command of a statement with these tokens when blanks and a semicolon stand behind it. -/
def commandBehind (blanks : List Char) (tokens : Tokens) (c : Command) : Command :=
  if Token.endsSwallowed none tokens then c.lengthened (String.ofList blanks) else c

theorem read_behind (word : leadingWord source = verb.word)
    (tokens : Token.tokenize source = .ok (v :: ts)) (read : verb.read source ts = .ok c)
    (tail more : List Char) :
    ∃ us, Token.widened tail.length none (v :: ts) = v :: us ∧
      verb.read (source ++ (tail ++ more)) us = .ok (commandBehind tail (v :: ts) c) ∧
      ∀ t ∈ us.getLast?, ∃ u ∈ ts.getLast?, t.kind = u.kind := by
  unfold commandBehind
  obtain ⟨inside, reaches⟩ := (Token.scans_of_scan tokens).stopsAt
  rw [Nat.zero_add] at inside reaches
  -- Either the tail is outside every token, or the last one grows by it.
  cases swallowed : Token.endsSwallowed none (v :: ts) with
  | false =>
    refine ⟨ts, by rw [Token.widened, swallowed]; rfl, ?_, fun t last => ⟨t, last, rfl⟩⟩
    refine read_of_sameCuts read (sameCuts_append (fun t member => ?_) _)
    exact (inside t (List.mem_cons_of_mem v member)).2
  | true =>
    obtain ⟨lead, w, t, whole, command, string, stretches⟩ :=
      Token.exists_command_of_endsSwallowed swallowed tail.length
    cases lead with
    | nil =>
      obtain ⟨rfl, -⟩ := List.cons.inj whole
      exact absurd command (verb_ne_command word tokens)
    | cons _ lead =>
      rw [List.cons_append] at whole stretches
      obtain ⟨rfl, rfl⟩ := List.cons.inj whole
      have stop : t.stop = source.length := by
        obtain ⟨u, last, stop⟩ := reaches swallowed
        rw [← List.cons_append, getLast?_two] at last
        cases last
        exact stop
      have starts (first : Token) (member : first ∈ lead ++ [w]) : first.start ≤ source.length := by
        obtain ⟨before, behind⟩ := inside first (by simp at member ⊢; tauto)
        exact before.trans behind
      have plain : ∀ k ∈ keywords, w.isKeyword k = false :=
        not_isKeyword_of_command tokens (by simp) command
      refine ⟨lead ++ [w, stretched tail.length t], stretches, ?_, ?_⟩
      · refine read_lengthened read ⟨command, plain, string, ?_, fun first member => ?_⟩
        · exact sameCuts_append (fun u member => (inside u (by simp at member ⊢; tauto)).2) _
        · exact slice_stretched (starts first member) stop tail more
      · rw [getLast?_two, getLast?_two]
        rintro _ ⟨⟩
        exact ⟨t, rfl, rfl⟩

end

/-- The text of a command: its margins, its verb and the tokens that are read behind it. -/
structure StatementText (text : String) (margin source tail : List Char) (verb : Verb) (v : Token)
    (ts : Tokens) (c : Command) : Prop where
  shape : text.toList = margin ++ (source ++ tail)
  margin : Token.Blanks margin
  solid : Token.Solid source
  tail : Token.Blanks tail
  word : leadingWord source = verb.word
  tokens : Token.tokenize source = .ok (v :: ts)
  read : verb.read source ts = .ok c

theorem exists_text_of_parse {text : String} {c : Command} (read : parse text = .ok c)
    (tokens : Token.tokenize (Text.trim text.toList) = .ok ts) :
    ∃ margin verb v us, ts = v :: us ∧
      StatementText text margin (Text.trim text.toList) (text.toList.rtakeWhile Text.isBlank) verb v us
        c := by
  obtain ⟨verb, v, us, word, same, read⟩ := exists_verb_of_parse read
  rw [tokens] at same
  cases same
  have filled : Text.trim text.toList ≠ [] := by
    intro none
    rw [none, Token.tokenize, Token.scan] at tokens
    cases tokens
  obtain ⟨margin, tail, shape, blank, gap, solid⟩ := Token.exists_margins filled
  have blanks : text.toList.rtakeWhile Text.isBlank = tail := by
    rw [shape]
    exact rtakeWhile_of_solid solid gap
  rw [blanks]
  exact ⟨margin, verb, v, us, rfl, shape, blank, solid, gap, word, tokens, read⟩

namespace StatementText

variable {text : String} {margin tail : List Char} {verb : Verb} {v : Token} {c : Command}

/-- With semicolons behind a text, its verb and its tokens are read as before. -/
theorem exists_tokens_behind (written : StatementText text margin source tail verb v ts c)
    {marks : String} {more : List Char} {semicolons : Tokens} (shape : marks.toList = ';' :: more)
    (plain : ∀ d ∈ ';' :: more, d = ';')
    (behind : Token.scan (some .semicolon) ((source ++ tail).length + 1) more = .ok semicolons) :
    ∃ us, leadingWord (Text.trim (text ++ marks).toList) = verb.word ∧
      Token.tokenize (Text.trim (text ++ marks).toList) =
        .ok (v :: (us ++ Token.semicolonAt (source ++ tail).length :: semicolons)) ∧
      verb.read (Text.trim (text ++ marks).toList) us = .ok (commandBehind tail (v :: ts) c) ∧
      ∀ t ∈ us.getLast?, ∃ u ∈ ts.getLast?, t.kind = u.kind := by
  have ends : Token.Solid (';' :: more) := by
    have filled : ';' :: more ≠ [] := List.cons_ne_nil _ _
    refine ⟨⟨';', rfl, by decide⟩, _, List.getLast?_eq_some_getLast filled, ?_⟩
    rw [plain _ (List.getLast_mem filled)]
    decide
  have trimmed : Text.trim (text ++ marks).toList = source ++ (tail ++ ';' :: more) := by
    have whole : (text ++ marks).toList = margin ++ (source ++ tail ++ ';' :: more ++ []) := by
      rw [String.toList_append, written.shape, shape]
      simp
    rw [whole, Token.trim_of_solid (written.solid.append ends tail) written.margin
      (by simp [Token.Blanks]), List.append_assoc]
  obtain ⟨us, widened, reads, last⟩ :=
    read_behind written.word written.tokens written.read tail (';' :: more)
  rw [trimmed]
  refine ⟨us, ?_, ?_, reads, last⟩
  · rw [leadingWord_behind written.tail plain, written.word]
  · rw [Token.tokenize_append written.tokens written.tail behind, widened]
    rfl

theorem parse_semicolon (written : StatementText text margin source tail verb v ts c)
    (apart : ∀ t ∈ (v :: ts).getLast?, t.kind ≠ .semicolon) :
    parse (text ++ ";") = .ok (commandBehind tail (v :: ts) c) := by
  have behind : Token.scan (some .semicolon) ((source ++ tail).length + 1) [] = .ok [] := by
    rw [Token.scan]
  have marks : ";".toList = [';'] := rfl
  obtain ⟨us, word, tokens, reads, last⟩ := written.exists_tokens_behind marks (by simp) behind
  rw [parse_eq_read word tokens]
  refine (stops_of_read reads).append (fun t final => ?_) (isSemicolon_at _)
  obtain ⟨u, before, kind⟩ := last t final
  have whole : u ∈ ([v] ++ ts).getLast? := List.mem_getLast?_append_of_mem_getLast? before
  rw [kind]
  exact apart u whole

theorem two_semicolons_refused (written : StatementText text margin source tail verb v ts c) :
    ∃ fault, parse (text ++ ";;") = .error fault ∧
      (Failure.statement fault).kind = .querySyntax := by
  have marks : ";;".toList = [';', ';'] := rfl
  obtain ⟨us, word, tokens, reads, -⟩ :=
    written.exists_tokens_behind marks (by simp) (Token.scan_semicolon ..)
  rcases parse_ok_or_malformed word tokens with ⟨c', twice⟩ | ⟨fault, refused, malformed⟩
  · rw [parse_eq_read word tokens] at twice
    exact ((stops_of_read twice).not_twice (isSemicolon_at _) (isSemicolon_at _)).elim
  · refine ⟨fault, refused, ?_⟩
    cases fault with
    | malformed => rfl
    | _ => exact malformed.elim

end StatementText

/-- A semicolon behind a statement ends it and changes nothing, unless what a command word swallows
comes last with blanks behind it. Then the blanks count, which are trimmed without the semicolon.
Two semicolons are refused. -/
theorem semicolon_ends_statement {text : String} {c : Command} {ts : Tokens}
    (read : parse text = .ok c) (tokens : Token.tokenize (Text.trim text.toList) = .ok ts)
    (apart : ∀ t ∈ ts.getLast?, t.kind ≠ .semicolon) :
    (Token.endsSwallowed none ts = false ∨ text.toList.rtakeWhile Text.isBlank = [] →
      parse (text ++ ";") = .ok c) ∧
    (Token.endsSwallowed none ts = true →
      parse (text ++ ";") =
        .ok (c.lengthened (String.ofList (text.toList.rtakeWhile Text.isBlank)))) ∧
    ∃ fault, parse (text ++ ";;") = .error fault ∧ (Failure.statement fault).kind = .querySyntax := by
  obtain ⟨margin, verb, v, us, rfl, written⟩ := exists_text_of_parse read tokens
  have once := written.parse_semicolon apart
  refine ⟨fun plain => ?_, fun swallowed => ?_, written.two_semicolons_refused⟩
  · rw [once, commandBehind]
    split_ifs with swallowed
    · rcases plain with none | bare
      · rw [swallowed] at none
        cases none
      · rw [bare]
        exact congrArg Except.ok (c.lengthened_empty)
    · rfl
  · rw [once, commandBehind, if_pos swallowed]

/-- Doubled quotes and keywords of several words at the end change nothing. -/
theorem semicolon_ends_statement_quoted :
    let text := "SELECT * FROM t WHERE a = 'it''s; ' AND b = order  by\n "
    let c : Command := .select "t" [] [⟨"a", "it's; "⟩, ⟨"b", "order  by"⟩]
    parse text = .ok c ∧ parse (text ++ ";") = .ok c ∧
      ∃ fault, parse (text ++ ";;") = .error fault ∧
        (Failure.statement fault).kind = .querySyntax := by
  intro text c
  have read : parse text = .ok c := by decide +kernel
  have apart : (Token.tokenize (Text.trim text.toList)).toOption.any (fun ts =>
      ts.getLast?.all (·.kind != .semicolon) && !Token.endsSwallowed none ts) = true := by
    decide +kernel
  cases tokens : Token.tokenize (Text.trim text.toList) with
  | error unclosed => simp [tokens, Except.toOption] at apart
  | ok ts =>
    have ends : (∀ t ∈ ts.getLast?, t.kind ≠ .semicolon) ∧ Token.endsSwallowed none ts = false := by
      simpa [tokens, Except.toOption, Option.all_eq_true] using apart
    obtain ⟨plain, -, twice⟩ := semicolon_ends_statement read tokens ends.1
    exact ⟨read, plain (.inl ends.2), twice⟩

/-- Blanks behind an embedded command count if a semicolon follows them. -/
theorem semicolon_keeps_blanks :
    let text := "DELETE FROM t WHERE a = begin call b "
    parse text = .ok (.delete "t" [⟨"a", "begin call b"⟩]) ∧
      (Token.tokenize (Text.trim text.toList)).toOption.any (fun ts =>
        ts.getLast?.all (·.kind != .semicolon)) = true ∧
      parse (text ++ ";") = .ok (.delete "t" [⟨"a", "begin call b "⟩]) := by
  decide +kernel

end Statement
end Cellstore
