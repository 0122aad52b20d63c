import Cellstore.Proofs.Statement.NameLeads
import Cellstore.Proofs.Statement.Verb
import Cellstore.Proofs.Token.Writing

/-! How names are spelled.
Where a name is wanted stands a bare word or a text between double quotes. A text between single
quotes is taken for a name as well, if it has the shape of a plain name. -/
namespace Cellstore.Statement
open Cellstore.Text (isBlank upper upperText)
open Cellstore.Token (commandWords keywords)

variable {source : List Char} {verb : Verb}

/-! The token of the verb. -/

theorem leadingWord_append {front : List Char} (solid : ∀ c ∈ front, isBlank c = false)
    (last : ∃ c ∈ front.getLast?, (c == ';') = false) (back : List Char) :
    ∃ tail, (leadingWord (front ++ back)).toList = upper front ++ tail := by
  have goes : ∀ c ∈ front, (!isBlank c) = true := by
    intro c member
    simp [solid c member]
  have first : Text.firstWord (front ++ back) = front ++ Text.firstWord back :=
    List.takeWhile_append_of_pos goes
  rw [leadingWord, first, Token.dropRightWhile_append last, String.toList_ofList, Text.upper_append]
  exact ⟨_, rfl⟩

theorem head_lexeme {c : Char} {rest : List Char} {v : Token} {ts : Tokens}
    (tokens : Token.tokenize (c :: rest) = .ok (v :: ts)) :
    ∃ x, Token.Lexes none c rest x ∧ (x.token = none ∨ ∃ text, x.token = some (v.kind, text)) := by
  obtain ⟨x, added, _, _, more, read, adds, -, same⟩ := Token.scan_cons_ok tokens
  refine ⟨x, Token.lexes_of_lexeme read, ?_⟩
  cases adds with
  | nothing gap => exact .inl gap
  | token reads | command reads | embedded reads =>
    cases same
    exact .inr ⟨_, reads⟩

private theorem last_of_inWord {s : List Char} (filled : s ≠ [])
    (inside : ∀ c ∈ s, Token.inWord c = true) : ∃ c ∈ s.getLast?, (c == ';') = false := by
  refine ⟨s.getLast filled, List.getLast?_eq_some_getLast filled, ?_⟩
  rw [beq_eq_false_iff_ne]
  intro semicolon
  have last := inside _ (List.getLast_mem filled)
  rw [semicolon] at last
  exact absurd last (by decide)

private theorem not_leads_verb : ∀ verb : Verb, ¬ ['\x7b'] <+: verb.word.toList ∧
    ¬ ['/'] <+: verb.word.toList ∧ verb.word ≠ "" ∧
    ∀ w ∈ commandWords, ¬ w.toList <+: verb.word.toList := by
  intro verb
  cases verb <;> decide

theorem verb_ne_command {v : Token} {ts : Tokens} (word : leadingWord source = verb.word)
    (tokens : Token.tokenize source = .ok (v :: ts)) : v.kind ≠ .command := by
  obtain ⟨brace, slash, filled, apart⟩ := not_leads_verb verb
  have leads (front : List Char) {back : List Char} (split : source = front ++ back)
      (solid : ∀ c ∈ front, isBlank c = false) (last : ∃ c ∈ front.getLast?, (c == ';') = false) :
      upper front <+: verb.word.toList := by
    obtain ⟨tail, same⟩ := leadingWord_append solid last back
    rw [← word, split, same]
    exact List.prefix_append _ _
  intro command
  cases source with
  | nil =>
    rw [Token.tokenize, Token.scan] at tokens
    cases tokens
  | cons c rest =>
    obtain ⟨x, lexes, gap | ⟨text, reads⟩⟩ := head_lexeme tokens
    -- A gap before the first token would lead the first word, and no verb begins like one.
    · cases lexes with
      | blank blank =>
        have none : Text.firstWord (c :: rest) = [] := by simp [Text.firstWord, blank]
        rw [leadingWord, none] at word
        exact filled word.symm
      | template opens =>
        obtain rfl := Token.head_of_entry opens
        have solid : isBlank '\x7b' = false := by decide
        exact brace (leads ['\x7b'] rfl (by simpa using solid) (by simp))
      | comment opens =>
        obtain rfl := Token.head_of_entry opens
        have solid : isBlank '/' = false := by decide
        exact slash (leads ['/'] rfl (by simpa using solid) (by simp))
      | plain solid =>
        cases mark : Token.isMark c with
        | true => simp [Token.plainLexeme_of_isMark mark] at gap
        | false => simp [Token.plainLexeme_of_not_isMark mark] at gap
      | _ => cases gap
    · rw [command] at reads
      obtain ⟨shape, inside, member⟩ := Token.command_of_lexes lexes reads
      have split : c :: rest = text ++ rest.dropWhile Token.inWord := by
        rw [shape, List.cons_append, List.takeWhile_append_dropWhile]
      have whole := apart _ member
      rw [String.toList_ofList] at whole
      have solid : ∀ d ∈ text, isBlank d = false := by
        intro d here
        have both := inside d here
        simp only [Token.inWord, Bool.and_eq_true, Bool.not_eq_true'] at both
        exact both.1
      exact whole (leads text split solid (last_of_inWord (by simp [shape]) inside))

theorem not_isKeyword_of_command {u : Token} {ts : Tokens} (tokens : Token.tokenize source = .ok ts)
    (member : u ∈ ts) (command : u.kind = .command) : ∀ w ∈ keywords, u.isKeyword w = false := by
  intro w known
  have apart : ∀ w ∈ keywords, w ∉ commandWords := by decide
  have text : upperText u.text ∈ commandWords := Token.command_of_scan tokens u member command
  by_contra is
  simp only [Token.isKeyword, Bool.not_eq_false, Bool.and_eq_true, beq_iff_eq] at is
  exact apart w known (is.2 ▸ text)

/-! The tokens where names are wanted. -/

private theorem Led.last {between : Token → Bool} {Item : Tokens → Prop} {lead : Tokens}
    (led : Led between Item lead) (front : Tokens) :
    ∀ u ∈ (front ++ lead).getLast?, between u = true ∨ u ∈ front.getLast? := by
  induction led generalizing front with
  | first => exact fun u last => .inr (by simpa using last)
  | @next run lead t item mark more ih =>
    intro u last
    have same : front ++ (run ++ t :: lead) = front ++ run ++ [t] ++ lead := by simp
    rw [same] at last
    rcases ih (front ++ run ++ [t]) u last with goes | final
    · exact .inl goes
    · rw [List.getLast?_concat, Option.mem_some_iff] at final
      exact .inl (final ▸ mark)

/-- Names come after keywords, opening parentheses and commas. -/
def Introduces (u : Token) : Prop :=
  u.kind = .leftParen ∨ u.kind = .comma ∨ ∃ w ∈ keywords, u.isKeyword w = true

theorem WantsName.last {before : Tokens} (wants : WantsName verb before) :
    ∀ u ∈ before.getLast?, Introduces u := by
  have keyword {w : String} {t : Token} (word : t.isKeyword w = true) (known : w ∈ keywords) :
      ∀ u ∈ some t, Introduces u := by
    rintro u ⟨⟩
    exact .inr (.inr ⟨w, known, word⟩)
  have comma {u : Token} (goes : (u.kind == .comma) = true) : Introduces u :=
    .inr (.inl (by simpa using goes))
  have tested (front : Tokens) {lead : Tokens} {where_ : Token} (word : where_.isKeyword "WHERE" = true)
      (led : LedTests lead) : ∀ u ∈ (front ++ [where_] ++ lead).getLast?, Introduces u := by
    intro u last
    rcases led.last _ u last with goes | final
    · exact .inr (.inr ⟨"AND", by decide, goes⟩)
    · rw [List.getLast?_concat] at final
      exact keyword word (by decide) u final
  have inside (front : Tokens) {Item : Tokens → Prop} {lead : Tokens} {opens : Token}
      (opened : opens.kind = .leftParen) (led : Led (·.kind == .comma) Item lead) :
      ∀ u ∈ (front ++ [opens] ++ lead).getLast?, Introduces u := by
    intro u last
    rcases led.last _ u last with goes | final
    · exact comma goes
    · rw [List.getLast?_concat] at final
      cases final
      exact .inl opened
  cases wants with
  | created word =>
    rcases word with word | word
    · exact keyword word (by decide)
    · exact keyword word (by decide)
  | @defined object opens lead t word opened led => exact inside [object, t] opened led
  | used | updated => simp
  | dropped word | filled word | deletedFrom word | assigned t word => exact keyword word (by decide)
  | @listed into opens lead t word opened led => exact inside [into, t] opened led
  | selected led =>
    intro u last
    rcases led.last [] u last with goes | final
    · exact comma goes
    · cases final
  | selectedFrom shape word =>
    rw [List.getLast?_concat]
    exact keyword word (by decide)
  | @selectedWhere from_ where_ run lead t shape word whereWord led =>
    have same : run ++ from_ :: t :: where_ :: lead = run ++ [from_, t] ++ [where_] ++ lead := by simp
    rw [same]
    exact tested _ whereWord led
  | @updatedWhere set where_ run lead t v sign word free whereWord led =>
    have same : t :: set :: v :: sign :: (run ++ where_ :: lead) =
        t :: set :: v :: sign :: run ++ [where_] ++ lead := by simp
    rw [same]
    exact tested _ whereWord led
  | @deletedWhere from_ where_ lead t word whereWord led =>
    exact tested [from_, t] whereWord led

theorem spells_of_wantsName {v t : Token} {before after : Tokens} {n : String}
    (word : leadingWord source = verb.word)
    (tokens : Token.tokenize source = .ok (v :: (before ++ t :: after)))
    (wants : WantsName verb before) (named : t.name? = some n) : t.Spells source n := by
  refine Token.spells_of_stands ?_ named
  have split : v :: (before ++ t :: after) = (v :: before) ++ t :: after := rfl
  rcases Token.stands_of_scan List.drop_zero tokens split with stands | ⟨u, last, command⟩
  · exact stands
  -- Only a command word could come before a token that stands for swallowed text.
  exfalso
  have member : u ∈ v :: (before ++ t :: after) :=
    split ▸ List.mem_append_left _ (List.mem_of_getLast? last)
  cases none : before.getLast? with
  | none =>
    obtain rfl := List.getLast?_eq_none_iff.mp none
    cases last
    exact verb_ne_command word tokens command
  | some w =>
    obtain rfl : w = u := by
      rw [List.getLast?_cons, none] at last
      exact Option.some.inj last
    rcases wants.last w none with kind | kind | ⟨k, inside, is⟩
    · rw [command] at kind
      cases kind
    · rw [command] at kind
      cases kind
    · rw [not_isKeyword_of_command tokens member command k inside] at is
      cases is

theorem parse_ok_or_malformed {text : String} {v : Token} {ts : Tokens}
    (word : leadingWord (Text.trim text.toList) = verb.word)
    (tokens : Token.tokenize (Text.trim text.toList) = .ok (v :: ts)) :
    (∃ c, parse text = .ok c) ∨ ∃ fault, parse text = .error fault ∧ fault.IsMalformed := by
  have honest : ∀ t ∈ v :: ts, Honest t := Token.isColumnName_of_name? tokens
  rw [parse_eq_read word tokens]
  cases read : verb.read (Text.trim text.toList) ts with
  | ok c => exact .inl ⟨c, rfl⟩
  | error fault =>
    have others : ∀ t ∈ ts, Honest t := fun t member => honest t (List.mem_cons_of_mem v member)
    exact .inr ⟨fault, rfl, read_isMalformed others read⟩

/-! Names and strings. -/

/-- The names of a command are spelled by bare words, by texts between double quotes that can name
a column, or by texts between single quotes that have the shape of plain names, where the statement
wants names. A text between single quotes in such a place is refused if it has not this shape, and
otherwise it names what the statement is about. -/
theorem strings_name_only_plainly (text : String) :
    (∀ c, parse text = .ok c → ∃ verb v ts, leadingWord (Text.trim text.toList) = verb.word ∧
      Token.tokenize (Text.trim text.toList) = .ok (v :: ts) ∧
      ∀ n ∈ c.names, ∃ before t after, ts = before ++ t :: after ∧ WantsName verb before ∧
        t.Spells (Text.trim text.toList) n) ∧
    ∀ verb v before t after, leadingWord (Text.trim text.toList) = verb.word →
      Token.tokenize (Text.trim text.toList) = .ok (v :: (before ++ t :: after)) →
      WantsName verb before → t.kind = .string →
        (Token.isPlainName t.text.toList = false →
          ∃ fault, parse text = .error fault ∧ (Failure.statement fault).kind = .querySyntax) ∧
        ∀ c, parse text = .ok c → t.text ∈ c.names := by
  constructor
  · intro c read
    obtain ⟨verb, v, ts, word, tokens, read⟩ := exists_verb_of_parse read
    refine ⟨verb, v, ts, word, tokens, fun n member => ?_⟩
    obtain ⟨before, t, after, rfl, wants, named⟩ := leadsTo_of_read read n member
    exact ⟨before, t, after, rfl, wants, spells_of_wantsName word tokens wants named⟩
  · intro verb v before t after word tokens wants string
    have starts : StartsNames t := by simp [StartsNames, Token.isKeyword, Token.isQuoted, string]
    have named (c : Command) (read : parse text = .ok c) : Named t c := by
      rw [parse_eq_read word tokens] at read
      exact named_of_wantsName wants starts read
    constructor
    · intro shape
      rcases parse_ok_or_malformed word tokens with ⟨c, read⟩ | ⟨fault, refused, malformed⟩
      · obtain ⟨n, -, spells⟩ := named c read
        simp [Token.name?, string, shape] at spells
      · refine ⟨fault, refused, ?_⟩
        cases fault with
        | malformed => rfl
        | _ => exact malformed.elim
    · intro c read
      obtain ⟨n, member, spells⟩ := named c read
      have same : t.text = n := by
        simp only [Token.name?, string] at spells
        split_ifs at spells
        exact Option.some.inj spells
      exact same ▸ member

/-- One of the names stands between single quotes; with a blank in it the string is refused. -/
theorem strings_name_only_plainly_mixed :
    parse "SELECT \"a b\", 'c' FROM t WHERE d = 1" = .ok (.select "t" ["a b", "c"] [⟨"d", "1"⟩]) ∧
    (∃ ts, Token.tokenize "SELECT \"a b\", 'c' FROM t WHERE d = 1".toList = .ok ts ∧
      ∀ n ∈ ["t", "a b", "c", "d"], ∃ t ∈ ts,
        t.Spells "SELECT \"a b\", 'c' FROM t WHERE d = 1".toList n) ∧
    ∃ fault, parse "USE 'sh op'" = .error fault ∧ (Failure.statement fault).kind = .querySyntax := by
  have read : parse "SELECT \"a b\", 'c' FROM t WHERE d = 1" =
      .ok (.select "t" ["a b", "c"] [⟨"d", "1"⟩]) := by decide +kernel
  have trimmed : Text.trim "SELECT \"a b\", 'c' FROM t WHERE d = 1".toList =
      "SELECT \"a b\", 'c' FROM t WHERE d = 1".toList := by decide +kernel
  refine ⟨read, ?_, ?_⟩
  · obtain ⟨verb, v, ts, -, tokens, spelled⟩ := (strings_name_only_plainly _).1 _ read
    rw [trimmed] at tokens spelled
    refine ⟨v :: ts, tokens, fun n member => ?_⟩
    obtain ⟨before, t, after, rfl, -, spells⟩ := spelled n member
    exact ⟨t, by simp, spells⟩
  · exact ((strings_name_only_plainly "USE 'sh op'").2 .use ⟨.other, "USE", 0, 3⟩ []
      ⟨.string, "sh op", 4, 11⟩ [] (by decide +kernel) (by decide +kernel) .used rfl).1 (by decide)

/-- A string with the shape of a name is taken for the name of a database. -/
theorem string_names_database :
    Token.tokenize "USE 'shop'".toList = .ok [⟨.other, "USE", 0, 3⟩, ⟨.string, "shop", 4, 10⟩] ∧
    WantsName .use [] ∧ parse "USE 'shop'" = .ok (.useDatabase "shop") :=
  ⟨by decide +kernel, .used, by decide +kernel⟩

end Cellstore.Statement
