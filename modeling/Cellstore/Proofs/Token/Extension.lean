import Cellstore.Proofs.Token.Writing

/-! A semicolon behind a text.
The last lexeme of a text does not go on into the blanks and the semicolon that are written behind
it. -/
namespace Cellstore.Token
open Cellstore.Text (isBlank trim)

variable {tail : List Char}

/-! Single lexemes. -/

theorem quotation_append {q : Char} {fault : Unclosed} {s after : List Char} {r : List Char × Nat}
    (read : quotation q fault s = .ok r) (apart : after.head? ≠ some q) :
    r.2 ≤ s.length ∧ quotation q fault (s ++ after) = .ok r := by
  fun_induction quotation q fault s generalizing r with
  | case1 => cases read
  | case2 =>
    cases read
    refine ⟨by simp, ?_⟩
    cases after with
    | nil => simp [quotation]
    | cons d after =>
      have other : d ≠ q := by simpa using apart
      simp [quotation, other]
  | case3 fault rest ih =>
    obtain ⟨inner, closed, rfl⟩ := map_eq_ok_iff.mp read
    obtain ⟨inside, same⟩ := ih closed
    exact ⟨by simpa using inside, by simp [quotation, same, Except.map]⟩
  | case4 fault d rest other =>
    cases read
    exact ⟨by simp, by simp [quotation, other]⟩
  | case5 fault c rest other ih =>
    obtain ⟨inner, closed, rfl⟩ := map_eq_ok_iff.mp read
    obtain ⟨inside, same⟩ := ih closed
    refine ⟨by simpa using inside, ?_⟩
    rw [List.cons_append, quotation.eq_def]
    simp [other, same, Except.map]

private theorem commentSize_le {nests : Bool} {close : Char × Char} {depth n : Nat} {s : List Char}
    (closed : commentSize nests close depth s = .ok n) : n ≤ s.length := by
  fun_induction commentSize nests close depth s generalizing n with
  | case1 =>
    cases closed
    simp
  | case2 depth a b more next c rest nested =>
    rename_i ih
    obtain ⟨m, inner, rfl⟩ := map_eq_ok_iff.mp closed
    simpa using ih inner
  | case3 depth a b more next c rest plain =>
    rename_i ih
    obtain ⟨m, inner, rfl⟩ := map_eq_ok_iff.mp closed
    simpa using ih inner
  | case4 => cases closed
  | case5 => cases closed

private theorem commentSize_drop {nests : Bool} {close : Char × Char} {depth n k : Nat}
    {s : List Char} (closed : commentSize nests close depth (s.drop k) = .ok n)
    (opens : k ≤ s.length) (after : List Char) :
    n + k ≤ s.length ∧ commentSize nests close depth ((s ++ after).drop k) = .ok n := by
  constructor
  · have inside := commentSize_le closed
    rw [List.length_drop] at inside
    omega
  · rw [List.drop_append_of_le_length opens]
    exact commentSize_append closed after

private theorem stops_number {c : Char} (ends : isBlank c = true ∨ c = ';') :
    c.isDigit = false ∧ c ≠ '.' ∧ c ≠ '+' ∧ c ≠ '-' ∧ c ≠ 'e' ∧ c ≠ 'E' := by
  rcases ends with blank | rfl
  · have apart {d : Char} (solid : isBlank d = false) : c ≠ d := by
      rintro rfl
      rw [blank] at solid
      cases solid
    refine ⟨?_, apart (by decide), apart (by decide), apart (by decide), apart (by decide),
      apart (by decide)⟩
    by_contra digit
    have bounds : 48 ≤ c.toNat ∧ c.toNat ≤ 57 := by
      simpa [Char.isDigit, UInt32.le_iff_toNat_le] using digit
    simp only [isBlank, Bool.or_eq_true, Bool.and_eq_true, decide_eq_true_eq, beq_iff_eq] at blank
    omega
  · decide

theorem numberSize_append {after : List Char} (ends : Ends after) (parameter point : Bool)
    (exponent : Nat) (s : List Char) :
    numberSize parameter point exponent s ≤ s.length ∧
      numberSize parameter point exponent (s ++ after) = numberSize parameter point exponent s := by
  have outside : (after.head?.map Char.isDigit).getD false = false := by
    cases after with
    | nil => rfl
    | cons c after => simpa using (stops_number (ends c rfl)).1
  induction s generalizing point exponent with
  | nil =>
    cases after with
    | nil => simp [numberSize]
    | cons c after => simp [numberSize, stops_number (ends c rfl)]
  | cons c s ih =>
    have inside (point : Bool) (exponent : Nat) := Nat.succ_le_succ (ih point exponent).1
    have same (point : Bool) (exponent : Nat) := (ih point exponent).2
    have next : ((s ++ after).head?.map Char.isDigit).getD false =
        (s.head?.map Char.isDigit).getD false := by
      cases s with
      | nil => exact outside
      | cons d s => rfl
    constructor
    · rw [numberSize]
      split_ifs <;> first | exact inside _ _ | exact Nat.zero_le _
    · rw [List.cons_append, numberSize, numberSize]
      simp only [same, next]

theorem plainLexeme_append {c : Char} {after : List Char} (ends : Ends after)
    (previous : Option Kind) (rest : List Char) :
    (plainLexeme previous c rest).size ≤ rest.length + 1 ∧
      plainLexeme previous c (rest ++ after) = plainLexeme previous c rest := by
  cases mark : isMark c with
  | true => simp [plainLexeme_of_isMark mark]
  | false =>
    have outside : after.takeWhile inWord = [] := by
      cases after with
      | nil => rfl
      | cons d after =>
        have none : inWord d = false := by
          rcases ends d rfl with blank | rfl
          · simp [inWord, blank]
          · decide
        simp [none]
    have same : (rest ++ after).takeWhile inWord = rest.takeWhile inWord := by
      rw [List.takeWhile_append]
      split_ifs with all
      · rw [outside, List.append_nil]
        exact ((List.takeWhile_prefix _).eq_of_length all).symm
      · rfl
    rw [plainLexeme_of_not_isMark mark, plainLexeme_of_not_isMark mark, same]
    exact ⟨Nat.succ_le_succ (List.takeWhile_prefix _).length_le, rfl⟩

/-! Entries. -/

/-- No entry ends in a space or holds a semicolon, and one that begins with another is longer by
just one character. -/
private theorem entries_shape : ∀ e ∈ entries, e.getLast? ≠ some ' ' ∧ ';' ∉ e ∧
    ∀ f ∈ entries, e <+: f → f.length ≤ e.length + 1 := forall_mem_of_all (by decide +kernel)

private theorem exists_entry {seen : List Char} (opens : opensEntry seen = true) :
    ∃ e ∈ entries, seen.map Char.toUpper <+: e := by
  simpa [opensEntry] using opens

private theorem isEntry_iff {seen : List Char} :
    isEntry seen = true ↔ seen.map Char.toUpper ∈ entries := List.contains_iff_mem

private theorem not_isEntry_space (seen : List Char) : isEntry (seen ++ [' ']) = false := by
  rw [Bool.eq_false_iff]
  intro whole
  exact (entries_shape _ (isEntry_iff.mp whole)).1 (by simp [List.getLast?_append])

private theorem not_opensEntry_semicolon (seen : List Char) :
    opensEntry (seen ++ [';']) = false := by
  rw [Bool.eq_false_iff]
  intro opens
  obtain ⟨e, member, leads⟩ := exists_entry opens
  exact (entries_shape e member).2.1 (leads.subset (by simp))

/-- Only a whole entry goes on from a whole entry. -/
private theorem isEntry_concat {seen : List Char} {c : Char} (whole : isEntry seen = true)
    (opens : opensEntry (seen ++ [c]) = true) : isEntry (seen ++ [c]) = true := by
  obtain ⟨e, member, leads⟩ := exists_entry opens
  have inner : seen.map Char.toUpper <+: e := by
    rw [List.map_append] at leads
    exact (List.prefix_append _ _).trans leads
  have short := (entries_shape _ (isEntry_iff.mp whole)).2.2 e member inner
  have same := leads.eq_of_length_le (by simpa using short)
  exact isEntry_iff.mpr (same ▸ member)

private theorem not_opensEntry_space {seen : List Char} (whole : isEntry seen = true) :
    opensEntry (seen ++ [' ']) = false := by
  rw [Bool.eq_false_iff]
  intro opens
  have longer := isEntry_concat whole opens
  rw [not_isEntry_space] at longer
  cases longer

/-- Where the characters `seen` may go on, an entry that was found is these characters. They are no
entry if the last one is a blank. -/
structure OnTheWay (seen : List Char) (entry : Option (List Char)) (blank : Bool) : Prop where
  latest : entry ≠ none → opensEntry seen = true → isEntry seen = true
  solid : blank = true → isEntry seen = false

theorem OnTheWay.step {seen : List Char} {entry : Option (List Char)} {blank : Bool}
    (way : OnTheWay seen entry blank) (opens : opensEntry seen = true) {c : Char} {next : Bool}
    (space : next = true → c = ' ') :
    OnTheWay (seen ++ [c]) (if isEntry seen then some seen else entry) next where
  latest found longer := by
    refine isEntry_concat ?_ longer
    by_contra part
    rw [if_neg part] at found
    exact part (way.latest found opens)
  solid blank := by
    rw [space blank]
    exact not_isEntry_space seen

/-- Characters that are no entry become none by blanks and a semicolon. -/
private theorem follow_gap {seen : List Char} (part : isEntry seen = false) (gap : Blanks tail)
    (size : Nat) (blank marked : Bool) (more : List Char) :
    (follow seen size none blank marked (tail ++ ';' :: more)).entry = none := by
  induction tail generalizing seen size blank marked with
  | nil =>
    have solid : isBlank ';' = false := by decide
    rw [List.nil_append, follow]
    simp only [part, solid, Bool.false_eq_true, if_false,
      follow_of_not_opens (not_opensEntry_semicolon seen)]
    split_ifs <;> rfl
  | cons c tail ih =>
    have rest : Blanks tail := fun d member => gap d (List.mem_cons_of_mem c member)
    rw [List.cons_append, follow]
    simp only [part, gap c (List.mem_cons_self ..), Bool.false_eq_true, if_false, if_true]
    split_ifs
    · exact ih part rest ..
    · exact ih (not_isEntry_space seen) rest ..
    · rfl

/-- A whole entry ends before blanks and a semicolon as it does at the end of the text. -/
private theorem follow_whole {seen : List Char} (whole : isEntry seen = true)
    (opens : opensEntry seen = true) (gap : Blanks tail) (size : Nat)
    (entry : Option (List Char)) (marked : Bool) (more : List Char) :
    follow seen size entry false marked (tail ++ ';' :: more) = ⟨some seen, size + 1, true⟩ := by
  have semicolon : isBlank ';' = false ∧ isMark ';' = true := by decide
  cases tail with
  | nil =>
    rw [List.nil_append, follow]
    simp only [whole, opens, semicolon, Bool.false_eq_true, if_false, if_true,
      follow_of_not_opens (not_opensEntry_semicolon seen), Bool.or_true]
  | cons c tail =>
    rw [List.cons_append, follow]
    simp only [whole, opens, gap c (List.mem_cons_self ..), Bool.false_eq_true, if_false, if_true,
      follow_of_not_opens (not_opensEntry_space whole), Bool.true_or]

theorem follow_append {seen : List Char} {entry : Option (List Char)} {blank : Bool}
    (way : OnTheWay seen entry blank) (gap : Blanks tail) (size : Nat) (marked : Bool)
    (s more : List Char) :
    follow seen size entry blank marked (s ++ (tail ++ ';' :: more)) =
        follow seen size entry blank marked s ∨
      (follow seen size entry blank marked s).entry = none ∧
        (follow seen size entry blank marked (s ++ (tail ++ ';' :: more))).entry = none := by
  induction s generalizing seen size entry blank marked with
  | nil =>
    cases opens : opensEntry seen with
    | false => exact .inl (by simp only [follow_of_not_opens opens])
    | true =>
      rw [List.nil_append, follow, if_pos opens]
      cases whole : isEntry seen with
      | true =>
        have solid : blank = false := by
          by_contra spaced
          rw [way.solid (by simpa using spaced)] at whole
          cases whole
        rw [solid, follow_whole whole opens gap]
        exact .inl rfl
      | false =>
        have none : entry = none := by
          by_contra found
          rw [way.latest found opens] at whole
          cases whole
        rw [none]
        exact .inr ⟨rfl, follow_gap whole gap ..⟩
  | cons c s ih =>
    cases opens : opensEntry seen with
    | false => exact .inl (by simp only [follow_of_not_opens opens])
    | true =>
      rw [List.cons_append, follow, follow]
      simp only [opens, if_true]
      have further {c : Char} {next : Bool} (space : next = true → c = ' ') :=
        way.step opens space
      have stays (spaced : blank = true) :
          OnTheWay seen (if isEntry seen then some seen else entry) true := by
        rw [way.solid spaced]
        exact ⟨way.latest, fun _ => way.solid spaced⟩
      generalize (if isEntry seen then some seen else entry) = latest at further stays ⊢
      split_ifs with gapped spaced
      · exact ih (stays spaced) ..
      · exact ih (further fun _ => rfl) ..
      · exact ih (further fun none => Bool.noConfusion none) ..

theorem matchEntry_append (gap : Blanks tail) (c : Char) (rest more : List Char) :
    matchEntry c (rest ++ (tail ++ ';' :: more)) = matchEntry c rest ∨
      (matchEntry c rest).entry = none ∧
        (matchEntry c (rest ++ (tail ++ ';' :: more))).entry = none :=
  follow_append ⟨fun none => absurd rfl none, fun none => Bool.noConfusion none⟩ gap ..

theorem size_follow_le_length (seen : List Char) (size : Nat) (entry : Option (List Char))
    (blank marked : Bool) (s : List Char) :
    (follow seen size entry blank marked s).size ≤ size + s.length + 1 := by
  induction s generalizing seen size entry blank marked with
  | nil =>
    rw [follow]
    split_ifs <;> simp
  | cons c s ih =>
    have later (seen : List Char) (entry : Option (List Char)) (blank : Bool) :
        (follow seen (size + 1) entry blank (marked || isMark c) s).size ≤
          size + (s.length + 1) + 1 := by
      have further := ih seen (size + 1) entry blank (marked || isMark c)
      omega
    cases opens : opensEntry seen with
    | false =>
      rw [follow_of_not_opens opens]
      dsimp only
      omega
    | true =>
      rw [follow]
      simp only [opens, if_true]
      split_ifs <;> exact later ..

/-! Lexemes. -/

private theorem length_of_entry {c d : Char} {rest w : List Char}
    (found : (matchEntry c rest).entry = some (d :: w)) (solid : ' ' ∉ w) :
    w.length ≤ rest.length :=
  (prefix_of_squeezed solid (List.cons_prefix_cons.mp (leads_of_entry found).2).2).length_le

/-- A lexeme is read as before when blanks and a semicolon are written behind the text. -/
theorem lexeme_append {previous : Option Kind} {c : Char} {rest : List Char} {x : Lexeme}
    (lexed : lexeme previous c rest = .ok x) (gap : Blanks tail) (more : List Char) :
    x.size ≤ rest.length + 1 ∧ lexeme previous c (rest ++ (tail ++ ';' :: more)) = .ok x := by
  have ends := ends_of_gap gap more
  have noQuote {q : Char} (plain : isBlank q = false ∧ q ≠ ';') :
      (tail ++ ';' :: more).head? ≠ some q := by
    intro first
    rcases ends q first with blank | same
    · simp [plain.1] at blank
    · exact plain.2 same
  have matched := matchEntry_append gap c rest more
  have plain := plainLexeme_append ends (c := c) previous rest
  unfold lexeme at lexed ⊢
  -- The cases are those of the lexer, in its order.
  by_cases blank : isBlank c = true
  · rw [if_pos blank] at lexed ⊢
    cases lexed
    exact ⟨Nat.le_add_left .., rfl⟩
  rw [if_neg blank] at lexed ⊢
  by_cases digit : c.isDigit = true
  · obtain ⟨inside, same⟩ := numberSize_append ends (previous = some .parameter) false 0 rest
    rw [if_pos digit] at lexed ⊢
    cases lexed
    refine ⟨Nat.succ_le_succ inside, ?_⟩
    dsimp only
    rw [same, List.take_append_of_le_length inside]
  rw [if_neg digit] at lexed ⊢
  by_cases quote : c = '"'
  · rw [if_pos quote, map_eq_ok_iff] at lexed
    obtain ⟨r, content, rfl⟩ := lexed
    obtain ⟨inside, same⟩ := quotation_append content (noQuote (by decide))
    rw [if_pos quote, same]
    exact ⟨Nat.succ_le_succ inside, rfl⟩
  rw [if_neg quote] at lexed ⊢
  dsimp only at lexed ⊢
  -- Either the same entry is found, or none with and without the tail.
  obtain same | ⟨before, behind⟩ := matched
  swap
  · rw [before] at lexed
    rw [behind]
    cases lexed
    exact ⟨plain.1, congrArg _ plain.2⟩
  rw [same]
  cases found : (matchEntry c rest).entry with
  | none =>
    rw [found] at lexed
    cases lexed
    exact ⟨plain.1, congrArg _ plain.2⟩
  | some w =>
  rw [found] at lexed
  dsimp only at lexed ⊢
  by_cases string : w = ['\'']
  · rw [if_pos string, map_eq_ok_iff] at lexed
    obtain ⟨r, content, rfl⟩ := lexed
    obtain ⟨inside, same⟩ := quotation_append content (noQuote (by decide))
    rw [if_pos string, same]
    exact ⟨Nat.succ_le_succ inside, rfl⟩
  rw [if_neg string] at lexed ⊢
  by_cases national : w.map Char.toUpper = ['N', '\'']
  · obtain ⟨-, rest, rfl⟩ := national_of_entry found national
    rw [if_pos national, map_eq_ok_iff] at lexed
    obtain ⟨r, content, rfl⟩ := lexed
    obtain ⟨inside, same⟩ := quotation_append content (noQuote (by decide))
    rw [List.drop_succ_cons, List.drop_zero] at inside same
    rw [if_pos national, List.cons_append, List.drop_succ_cons, List.drop_zero, same]
    exact ⟨Nat.succ_le_succ (Nat.succ_le_succ inside), rfl⟩
  rw [if_neg national] at lexed ⊢
  by_cases template : w = ['\x7b', '#']
  · rw [if_pos template, map_eq_ok_iff] at lexed
    obtain ⟨n, closed, rfl⟩ := lexed
    have opens : ['#'].length ≤ rest.length := length_of_entry (template ▸ found) (by decide)
    obtain ⟨inside, same⟩ := commentSize_drop closed opens (tail ++ ';' :: more)
    rw [if_pos template, same]
    exact ⟨Nat.succ_le_succ inside, rfl⟩
  rw [if_neg template] at lexed ⊢
  by_cases hint : w = ['/', '*', '+']
  · rw [if_pos hint, map_eq_ok_iff] at lexed
    obtain ⟨n, closed, rfl⟩ := lexed
    have opens : ['*', '+'].length ≤ rest.length := length_of_entry (hint ▸ found) (by decide)
    obtain ⟨inside, same⟩ := commentSize_drop closed opens (tail ++ ';' :: more)
    rw [if_pos hint, same]
    dsimp only [Except.map]
    rw [List.take_append_of_le_length inside]
    refine ⟨?_, rfl⟩
    split_ifs <;> exact Nat.succ_le_succ inside
  rw [if_neg hint] at lexed ⊢
  by_cases bounded : (matchEntry c rest).bounded = true
  · rw [if_pos bounded] at lexed ⊢
    cases lexed
    have inside := size_follow_le_length [c] 0 none false (isMark c) rest
    rw [Nat.zero_add] at inside
    exact ⟨inside, rfl⟩
  · rw [if_neg bounded] at lexed ⊢
    cases lexed
    exact ⟨plain.1, congrArg _ plain.2⟩

end Cellstore.Token
