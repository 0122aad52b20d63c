import Cellstore.Token.Scan
import Mathlib.Data.List.Forall2

/-! The pieces that statements are written in.
A piece is a keyword, a mark, a name in double quotes or a value in single quotes. A text
that writes pieces with blanks between them is scanned to one token for each piece, whatever
the quoted texts hold. -/
namespace Cellstore.Token
open Cellstore.Text (isBlank upper upperText)

def keywords : List String := [
  "CREATE", "DATABASE", "USE", "INSERT", "INTO", "VALUES", "SELECT", "FROM", "WHERE", "AND",
  "UPDATE", "SET", "DELETE", "DROP", "TABLE"]

def statementMarks : List Char := ['(', ')', ',', '*', '=', ';']

/-- One piece of a statement. Names and values may be any texts. -/
inductive Piece where
  | keyword (w : String)
  | mark (c : Char)
  | name (n : String)
  | value (v : String)
  deriving DecidableEq, Repr

/-- A text with each `q` in it written twice. -/
def doubled (q : Char) (s : List Char) : List Char :=
  s.flatMap fun c => if c = q then [q, q] else [c]

def quoted (q : Char) (s : String) : List Char := q :: (doubled q s.toList ++ [q])

/-- The ways to write a piece: keywords in any letter case, all else in one way. -/
def Piece.Spells : Piece → List Char → Prop
  | .keyword w, s => w ∈ keywords ∧ s.map Char.toUpper = w.toList
  | .mark c, s => c ∈ statementMarks ∧ s = [c]
  | .name n, s => s = quoted '"' n
  | .value v, s => s = quoted '\'' v

instance : (p : Piece) → (s : List Char) → Decidable (p.Spells s)
  | .keyword _, _ => inferInstanceAs (Decidable (_ ∧ _))
  | .mark _, _ => inferInstanceAs (Decidable (_ ∧ _))
  | .name _, _ => inferInstanceAs (Decidable (_ = _))
  | .value _, _ => inferInstanceAs (Decidable (_ = _))

def Blanks (gap : List Char) : Prop := ∀ c ∈ gap, isBlank c = true

instance (gap : List Char) : Decidable (Blanks gap) :=
  decidable_of_iff (gap.all isBlank = true) List.all_eq_true

/-- A text that writes pieces in their order, with a run of blanks between any two. -/
inductive Written : List Piece → List Char → Prop where
  | last {p : Piece} {s : List Char} (spelled : p.Spells s) : Written [p] s
  | next {p : Piece} {s gap : List Char} {ps : List Piece} {rest : List Char}
      (spelled : p.Spells s) (apart : gap ≠ []) (blank : Blanks gap) (more : Written ps rest) :
      Written (p :: ps) (s ++ gap ++ rest)

/-- The pieces that can be spelled. -/
def Piece.Known : Piece → Prop
  | .keyword w => w ∈ keywords
  | .mark c => c ∈ statementMarks
  | .name _ => True
  | .value _ => True

instance : (p : Piece) → Decidable p.Known
  | .keyword _ => inferInstanceAs (Decidable (_ ∈ _))
  | .mark _ => inferInstanceAs (Decidable (_ ∈ _))
  | .name _ => inferInstanceAs (Decidable True)
  | .value _ => inferInstanceAs (Decidable True)

/-- What may follow a piece: the end of the text, a blank or a semicolon. -/
def Ends (after : List Char) : Prop := ∀ c ∈ after.head?, isBlank c = true ∨ c = ';'

theorem ends_nil : Ends [] := by simp [Ends]

theorem ends_space (rest : List Char) : Ends (' ' :: rest) := by
  intro d first
  cases first
  exact .inl Text.isBlank_space

theorem ends_semicolon (rest : List Char) : Ends (';' :: rest) := by simp [Ends]

theorem ends_of_blanks {gap : List Char} (apart : gap ≠ []) (blank : Blanks gap)
    (rest : List Char) : Ends (gap ++ rest) := by
  intro c first
  cases gap with
  | nil => exact absurd rfl apart
  | cons d gap =>
    have same : d = c := by simpa using first
    exact Or.inl (blank c (by simp [same]))

theorem forall_mem_of_all {α : Type} {P : α → Prop} [DecidablePred P] {l : List α}
    (checked : l.all (fun x => decide (P x)) = true) : ∀ x ∈ l, P x := by
  simpa using checked

/-! No symbol, phrase or opening bracket is mistaken for a keyword or a mark. -/

/-- No entry leads this word, and together with a blank or a semicolon it leads none. -/
def StandsAlone (w : List Char) : Prop :=
  (∀ e ∈ entries, ¬ e <+: w.map Char.toUpper) ∧
    opensEntry (w ++ [' ']) = false ∧ opensEntry (w ++ [';']) = false

instance (w : List Char) : Decidable (StandsAlone w) := inferInstanceAs (Decidable (_ ∧ _))

theorem standsAlone_keyword : ∀ w ∈ keywords, StandsAlone w.toList := by decide

private theorem standsAlone_mark : ∀ c ∈ statementMarks, StandsAlone [c] :=
  forall_mem_of_all (by decide)

private theorem standsAlone_congr {s w : List Char} (same : s.map Char.toUpper = w.map Char.toUpper)
    (alone : StandsAlone w) : StandsAlone s := by
  simpa only [StandsAlone, opensEntry, List.map_append, same] using alone

theorem follow_of_not_opens {seen : List Char} (closed : opensEntry seen = false) (size : Nat)
    (entry : Option (List Char)) (blank marked : Bool) (rest : List Char) :
    follow seen size entry blank marked rest = ⟨entry, size, blank || marked⟩ := by
  cases rest <;> simp [follow, closed]

private theorem isEntry_of_alone {seen tail : List Char} (alone : StandsAlone (seen ++ tail)) :
    isEntry seen = false := by
  rw [isEntry, Bool.eq_false_iff]
  intro found
  apply alone.1 (seen.map Char.toUpper) (List.contains_iff_mem.1 found)
  rw [List.map_append]
  exact List.prefix_append _ _

private theorem follow_alone {tail seen after : List Char} (alone : StandsAlone (seen ++ tail))
    (solid : ∀ c ∈ tail, isBlank c = false) (ends : Ends after) (size : Nat) (marked : Bool) :
    (follow seen size none false marked (tail ++ after)).entry = none := by
  -- What was seen is always the head of a word that stands alone, so it is never an entry.
  induction tail generalizing seen size marked with
  | nil =>
    have noEntry := isEntry_of_alone alone
    rw [List.append_nil] at alone
    cases after with
    | nil =>
      simp only [List.nil_append, follow, noEntry]
      split <;> rfl
    | cons c after =>
      simp only [List.nil_append, follow, noEntry]
      split
      · rcases ends c rfl with blank | rfl
        · rw [if_pos blank]
          exact congrArg Match.entry (follow_of_not_opens alone.2.1 ..)
        · exact congrArg Match.entry (follow_of_not_opens alone.2.2 ..)
      · rfl
  | cons d tail hyp =>
    have noEntry := isEntry_of_alone alone
    have next : StandsAlone (seen ++ [d] ++ tail) := by simpa using alone
    have solidTail : ∀ c ∈ tail, isBlank c = false := fun c member => solid c (by simp [member])
    simp only [List.cons_append, follow, noEntry, solid d (by simp)]
    split
    · exact hyp next solidTail _ _
    · rfl

/-- A word that stands alone, cut off by a blank, a semicolon or the end, opens no entry. -/
theorem matchEntry_alone {c : Char} {rest after : List Char} (alone : StandsAlone (c :: rest))
    (solid : ∀ d ∈ rest, isBlank d = false) (ends : Ends after) :
    (matchEntry c (rest ++ after)).entry = none :=
  @follow_alone rest [c] after alone solid ends 0 (isMark c)

private theorem opensEntry_quote (d : Char) : opensEntry ['\'', d] = false := by
  have only : ∀ e ∈ entries, e.head? = some '\'' → e = ['\''] := by decide
  rw [opensEntry, List.any_eq_false]
  intro e member leads
  obtain ⟨tail, rfl⟩ := List.isPrefixOf_iff_prefix.1 leads
  have short := only _ member rfl
  simp at short

theorem matchEntry_quote (d : Char) (rest : List Char) :
    (matchEntry '\'' (d :: rest)).entry = some ['\''] := by
  have opens : opensEntry ['\''] = true := by decide
  have whole : isEntry ['\''] = true := by decide
  simp only [matchEntry, follow, opens, whole, if_true]
  split
  · exact congrArg Match.entry (follow_of_not_opens (opensEntry_quote ' ') ..)
  · exact congrArg Match.entry (follow_of_not_opens (opensEntry_quote d) ..)

/-! Quotations are read back. -/

private theorem quotation_of_ne {q c : Char} (differs : c ≠ q) (fault : Unclosed)
    (rest : List Char) : quotation q fault (c :: rest) =
      (quotation q .inQuotation rest).map fun r => (c :: r.1, r.2 + 1) := by
  rw [quotation.eq_def]
  simp only [differs, if_false]

/-- A doubled quote never ends the quotation, and no other character does. -/
theorem quotation_doubled (q : Char) (s after : List Char) (ends : after.head? ≠ some q)
    (fault : Unclosed) :
    quotation q fault (doubled q s ++ q :: after) = .ok (s, (doubled q s).length + 1) := by
  induction s generalizing fault with
  | nil =>
    cases after with
    | nil => simp [doubled, quotation]
    | cons d after =>
      have differs : d ≠ q := by simpa using ends
      simp [doubled, quotation, differs]
  | cons c s hyp =>
    have unfolded : doubled q (c :: s) = (if c = q then [q, q] else [c]) ++ doubled q s := rfl
    rw [unfolded]
    by_cases same : c = q
    · simp [quotation, hyp, Except.map, same]
    · rw [if_neg same, List.append_assoc, List.singleton_append, quotation_of_ne same, hyp]
      simp [Except.map]

/-! The characters of keywords. -/

theorem isUpper_of_keyword : ∀ w ∈ keywords, w.toList.all Char.isUpper = true := by decide

theorem toUpper_of_keyword : ∀ w ∈ keywords, w.toList.map Char.toUpper = w.toList := by
  decide

theorem Piece.exists_spells {p : Piece} (known : p.Known) : ∃ s, p.Spells s := by
  cases p with
  | keyword w => exact ⟨w.toList, known, toUpper_of_keyword w known⟩
  | mark c => exact ⟨[c], known, rfl⟩
  | name n => exact ⟨quoted '"' n, rfl⟩
  | value v => exact ⟨quoted '\'' v, rfl⟩

theorem exists_written {ps : List Piece} (filled : ps ≠ []) (known : ∀ p ∈ ps, p.Known) :
    ∃ body, Written ps body := by
  induction ps with
  | nil => exact absurd rfl filled
  | cons p ps hyp =>
    obtain ⟨s, spelled⟩ := Piece.exists_spells (known p (by simp))
    by_cases more : ps = []
    · rw [more]
      exact ⟨s, .last spelled⟩
    · obtain ⟨rest, written⟩ := hyp more fun q member => known q (by simp [member])
      exact ⟨s ++ [' '] ++ rest, .next spelled (by simp) (by decide) written⟩

theorem isAlpha_of_isUpper_toUpper {c : Char} (letter : c.toUpper.isUpper = true) :
    c.isAlpha = true := by
  by_cases lower : 'a'.val ≤ c.val ∧ c.val ≤ 'z'.val
  · have isLower : c.isLower = true := Bool.and_eq_true_iff.2
      ⟨decide_eq_true lower.1, decide_eq_true lower.2⟩
    exact Bool.or_eq_true_iff.2 (Or.inr isLower)
  · have same : c.toUpper = c := dif_neg lower
    exact Bool.or_eq_true_iff.2 (Or.inl (same ▸ letter))

theorem isAlpha_of_spelled {w : String} {s : List Char} (spelled : (Piece.keyword w).Spells s) :
    ∀ c ∈ s, c.isAlpha = true := by
  intro c member
  apply isAlpha_of_isUpper_toUpper
  apply List.all_eq_true.1 (isUpper_of_keyword w spelled.1)
  rw [← spelled.2]
  exact List.mem_map_of_mem member

/-- Letters are no blanks, digits, marks or quotes, and upper case sees only their ASCII forms. -/
theorem letter_bounds {c : Char} (letter : c.isAlpha = true) :
    (65 ≤ c.toNat ∧ c.toNat ≤ 90) ∨ (97 ≤ c.toNat ∧ c.toNat ≤ 122) := by
  rcases Bool.or_eq_true_iff.1 letter with upper | lower
  · have bounds : 'A'.val ≤ c.val ∧ c.val ≤ 'Z'.val := of_decide_eq_true upper
    exact Or.inl bounds
  · have bounds := Bool.and_eq_true_iff.1 lower
    exact Or.inr ⟨of_decide_eq_true bounds.1, of_decide_eq_true bounds.2⟩

theorem not_isBlank_of_isAlpha {c : Char} (letter : c.isAlpha = true) : isBlank c = false := by
  have bounds := letter_bounds letter
  simp only [isBlank, Bool.or_eq_false_iff, Bool.and_eq_false_iff, decide_eq_false_iff_not,
    beq_eq_false_iff_ne]
  omega

theorem not_isDigit_of_isAlpha {c : Char} (letter : c.isAlpha = true) : c.isDigit = false := by
  have bounds := letter_bounds letter
  simp only [Char.isDigit, Bool.and_eq_false_iff, decide_eq_false_iff_not, UInt32.le_iff_toNat_le,
    ge_iff_le]
  have low : 57 < c.toNat := by omega
  exact Or.inr (Nat.not_le.2 low)

theorem not_isMark_of_isAlpha {c : Char} (letter : c.isAlpha = true) : isMark c = false := by
  have plain : ∀ d ∈ marks, d.isAlpha = false := forall_mem_of_all (by decide)
  rw [isMark, Bool.eq_false_iff]
  intro found
  simp [plain c (List.contains_iff_mem.1 found)] at letter

private theorem upper_of_letters {s : List Char} (letters : ∀ c ∈ s, c.isAlpha = true) :
    upper s = s.map Char.toUpper := by
  induction s with
  | nil => rfl
  | cons c s hyp =>
    have bounds := letter_bounds (letters c (by simp))
    have ascii : c.toNat < 0x80 := by omega
    have rest := hyp fun d member => letters d (by simp [member])
    rw [upper, List.flatMap_cons, Text.upperChar_of_ascii ascii, ← upper, rest]
    rfl

theorem ne_nil_of_spelled {w : String} {s : List Char} (spelled : (Piece.keyword w).Spells s) :
    s ≠ [] := by
  rintro rfl
  have none : w = "" := String.toList_inj.1 spelled.2.symm
  exact absurd (none ▸ spelled.1) (by decide)

theorem upper_of_spelled {w : String} {s : List Char} (spelled : (Piece.keyword w).Spells s) :
    upper s = w.toList := by
  rw [upper_of_letters (isAlpha_of_spelled spelled), spelled.2]

/-! The token of each piece. -/

def Piece.kind : Piece → Kind
  | .keyword w => wordKind none w.toList
  | .mark c => markKind c
  | .name _ => .identifier
  | .value _ => .string

/-- Is this a text that a token of the piece may have? The quotes of names and values are gone,
and keywords keep their letter case. -/
def Piece.HasText : Piece → String → Prop
  | .keyword w, text => w ∈ keywords ∧ upperText text = w
  | .mark c, text => c ∈ statementMarks ∧ text = String.singleton c
  | .name n, text => text = n
  | .value v, text => text = v

/-- The tokens that spell a piece. -/
structure Piece.Is (p : Piece) (t : Token) : Prop where
  kind : t.kind = p.kind
  text : p.HasText t.text

private theorem plain_wordKind : ∀ w ∈ keywords,
    wordKind none w.toList ≠ .command ∧ wordKind none w.toList ≠ .parameter := by decide

private theorem plain_markKind : ∀ c ∈ statementMarks,
    markKind c ≠ .command ∧ markKind c ≠ .parameter := forall_mem_of_all (by decide)

theorem Piece.plain_kind {p : Piece} {s : List Char} (spelled : p.Spells s) :
    p.kind ≠ .command ∧ p.kind ≠ .parameter := by
  cases p with
  | keyword w => exact plain_wordKind w spelled.1
  | mark c => exact plain_markKind c spelled.1
  | name n => simp [Piece.kind]
  | value v => simp [Piece.kind]

private theorem wordKind_of_spelled {w : String} {s : List Char}
    (spelled : (Piece.keyword w).Spells s) {previous : Option Kind}
    (free : previous ≠ some .parameter) : wordKind previous s = (Piece.keyword w).kind := by
  have plain : (Piece.keyword w).Spells w.toList := ⟨spelled.1, toUpper_of_keyword w spelled.1⟩
  simp only [Piece.kind, wordKind, upper_of_spelled spelled, upper_of_spelled plain, free]
  rfl

private theorem lexeme_keyword {w : String} {c : Char} {rest after : List Char}
    (spelled : (Piece.keyword w).Spells (c :: rest)) (ends : Ends after) {previous : Option Kind}
    (free : previous ≠ some .parameter) : lexeme previous c (rest ++ after) =
      .ok ⟨(c :: rest).length, some ((Piece.keyword w).kind, c :: rest)⟩ := by
  have letters := isAlpha_of_spelled spelled
  have letter := letters c (by simp)
  have bounds := letter_bounds letter
  have solid : ∀ d ∈ rest, isBlank d = false :=
    fun d member => not_isBlank_of_isAlpha (letters d (by simp [member]))
  have noDigit := not_isDigit_of_isAlpha letter
  have noQuote : c ≠ '"' := by
    rintro rfl
    revert bounds
    decide
  have same : (c :: rest).map Char.toUpper = w.toList.map Char.toUpper := by
    rw [spelled.2, toUpper_of_keyword w spelled.1]
  have alone := standsAlone_congr same (standsAlone_keyword w spelled.1)
  have inside : ∀ d ∈ rest, (!isBlank d && !isMark d) = true := by
    intro d member
    simp [solid d member, not_isMark_of_isAlpha (letters d (by simp [member]))]
  have outside : after.takeWhile (fun d => !isBlank d && !isMark d) = [] := by
    cases after with
    | nil => rfl
    | cons d after =>
      rcases ends d rfl with blank | rfl
      · simp [blank]
      · have semicolon : isMark ';' = true := by decide
        simp [semicolon]
  simp only [lexeme, not_isBlank_of_isAlpha letter, noDigit, noQuote,
    matchEntry_alone alone solid ends, plainLexeme, not_isMark_of_isAlpha letter,
    List.takeWhile_append_of_pos inside, outside, List.append_nil,
    wordKind_of_spelled spelled free]
  rfl

private theorem sign_of_mark : ∀ c ∈ statementMarks,
    isBlank c = false ∧ c.isDigit = false ∧ c ≠ '"' ∧ isMark c = true := forall_mem_of_all (by decide)

private theorem lexeme_mark {c : Char} {after : List Char} (member : c ∈ statementMarks)
    (ends : Ends after) (previous : Option Kind) :
    lexeme previous c after = .ok ⟨1, some (markKind c, [c])⟩ := by
  have sign := sign_of_mark c member
  have alone := matchEntry_alone (standsAlone_mark c member) (by simp) ends
  rw [List.nil_append] at alone
  simp [lexeme, sign, alone, plainLexeme]

private theorem lexeme_name {n : String} {after : List Char} (ends : after.head? ≠ some '"')
    (previous : Option Kind) :
    lexeme previous '"' (doubled '"' n.toList ++ '"' :: after) =
      .ok ⟨(quoted '"' n).length, some (.identifier, n.toList)⟩ := by
  have sign : isBlank '"' = false ∧ '"'.isDigit = false := by decide
  simp [lexeme, sign, quotation_doubled '"' n.toList after ends, Except.map, quoted]

private theorem lexeme_value {v : String} {after : List Char} (ends : after.head? ≠ some '\'')
    (previous : Option Kind) :
    lexeme previous '\'' (doubled '\'' v.toList ++ '\'' :: after) =
      .ok ⟨(quoted '\'' v).length, some (.string, v.toList)⟩ := by
  have sign : isBlank '\'' = false ∧ '\''.isDigit = false := by decide
  have matched : (matchEntry '\'' (doubled '\'' v.toList ++ '\'' :: after)).entry =
      some ['\''] := by
    cases doubled '\'' v.toList <;> exact matchEntry_quote _ _
  simp [lexeme, sign, matched, quotation_doubled '\'' v.toList after ends, Except.map, quoted]

/-- A piece at the head of a text gives its own token and nothing more. -/
theorem lexeme_spelled {p : Piece} {s after : List Char} (spelled : p.Spells s)
    (ends : Ends after) {previous : Option Kind} (free : previous ≠ some .parameter) :
    ∃ c rest text, s = c :: rest ∧ p.HasText (String.ofList text) ∧
      lexeme previous c (rest ++ after) = .ok ⟨s.length, some (p.kind, text)⟩ := by
  have noQuote (q : Char) (plain : isBlank q = false ∧ q ≠ ';') : after.head? ≠ some q := by
    intro first
    rcases ends q first with blank | same
    · simp [plain.1] at blank
    · exact plain.2 same
  cases p with
  | keyword w =>
    obtain ⟨c, rest, rfl⟩ := List.exists_cons_of_ne_nil (ne_nil_of_spelled spelled)
    refine ⟨c, rest, c :: rest, rfl, ⟨spelled.1, ?_⟩, lexeme_keyword spelled ends free⟩
    rw [upperText, String.toList_ofList, upper_of_spelled spelled, String.ofList_toList]
  | mark c =>
    obtain ⟨member, rfl⟩ := spelled
    exact ⟨c, [], [c], rfl, ⟨member, rfl⟩, lexeme_mark member ends previous⟩
  | name n =>
    cases spelled
    refine ⟨'"', _, n.toList, rfl, String.ofList_toList, ?_⟩
    rw [List.append_assoc]
    exact lexeme_name (noQuote '"' (by decide)) previous
  | value v =>
    cases spelled
    refine ⟨'\'', _, v.toList, rfl, String.ofList_toList, ?_⟩
    rw [List.append_assoc]
    exact lexeme_value (noQuote '\'' (by decide)) previous

end Cellstore.Token
