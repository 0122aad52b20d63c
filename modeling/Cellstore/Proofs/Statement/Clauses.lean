import Cellstore.Proofs.Statement.Grammar
import Cellstore.Proofs.Token.Scan

/-! Clauses are read back from the pieces that write them.
A token that spells a piece shows only the kind of the piece and whether it is a keyword, so
no text between quotes ends a value, a list or a condition. -/
namespace Cellstore.Statement
open Cellstore.Token (Piece Closes keywords statementMarks markKind)

abbrev Spelled (ps : List Piece) (ts : Tokens) : Prop := List.Forall₂ Piece.Is ps ts

theorem forall₂_split {α β : Type} {R : α → β → Prop} {as bs : List α} {cs : List β}
    (all : List.Forall₂ R (as ++ bs) cs) :
    ∃ us vs, cs = us ++ vs ∧ List.Forall₂ R as us ∧ List.Forall₂ R bs vs := by
  refine ⟨cs.take as.length, cs.drop as.length, (List.take_append_drop _ _).symm, ?_, ?_⟩
  · simpa using List.forall₂_take as.length all
  · simpa using List.forall₂_drop as.length all

def keywordPiece (w : String) : Piece → Bool
  | .keyword v => v == w
  | _ => false

private theorem not_isQuoted_keyword : ∀ w ∈ keywords,
    (Piece.keyword w).kind ≠ .string ∧ (Piece.keyword w).kind ≠ .identifier := by decide

private theorem mark_ne_keyword : ∀ c ∈ statementMarks, ∀ w ∈ keywords,
    Text.upperText (String.singleton c) ≠ w := Token.forall_mem_of_all (by decide)

theorem isKeyword_of_is {p : Piece} {t : Token} (is : p.Is t) {w : String}
    (member : w ∈ keywords) : t.isKeyword w = keywordPiece w p := by
  have kind := is.kind
  have text := is.text
  cases p with
  | keyword v =>
    have plain := not_isQuoted_keyword v text.1
    rw [← kind] at plain
    simp [Token.isKeyword, Token.isQuoted, plain, text.2, keywordPiece]
  | mark c =>
    have differs := mark_ne_keyword c text.1 w member
    rw [← text.2] at differs
    simp [Token.isKeyword, differs, keywordPiece]
  | name n => simp [Token.isKeyword, Token.isQuoted, kind, Piece.kind, keywordPiece]
  | value v => simp [Token.isKeyword, Token.isQuoted, kind, Piece.kind, keywordPiece]

theorem atKeyword_cons {p : Piece} {t : Token} (is : p.Is t) {w : String} (member : w ∈ keywords)
    (ts : Tokens) : atKeyword w (t :: ts) = keywordPiece w p := by
  simp [atKeyword, isKeyword_of_is is member]

theorem atKind_cons {p : Piece} {t : Token} (is : p.Is t) (k : Token.Kind) (ts : Tokens) :
    atKind k (t :: ts) = (p.kind == k) := by
  simp [atKind, is.kind]

/-! Single tokens. -/

theorem keyword_cons {w : String} {t : Token} (is : (Piece.keyword w).Is t) (ts : Tokens) :
    keyword w (t :: ts) = .ok ts := by
  simp [keyword, atKeyword_cons is is.text.1, keywordPiece]

theorem symbol_cons {c : Char} {t : Token} (is : (Piece.mark c).Is t) (what : String)
    (ts : Tokens) : symbol (markKind c) what (t :: ts) = .ok ts := by
  simp [symbol, atKind_cons is, Piece.kind]

theorem name?_of_is {n : String} {t : Token} (is : (Piece.name n).Is t)
    (isName : IsColumnName n) : t.name? = some n := by
  have kind : t.kind = .identifier := is.kind
  have text : t.text = n := is.text
  simp [Token.name?, kind, text, isName.1, isName.2]

/-- Every column name is read back from between its quotes, table and database names too. -/
theorem name_cons {n : String} {t : Token} (is : (Piece.name n).Is t) (isName : IsColumnName n)
    (what : String) (ts : Tokens) : name what (t :: ts) = .ok (n, ts) := by
  simp [name, name?_of_is is isName]

theorem value_cons {v : String} {t : Token} (is : (Piece.value v).Is t) {stop : Token → Bool}
    (goes : stop t = false) {ts : Tokens} (stops : ∀ u ∈ ts.head?, stop u = true)
    (source : List Char) : value source stop (t :: ts) = .ok (v, ts) := by
  have kind : t.kind = .string := is.kind
  have text : t.text = v := is.text
  have alone : ts.takeWhile (fun u => !stop u) = [] ∧ ts.dropWhile (fun u => !stop u) = ts := by
    cases ts with
    | nil => exact ⟨rfl, rfl⟩
    | cons u ts => simp [stops u rfl]
  simp [value, goes, alone, valueOf, Token.isQuoted, kind, text]

/-- Reading takes the tokens that spell these pieces for `a`, and leaves what follows them. -/
def ReadsAs {α : Type} (read : Tokens → Except Cause (α × Tokens)) (ps : List Piece)
    (follows : Token → Prop) (a : α) : Prop :=
  ∀ ts rest, Spelled ps ts → (∀ u ∈ rest.head?, follows u) → read (ts ++ rest) = .ok (a, rest)

theorem name_reads {n : String} (isName : IsColumnName n) (what : String)
    (follows : Token → Prop) : ReadsAs (name what) [.name n] follows n := by
  intro ts rest spelled _
  obtain ⟨t, us, is, none, rfl⟩ := List.forall₂_cons_left_iff.1 spelled
  cases none
  exact name_cons is isName what rest

theorem value_reads {v : String} {stop : Token → Bool}
    (goes : ∀ t, (Piece.value v).Is t → stop t = false) (source : List Char) :
    ReadsAs (value source stop) [.value v] (fun u => stop u = true) v := by
  intro ts rest spelled stops
  obtain ⟨t, us, is, none, rfl⟩ := List.forall₂_cons_left_iff.1 spelled
  cases none
  exact value_cons is (goes t is) stops source

/-! Lists of clauses. -/

def separated (between : Piece) : List (List Piece) → List Piece
  | [] => []
  | first :: more => first ++ more.flatMap fun group => between :: group

theorem known_separated {between : Piece} {groups : List (List Piece)} (known : between.Known)
    (each : ∀ group ∈ groups, ∀ p ∈ group, p.Known) : ∀ p ∈ separated between groups, p.Known := by
  cases groups with
  | nil => simp [separated]
  | cons first more =>
    simp only [separated, List.forall_mem_append, List.forall_mem_flatMap, List.forall_mem_cons]
    exact ⟨each first (by simp), fun group member => ⟨known, each group (by simp [member])⟩⟩

private theorem known_listed {xs : List String} (piece : String → Piece)
    (known : ∀ x, (piece x).Known) :
    ∀ p ∈ separated (.mark ',') (xs.map fun x => [piece x]), p.Known := by
  apply known_separated (by decide)
  intro group member p inside
  obtain ⟨x, -, rfl⟩ := List.mem_map.1 member
  rw [List.mem_singleton.1 inside]
  exact known x

section
variable {α : Type} {between : Piece} {ends : Token → Prop}
  {item : Tokens → Except Cause (α × Tokens)} {more : Tokens → Except Cause (List α × Tokens)}
  {pieces : α → List Piece} {xs : List α}

/-- `more` reads clauses by `item`, each after the piece `between`, up to a token that ends them. -/
structure Repeats (between : Piece) (ends : Token → Prop)
    (item : Tokens → Except Cause (α × Tokens))
    (more : Tokens → Except Cause (List α × Tokens)) : Prop where
  stop : ∀ rest, (∀ u ∈ rest.head?, ends u) → more rest = .ok ([], rest)
  step : ∀ t ts x after, between.Is t → item ts = .ok (x, after) →
    more (t :: ts) = (more after).map fun r => (x :: r.1, r.2)

private theorem follows_of_more {ts rest : Tokens}
    (spelled : Spelled ((xs.map pieces).flatMap fun group => between :: group) ts)
    (ended : ∀ u ∈ rest.head?, ends u) : ∀ u ∈ (ts ++ rest).head?, between.Is u ∨ ends u := by
  intro u first
  cases xs with
  | nil =>
    cases spelled
    exact Or.inr (ended u first)
  | cons x xs =>
    obtain ⟨t, us, is, -, rfl⟩ := List.forall₂_cons_left_iff.1 spelled
    have same : t = u := by simpa using first
    exact Or.inl (same ▸ is)

theorem Repeats.more_reads (repeats : Repeats between ends item more)
    (each : ∀ x ∈ xs, ReadsAs item (pieces x) (fun u => between.Is u ∨ ends u) x) :
    ReadsAs more ((xs.map pieces).flatMap fun group => between :: group) ends xs := by
  -- A clause is followed by the separator of the next one, or by what ends them all.
  induction xs with
  | nil =>
    intro ts rest spelled ended
    cases spelled
    exact repeats.stop rest ended
  | cons x xs hyp =>
    intro ts rest spelled ended
    obtain ⟨t, us, is, tail, rfl⟩ := List.forall₂_cons_left_iff.1 spelled
    obtain ⟨first, others, rfl, one, all⟩ := forall₂_split tail
    have read := each x (by simp) first (others ++ rest) one (follows_of_more all ended)
    have readMore := hyp (fun y member => each y (by simp [member])) others rest all ended
    rw [List.cons_append, List.append_assoc, repeats.step _ _ _ _ is read, readMore]
    rfl

theorem Repeats.reads (repeats : Repeats between ends item more) (filled : xs ≠ [])
    (each : ∀ x ∈ xs, ReadsAs item (pieces x) (fun u => between.Is u ∨ ends u) x) :
    ReadsAs (listing item more) (separated between (xs.map pieces)) ends xs := by
  cases xs with
  | nil => exact absurd rfl filled
  | cons x xs =>
    intro ts rest spelled ended
    obtain ⟨first, others, rfl, one, all⟩ := forall₂_split spelled
    have read := each x (by simp) first (others ++ rest) one (follows_of_more all ended)
    have readMore :=
      repeats.more_reads (fun y member => each y (by simp [member])) others rest all ended
    rw [listing, List.append_assoc, read]
    simp only [bind, Except.bind, readMore]
    rfl

end

/-! Column names. -/

def namePieces (ns : List String) : List Piece := separated (.mark ',') (ns.map fun n => [.name n])

theorem known_namePieces (ns : List String) : ∀ p ∈ namePieces ns, p.Known :=
  known_listed .name fun _ => trivial

private theorem repeats_names :
    Repeats (.mark ',') (fun u => u.kind ≠ .comma) (name "column name") moreNames where
  stop := by
    intro rest apart
    rw [moreNames.eq_def]
    cases rest with
    | nil => rfl
    | cons u rest => simp [apart u rfl]
  step := by
    intro t ts n after comma read
    have kind : t.kind = .comma := comma.kind
    cases ts with
    | nil => simp [name] at read
    | cons u ts =>
      simp only [name] at read
      split at read
      · rename_i found
        cases read
        rw [moreNames, found]
        simp [kind]
      · simp at read

theorem names_reads {ns : List String} (filled : ns ≠ []) (named : ∀ n ∈ ns, IsColumnName n) :
    ReadsAs names (namePieces ns) (fun u => u.kind ≠ .comma) ns :=
  repeats_names.reads filled fun n member => name_reads (named n member) _ _

private theorem inside_parentheses {α : Type} {inner : Tokens → Except Cause (α × Tokens)}
    {ps : List Piece} {follows : Token → Prop} {a : α} (reads : ReadsAs inner ps follows a)
    (closes : ∀ t, (Piece.mark ')').Is t → follows t) (after : Token → Prop) :
    ReadsAs (fun ts => do
      let ts ← symbol .leftParen "'('" ts
      let (x, ts) ← inner ts
      let ts ← symbol .rightParen "')'" ts
      return (x, ts)) (.mark '(' :: (ps ++ [.mark ')'])) after a := by
  intro ts rest spelled _
  obtain ⟨t, us, opening, tail, rfl⟩ := List.forall₂_cons_left_iff.1 spelled
  obtain ⟨inside, vs, rfl, listed, closed⟩ := forall₂_split tail
  obtain ⟨v, none, closing, ended, rfl⟩ := List.forall₂_cons_left_iff.1 closed
  cases ended
  have follow : ∀ u ∈ (v :: rest).head?, follows u := by
    intro u first
    have same : v = u := by simpa using first
    exact same ▸ closes v closing
  have start : symbol .leftParen "'('" (t :: (inside ++ v :: rest)) = .ok (inside ++ v :: rest) :=
    symbol_cons opening _ _
  have read := reads inside (v :: rest) listed follow
  have stop : symbol .rightParen "')'" (v :: rest) = .ok rest := symbol_cons closing _ _
  simp only [List.append_assoc, List.cons_append, List.nil_append, start, read, stop, bind,
    Except.bind]
  rfl

theorem nameList_reads {ns : List String} (filled : ns ≠ []) (named : ∀ n ∈ ns, IsColumnName n)
    (follows : Token → Prop) :
    ReadsAs nameList (.mark '(' :: (namePieces ns ++ [.mark ')'])) follows ns := by
  apply inside_parentheses (names_reads filled named)
  intro t closing
  have kind : t.kind = .rightParen := closing.kind
  simp [kind]

/-! Values. -/

def valuePieces (vs : List String) : List Piece :=
  separated (.mark ',') (vs.map fun v => [.value v])

theorem known_valuePieces (vs : List String) : ∀ p ∈ valuePieces vs, p.Known :=
  known_listed .value fun _ => trivial

private theorem goes_listed {v : String} (t : Token) (is : (Piece.value v).Is t) :
    endsListedValue t = false := by
  have kind : t.kind = .string := is.kind
  simp [endsListedValue, kind]

private theorem repeats_values (source : List Char) :
    Repeats (.mark ',') (fun u => u.kind = .rightParen) (value source endsListedValue)
      (moreValues source) where
  stop := by
    intro rest apart
    rw [moreValues.eq_def]
    cases rest with
    | nil => rfl
    | cons u rest => simp [apart u rfl]
  step := by
    intro t ts v after comma read
    have kind : t.kind = .comma := comma.kind
    rw [moreValues]
    simp only [kind, if_true]
    split
    · rename_i failed
      simp [read] at failed
    · rename_i found
      rw [read] at found
      cases found
      rfl

private theorem valueList_eq (source : List Char) : valueList source = fun ts => do
    let ts ← symbol .leftParen "'('" ts
    let (vs, ts) ← listing (value source endsListedValue) (moreValues source) ts
    let ts ← symbol .rightParen "')'" ts
    return (vs, ts) := by
  funext ts
  simp only [valueList, listing, bind_assoc]
  rfl

theorem valueList_reads {vs : List String} (filled : vs ≠ []) (source : List Char)
    (follows : Token → Prop) :
    ReadsAs (valueList source) (.mark '(' :: (valuePieces vs ++ [.mark ')'])) follows vs := by
  have each : ∀ v ∈ vs, ReadsAs (value source endsListedValue) [.value v]
      (fun u => (Piece.mark ',').Is u ∨ u.kind = .rightParen) v := by
    intro v _ ts rest spelled next
    apply value_reads goes_listed source ts rest spelled
    intro u first
    rcases next u first with comma | closing
    · have kind : u.kind = .comma := comma.kind
      simp [endsListedValue, kind]
    · simp [endsListedValue, closing]
  rw [valueList_eq]
  apply inside_parentheses ((repeats_values source).reads filled each)
  intro t closing
  exact closing.kind

/-! Conditions. -/

def predicatePieces (p : Predicate) : List Piece := [.name p.column, .mark '=', .value p.value]

def filterPieces (f : Filter) : List Piece := separated (.keyword "AND") (f.map predicatePieces)

theorem known_filterPieces (f : Filter) : ∀ p ∈ filterPieces f, p.Known := by
  have sign : (Piece.mark '=').Known := by decide
  apply known_separated (by decide)
  intro group member
  obtain ⟨p, -, rfl⟩ := List.mem_map.1 member
  simp only [predicatePieces, List.forall_mem_cons]
  exact ⟨trivial, sign, trivial, by simp⟩

private theorem not_isKeyword_value {v : String} {t : Token} (is : (Piece.value v).Is t)
    (w : String) : t.isKeyword w = false := by
  have kind : t.kind = .string := is.kind
  simp [Token.isKeyword, Token.isQuoted, kind]

theorem goes_assigned {v : String} (t : Token) (is : (Piece.value v).Is t) :
    endsAssignedValue t = false := by
  have kind : t.kind = .string := is.kind
  simp [endsAssignedValue, kind, not_isKeyword_value is]

private theorem goes_compared {v : String} (t : Token) (is : (Piece.value v).Is t) :
    endsComparedValue t = false := by
  have kind : t.kind = .string := is.kind
  simp [endsComparedValue, kind, not_isKeyword_value is]

private theorem predicate_reads {p : Predicate} (isName : IsColumnName p.column)
    (source : List Char) :
    ReadsAs (predicate source) (predicatePieces p) (fun u => endsComparedValue u = true) p := by
  intro ts rest spelled ends
  obtain ⟨t, us, named, tail, rfl⟩ := List.forall₂_cons_left_iff.1 spelled
  obtain ⟨u, vs, equals, valued, rfl⟩ := List.forall₂_cons_left_iff.1 tail
  have start := name_cons named isName "column name" (u :: (vs ++ rest))
  have sign : symbol .equals "'='" (u :: (vs ++ rest)) = .ok (vs ++ rest) :=
    symbol_cons equals _ _
  have read := value_reads goes_compared source vs rest valued ends
  simp only [predicate, List.cons_append, start, sign, read, bind, Except.bind]
  rfl

private theorem repeats_predicates (source : List Char) :
    Repeats (.keyword "AND") (Piece.mark ';').Is (predicate source) (morePredicates source) where
  stop := by
    intro rest apart
    rw [morePredicates.eq_def]
    cases rest with
    | nil => rfl
    | cons u rest =>
      have plain := @isKeyword_of_is _ u (apart u rfl) "AND" (by decide)
      simp [plain, keywordPiece]
  step := by
    intro t ts p after and read
    have found : t.isKeyword "AND" = true := isKeyword_of_is and (by decide)
    rw [morePredicates]
    simp only [found, if_true]
    split
    · rename_i failed
      simp [read] at failed
    · rename_i again
      rw [read] at again
      cases again
      rfl

theorem conditions_reads {f : Filter} (filled : f ≠ [])
    (named : ∀ p ∈ f, IsColumnName p.column) (source : List Char) :
    ReadsAs (conditions source) (filterPieces f) (Piece.mark ';').Is f := by
  apply (repeats_predicates source).reads filled
  intro p member ts rest spelled next
  apply predicate_reads (named p member) source ts rest spelled
  intro u first
  rcases next u first with and | semicolon
  · have found : u.isKeyword "AND" = true := isKeyword_of_is and (by decide)
    simp [endsComparedValue, found]
  · have kind : u.kind = .semicolon := semicolon.kind
    simp [endsComparedValue, kind]

/-! The end of a statement. -/

theorem head_of_closes {rest : Tokens} (closes : Closes rest) :
    ∀ u ∈ rest.head?, (Piece.mark ';').Is u := by
  intro u first
  cases closes with
  | nothing => simp at first
  | @semicolon t is =>
    have same : t = u := by simpa using first
    exact same ▸ is

theorem finish_of_closes {rest : Tokens} (closes : Closes rest) : finish rest = .ok () := by
  cases closes with
  | nothing => rfl
  | semicolon is =>
    have ended := atKind_cons is .semicolon []
    simp [finish, ended, Piece.kind, markKind]

end Cellstore.Statement
