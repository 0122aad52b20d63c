import Cellstore.Proofs.Token.Pieces
import Cellstore.Proofs.Token.Stream

/-! The tokens of a written statement.
Between pieces only the kind of the last one is handed on, and no piece changes how the next
is read, so the tokens of a text are those of its pieces in order. -/
namespace Cellstore.Token
open Cellstore.Text (isBlank trim dropRightWhile)

theorem reads_spelled {p : Piece} {s after : List Char} (spelled : p.Spells s) (ends : Ends after)
    {previous : Option Kind} (free : previous ≠ some .parameter) (start : Nat) :
    ∃ t, p.Is t ∧ Reads previous start s after [t] (some p.kind) := by
  obtain ⟨c, rest, text, rfl, reads, lexed⟩ := lexeme_spelled spelled ends free
  have plain := (Piece.plain_kind spelled).1
  exact ⟨_, ⟨rfl, reads⟩, reads_of_lexeme lexed (swallows_of_ne plain ..) start⟩

theorem scan_blanks {gap : List Char} (blank : Blanks gap)
    (previous : Option Kind) (start : Nat) (after : List Char) :
    scan previous start (gap ++ after) = scan previous (start + gap.length) after := by
  induction gap generalizing start with
  | nil => rfl
  | cons c gap hyp =>
    have lexed : lexeme previous c (gap ++ after) = .ok ⟨1, none⟩ := by
      simp [lexeme, blank c (by simp)]
    rw [List.cons_append, scan, lexed]
    simp only [bind, Except.bind, Nat.sub_self, List.drop_zero]
    rw [hyp (fun d member => blank d (by simp [member]))]
    congr 1
    simp only [List.length_cons]
    omega

theorem reads_blanks {gap : List Char} (blank : Blanks gap) (previous : Option Kind) (start : Nat)
    (after : List Char) : Reads previous start gap after [] previous := by
  rw [Reads, scan_blanks blank]
  cases scan previous (start + gap.length) after <;> rfl

theorem reads_written {ps : List Piece} {body after : List Char} (written : Written ps body)
    (ends : Ends after) {previous : Option Kind} (free : previous ≠ some .parameter)
    (start : Nat) :
    ∃ ts last, List.Forall₂ Piece.Is ps ts ∧ last ≠ some .parameter ∧
      Reads previous start body after ts last := by
  -- The kind of the last token is carried on. No piece is a parameter, after which words are plain.
  induction written generalizing previous start with
  | @last p s spelled =>
    obtain ⟨t, is, reads⟩ := reads_spelled spelled ends free start
    have plain := (Piece.plain_kind spelled).2
    exact ⟨[t], some p.kind, .cons is .nil, by simpa using plain, reads⟩
  | @next p s gap ps rest spelled apart blank more hyp =>
    have cut := ends_of_blanks apart blank (rest ++ after)
    obtain ⟨t, is, reads⟩ := reads_spelled spelled cut free start
    have plain := (Piece.plain_kind spelled).2
    have plainNext : some p.kind ≠ some .parameter := by simpa using plain
    obtain ⟨ts, last, all, lastFree, readsMore⟩ := hyp plainNext (start + (s ++ gap).length)
    refine ⟨t :: ts, last, .cons is all, lastFree, ?_⟩
    exact (reads.append (reads_blanks blank ..)).append readsMore

/-! A statement stands between blanks, and a semicolon may end it. -/

/-- What may stand after the last piece of a statement. -/
inductive Ending : List Char → Prop where
  | plain {tail : List Char} (blank : Blanks tail) : Ending tail
  | semicolon {gap tail : List Char} (blank : Blanks gap)
      (blankTail : Blanks tail) : Ending (gap ++ ';' :: tail)

/-- The tokens after the last piece: none, or a semicolon. -/
inductive Closes : List Token → Prop where
  | nothing : Closes []
  | semicolon {t : Token} (is : (Piece.mark ';').Is t) : Closes [t]

/-- The text is not empty, and no blank stands at either end of it. -/
def Solid (s : List Char) : Prop :=
  (∃ c ∈ s.head?, isBlank c = false) ∧ ∃ c ∈ s.getLast?, isBlank c = false

instance (s : List Char) : Decidable (Solid s) :=
  @instDecidableAnd _ _ (Option.decidableExistsMem _) (Option.decidableExistsMem _)

theorem Solid.append {s t : List Char} (first : Solid s) (last : Solid t)
    (gap : List Char) : Solid (s ++ gap ++ t) := by
  obtain ⟨⟨c, head, left⟩, -⟩ := first
  obtain ⟨-, ⟨d, tail, right⟩⟩ := last
  refine ⟨⟨c, ?_, left⟩, ⟨d, ?_, right⟩⟩
  · rw [Option.mem_def] at head ⊢
    simp [List.head?_append, head]
  · rw [Option.mem_def] at tail ⊢
    simp [List.getLast?_append, tail]

private theorem solid_keyword {w : String} {s : List Char}
    (spelled : (Piece.keyword w).Spells s) : Solid s := by
  have letters := isAlpha_of_spelled spelled
  have filled := ne_nil_of_spelled spelled
  refine ⟨⟨s.head filled, List.head?_eq_some_head filled, ?_⟩,
    ⟨s.getLast filled, List.getLast?_eq_some_getLast filled, ?_⟩⟩
  · exact not_isBlank_of_isAlpha (letters _ (List.head_mem filled))
  · exact not_isBlank_of_isAlpha (letters _ (List.getLast_mem filled))

private theorem solid_quoted {q : Char} (solid : isBlank q = false) (s : String) :
    Solid (quoted q s) := by
  refine ⟨⟨q, rfl, solid⟩, ⟨q, ?_, solid⟩⟩
  simp [quoted, List.getLast?_cons, List.getLast?_append]

private theorem solid_mark : ∀ c ∈ statementMarks, isBlank c = false :=
  forall_mem_of_all (by decide)

theorem solid_spelled {p : Piece} {s : List Char} (spelled : p.Spells s) : Solid s := by
  cases p with
  | keyword w => exact solid_keyword spelled
  | mark c =>
    obtain ⟨member, rfl⟩ := spelled
    exact ⟨⟨c, rfl, solid_mark c member⟩, ⟨c, rfl, solid_mark c member⟩⟩
  | name n =>
    cases spelled
    exact solid_quoted (by decide) n
  | value v =>
    cases spelled
    exact solid_quoted (by decide) v

theorem solid_written {ps : List Piece} {body : List Char} (written : Written ps body) :
    Solid body := by
  induction written with
  | last spelled => exact solid_spelled spelled
  | next spelled _ _ _ hyp => exact (solid_spelled spelled).append hyp _

private theorem dropWhile_of_head {p : Char → Bool} {s : List Char}
    (first : ∃ c ∈ s.head?, p c = false) : s.dropWhile p = s := by
  obtain ⟨c, head, stays⟩ := first
  cases s with
  | nil => simp at head
  | cons d s =>
    have same : d = c := by simpa using head
    simp [same, stays]

theorem dropRightWhile_append {p : Char → Bool} {core : List Char}
    (last : ∃ c ∈ core.getLast?, p c = false) (tail : List Char) :
    dropRightWhile p (core ++ tail) = core ++ dropRightWhile p tail := by
  have back : ∃ c ∈ core.reverse.head?, p c = false := by
    rw [List.head?_reverse]
    exact last
  rw [dropRightWhile, List.reverse_append, List.dropWhile_append, dropWhile_of_head back]
  split_ifs with all
  · rw [dropRightWhile, List.isEmpty_iff.mp all]
    simp
  · simp [dropRightWhile]

theorem dropRightWhile_append_of_all {p : Char → Bool} {tail : List Char}
    (all : ∀ c ∈ tail, p c = true) (s : List Char) :
    dropRightWhile p (s ++ tail) = dropRightWhile p s := by
  have back : ∀ c ∈ tail.reverse, p c = true := fun c member => all c (List.mem_reverse.mp member)
  rw [dropRightWhile, List.reverse_append, List.dropWhile_append_of_pos back, dropRightWhile]

theorem dropRightWhile_of_all {p : Char → Bool} {tail : List Char}
    (all : ∀ c ∈ tail, p c = true) : dropRightWhile p tail = [] :=
  dropRightWhile_append_of_all all []

theorem dropRightWhile_prefix (p : Char → Bool) (s : List Char) : dropRightWhile p s <+: s := by
  have back := List.reverse_prefix.mpr (List.dropWhile_suffix (l := s.reverse) p)
  rwa [List.reverse_reverse] at back

/-- The blanks behind a text that begins and ends solid are cut from what follows it. -/
theorem trim_append {core : List Char} (solid : Solid core) (tail : List Char) :
    trim (core ++ tail) = core ++ dropRightWhile isBlank tail := by
  have front : ∃ c ∈ (core ++ tail).head?, isBlank c = false := by
    obtain ⟨c, head, stays⟩ := solid.1
    refine ⟨c, ?_, stays⟩
    rw [Option.mem_def] at head ⊢
    simp [List.head?_append, head]
  rw [trim, dropWhile_of_head front, dropRightWhile_append solid.2]

theorem trim_append_blanks {tail : List Char} (blank : Blanks tail) (s : List Char) :
    trim (s ++ tail) = trim s := by
  have none : tail.dropWhile isBlank = [] := List.dropWhile_eq_nil_iff.mpr blank
  rw [trim, List.dropWhile_append]
  split_ifs with all
  · rw [trim, none, List.isEmpty_iff.mp all]
  · exact dropRightWhile_append_of_all blank _

theorem trim_of_solid {lead core tail : List Char} (solid : Solid core)
    (blank : Blanks lead) (blankTail : Blanks tail) :
    trim (lead ++ (core ++ tail)) = core := by
  have same : trim (lead ++ (core ++ tail)) = trim (core ++ tail) := by
    rw [trim, List.dropWhile_append_of_pos blank, trim]
  rw [same, trim_append solid, dropRightWhile_of_all blankTail, List.append_nil]

private theorem head?_dropWhile {p : Char → Bool} {s : List Char} (filled : s.dropWhile p ≠ []) :
    ∃ c ∈ (s.dropWhile p).head?, p c = false := by
  refine ⟨_, List.head?_eq_some_head filled, ?_⟩
  simpa using List.head_dropWhile_not p filled

theorem exists_margins {s : List Char} (filled : trim s ≠ []) :
    ∃ lead tail, s = lead ++ (trim s ++ tail) ∧ Blanks lead ∧ Blanks tail ∧ Solid (trim s) := by
  have parts := List.takeWhile_append_dropWhile (p := isBlank) (l := s)
  generalize core : s.dropWhile isBlank = inner at parts
  have back := List.takeWhile_append_dropWhile (p := isBlank) (l := inner.reverse)
  have cut : trim s = (inner.reverse.dropWhile isBlank).reverse := by rw [trim, core, dropRightWhile]
  have whole : inner = trim s ++ (inner.reverse.takeWhile isBlank).reverse := by
    rw [cut, ← List.reverse_append, back, List.reverse_reverse]
  refine ⟨s.takeWhile isBlank, (inner.reverse.takeWhile isBlank).reverse, ?_, ?_, ?_, ?_, ?_⟩
  · rw [← whole, parts]
  · exact fun c member => List.mem_takeWhile_imp member
  · exact fun c member => List.mem_takeWhile_imp (List.mem_reverse.mp member)
  · have first : inner.head? = (trim s).head? := by
      rw [whole]
      exact List.head?_append_of_ne_nil _ filled
    rw [← first, ← core]
    refine head?_dropWhile fun none => filled ?_
    rw [trim, none]
    rfl
  · rw [cut] at filled ⊢
    rw [List.getLast?_reverse]
    exact head?_dropWhile fun none => filled (by rw [none, List.reverse_nil])

theorem ends_of_gap {gap : List Char} (blank : Blanks gap) (rest : List Char) :
    Ends (gap ++ ';' :: rest) := by
  by_cases apart : gap = []
  · rw [apart]
    exact ends_semicolon rest
  · exact ends_of_blanks apart blank _

/-- The tokens of a whole statement are those of its pieces, and one for a semicolon. -/
theorem tokenize_statement {ps : List Piece} {lead body ending : List Char}
    (blank : Blanks lead) (written : Written ps body) (ended : Ending ending) :
    ∃ after ts rest, trim (lead ++ (body ++ ending)) = body ++ after ∧
      List.Forall₂ Piece.Is ps ts ∧ Closes rest ∧ tokenize (body ++ after) = .ok (ts ++ rest) := by
  have solid := solid_written written
  cases ended with
  | plain blankTail =>
    obtain ⟨ts, last, all, -, scanned⟩ :=
      reads_written written ends_nil (by simp : none ≠ some Kind.parameter) 0
    refine ⟨[], ts, [], ?_, all, .nothing, ?_⟩
    · rw [trim_of_solid solid blank blankTail, List.append_nil]
    · rw [tokenize, scanned, scan]
      rfl
  | @semicolon gap tail blankGap blankTail =>
    have spelled : (Piece.mark ';').Spells [';'] := ⟨by decide, rfl⟩
    have core := solid.append (solid_spelled spelled) gap
    obtain ⟨ts, last, all, free, scanned⟩ :=
      reads_written written (ends_of_gap blankGap []) (by simp : none ≠ some Kind.parameter) 0
    obtain ⟨t, is, scannedMark⟩ := reads_spelled spelled ends_nil free (0 + body.length + gap.length)
    rw [Reads, List.append_nil] at scannedMark
    refine ⟨gap ++ [';'], ts, [t], ?_, all, .semicolon is, ?_⟩
    · have shape : body ++ (gap ++ ';' :: tail) = body ++ gap ++ [';'] ++ tail := by simp
      rw [shape, trim_of_solid core blank blankTail, List.append_assoc]
    · rw [tokenize, scanned, scan_blanks blankGap, scannedMark, scan]
      rfl

end Cellstore.Token
