import Cellstore.Proofs.Token.Extension
import Mathlib.Data.List.ModifyLast

/-! The tokens of a text with a semicolon behind it.
They are the tokens of the text and one for the semicolon, with one exception. A command word that
swallows the end of the text swallows the blanks before the semicolon as well, which are trimmed
where nothing comes behind them. -/
namespace Cellstore.Token
open Cellstore.Text (isBlank trim)

variable {tail : List Char} {previous : Option Kind}

/-- Can an embedded command start with a word of this kind? -/
def startsCommand (previous : Option Kind) (kind : Kind) : Bool :=
  kind == .command &&
    (previous == none || previous == some .semicolon || previous == some .blockStart)

/-- Is the last token what a command word swallowed? -/
def endsSwallowed (previous : Option Kind) : List Token → Bool
  | [] => false
  | [t, u] => startsCommand previous t.kind && u.kind == .string
  | t :: ts => endsSwallowed (some t.kind) ts

/-- The token of a text that stops `k` characters later. -/
def stretched (k : Nat) (t : Token) : Token := { t with stop := t.stop + k }

/-- The tokens if `k` blanks and a semicolon stand behind them. -/
def widened (k : Nat) (previous : Option Kind) (ts : List Token) : List Token :=
  if endsSwallowed previous ts then ts.modifyLast (stretched k) else ts

/-- The token of the text that a command word swallows, unless it is blank. -/
def embedded (start : Nat) (run : List Char) : List Token :=
  if (trim run).isEmpty then []
  else [⟨.string, String.ofList (trim run), start, start + run.length⟩]

def kindBehind (kind : Kind) (run : List Char) : Kind :=
  if (trim run).isEmpty then kind else .string

theorem swallows_eq (kind : Kind) (after : List Char) :
    swallows previous kind after = (startsCommand previous kind && after.head? != some ';') := by
  simp only [swallows, startsCommand, Bool.and_assoc, Bool.and_comm (after.head? != some ';')]

/-! The last token. -/

theorem endsSwallowed_cons {t : Token} {ts : List Token}
    (apart : ∀ u, ts = [u] → startsCommand previous t.kind = true → u.kind ≠ .string) :
    endsSwallowed previous (t :: ts) = endsSwallowed (some t.kind) ts := by
  match ts with
  | [] => rfl
  | [u] =>
    have plain : (startsCommand previous t.kind && u.kind == .string) = false := by
      simpa using apart u rfl
    rw [endsSwallowed, plain]
    rfl
  | _ :: _ :: _ => rfl

theorem widened_append {k : Nat} {next : Option Kind} {ts us : List Token}
    (same : endsSwallowed previous (ts ++ us) = endsSwallowed next us) :
    widened k previous (ts ++ us) = ts ++ widened k next us := by
  unfold widened
  rw [same]
  split_ifs with swallowed
  · refine List.modifyLast_append_of_right_ne_nil _ ts us ?_
    rintro rfl
    cases swallowed
  · rfl

theorem exists_command_of_endsSwallowed {ts : List Token}
    (swallowed : endsSwallowed previous ts = true) (k : Nat) :
    ∃ lead w t, ts = lead ++ [w, t] ∧ w.kind = .command ∧ t.kind = .string ∧
      widened k previous ts = lead ++ [w, stretched k t] := by
  have shape : ∃ lead w t, ts = lead ++ [w, t] ∧ w.kind = .command ∧ t.kind = .string := by
    fun_induction endsSwallowed previous ts with
    | case1 => cases swallowed
    | case2 previous w t =>
      simp only [startsCommand, Bool.and_eq_true, beq_iff_eq] at swallowed
      exact ⟨[], w, t, rfl, swallowed.1.1, swallowed.2⟩
    | case3 previous u ts _ ih =>
      obtain ⟨lead, w, t, rfl, command, string⟩ := ih swallowed
      exact ⟨u :: lead, w, t, rfl, command, string⟩
  obtain ⟨lead, w, t, rfl, command, string⟩ := shape
  refine ⟨lead, w, t, rfl, command, string, ?_⟩
  rw [widened, if_pos swallowed, List.append_cons, List.modifyLast_concat, ← List.append_cons]

/-! What a command word swallows. -/

theorem exists_parts {c : Char} {rest : List Char} {x : Lexeme}
    (lexed : lexeme previous c rest = .ok x) (gap : Blanks tail) (more : List Char) :
    ∃ front back, rest = front ++ back ∧ x.size = (c :: front).length ∧
      rest.drop (x.size - 1) = back ∧
      lexeme previous c (front ++ (back ++ (tail ++ ';' :: more))) = .ok x := by
  obtain ⟨inside, same⟩ := lexeme_append lexed gap more
  have positive := size_pos (lexes_of_lexeme lexed)
  refine ⟨rest.take (x.size - 1), rest.drop (x.size - 1), (List.take_append_drop ..).symm, ?_, rfl,
    ?_⟩
  · simp only [List.length_cons, List.length_take]
    omega
  · rwa [← List.append_assoc, List.take_append_drop]

theorem swallowed_cons_eq_ok_iff {c : Char} {rest : List Char} {n : Nat} :
    swallowed previous (c :: rest) = .ok n ↔ ∃ x, lexeme previous c rest = .ok x ∧
      if (rest.drop (x.size - 1)).head? = some ';' then x.size = n
      else ∃ m, swallowed ((x.token.map (·.1)) <|> previous) (rest.drop (x.size - 1)) = .ok m ∧
        x.size + m = n := by
  rw [swallowed, bind_eq_ok_iff]
  refine exists_congr fun x => and_congr_right fun _ => ?_
  dsimp only
  split_ifs with stops
  · simp [pure, Except.pure]
  · simp [bind_eq_ok_iff, pure, Except.pure]

theorem head?_ne_semicolon (gap : Blanks tail) (filled : tail ≠ []) (after : List Char) :
    (tail ++ after).head? ≠ some ';' := by
  cases tail with
  | nil => exact absurd rfl filled
  | cons c tail =>
    have blank := gap c (List.mem_cons_self ..)
    rintro ⟨⟩
    exact absurd blank (by decide)

theorem swallowed_gap (filled : tail ≠ []) (gap : Blanks tail) (more : List Char) :
    swallowed previous (tail ++ ';' :: more) = .ok tail.length := by
  induction tail with
  | nil => exact absurd rfl filled
  | cons c tail ih =>
    obtain ⟨blank, rest⟩ := List.forall_mem_cons.mp gap
    refine swallowed_cons_eq_ok_iff.mpr ⟨⟨1, none⟩, if_pos blank, ?_⟩
    by_cases last : tail = []
    · subst last
      exact (if_pos rfl).mpr rfl
    · refine (if_neg (head?_ne_semicolon rest last _)).mpr ⟨_, ih last rest, ?_⟩
      exact Nat.add_comm ..

/-- What is swallowed ends at a semicolon inside of the text, or takes in the blanks behind it. -/
theorem swallowed_append {s : List Char} {n : Nat} (filled : s ≠ [])
    (size : swallowed previous s = .ok n) (gap : Blanks tail) (more : List Char) :
    (∃ rest, s.drop n = ';' :: rest) ∧ swallowed previous (s ++ (tail ++ ';' :: more)) = .ok n ∨
      n = s.length ∧ swallowed previous (s ++ (tail ++ ';' :: more)) = .ok (n + tail.length) := by
  induction length : s.length using Nat.strongRecOn generalizing previous s n with
  | _ length ih =>
    subst length
    cases s with
    | nil => exact absurd rfl filled
    | cons c rest =>
      obtain ⟨⟨k, token⟩, lexed, goes⟩ := swallowed_cons_eq_ok_iff.mp size
      obtain ⟨front, back, rfl, rfl, cut, same⟩ := exists_parts lexed gap more
      have behind (m : Nat) :
          (c :: (front ++ back)).drop ((c :: front).length + m) = back.drop m := by
        rw [← List.cons_append, List.drop_length_add_append]
      have cutLonger : (front ++ (back ++ (tail ++ ';' :: more))).drop ((c :: front).length - 1) =
          back ++ (tail ++ ';' :: more) := by simp
      have longer {n : Nat} (reads : if (back ++ (tail ++ ';' :: more)).head? = some ';' then
            (c :: front).length = n
          else ∃ m, swallowed ((token.map (·.1)) <|> previous) (back ++ (tail ++ ';' :: more)) =
            .ok m ∧ (c :: front).length + m = n) :
          swallowed previous (c :: (front ++ back) ++ (tail ++ ';' :: more)) = .ok n := by
        rw [List.cons_append, List.append_assoc, swallowed_cons_eq_ok_iff]
        exact ⟨_, same, by rwa [cutLonger]⟩
      rw [cut] at goes
      by_cases stops : back.head? = some ';'
      · rw [if_pos stops] at goes
        subst goes
        obtain ⟨rest, rfl⟩ := List.head?_eq_some_iff.mp stops
        exact .inl ⟨⟨rest, behind 0⟩, longer ((if_pos rfl).mpr rfl)⟩
      rw [if_neg stops] at goes
      obtain ⟨m, later, rfl⟩ := goes
      by_cases last : back = []
      · -- The lexeme ends the text, and the blanks behind it are swallowed after it.
        subst last
        obtain rfl : m = 0 := by
          rw [swallowed] at later
          exact (Except.ok.inj later).symm
        refine .inr ⟨by simp, longer ?_⟩
        rw [List.nil_append]
        by_cases bare : tail = []
        · subst bare
          exact (if_pos rfl).mpr rfl
        · exact (if_neg (head?_ne_semicolon gap bare _)).mpr ⟨_, swallowed_gap bare gap more, rfl⟩
      have goesOn : (back ++ (tail ++ ';' :: more)).head? ≠ some ';' := by
        rwa [List.head?_append_of_ne_nil _ last]
      have shorter : back.length < (c :: (front ++ back)).length := by
        simp only [List.length_cons, List.length_append]
        omega
      rcases ih _ shorter last later rfl with ⟨inner, swallows⟩ | ⟨rfl, swallows⟩
      · exact .inl ⟨by rwa [behind], longer ((if_neg goesOn).mpr ⟨m, swallows, rfl⟩)⟩
      · refine .inr ⟨?_, longer ((if_neg goesOn).mpr ⟨_, swallows, ?_⟩)⟩
        · simp only [List.length_cons, List.length_append]
          omega
        · exact (Nat.add_assoc ..).symm

theorem swallowed_stops {s : List Char} {n : Nat} (size : swallowed previous s = .ok n) :
    n ≤ s.length ∧ (s.drop n = [] ∨ ∃ rest, s.drop n = ';' :: rest) := by
  cases s with
  | nil =>
    rw [swallowed] at size
    cases size
    exact ⟨Nat.le_refl 0, .inl rfl⟩
  | cons c rest =>
    have gap : Blanks [] := by simp [Blanks]
    rcases swallowed_append (List.cons_ne_nil c rest) size gap [] with ⟨⟨after, inner⟩, -⟩ | ⟨rfl, -⟩
    · have positive := congrArg List.length inner
      simp only [List.length_drop, List.length_cons] at positive ⊢
      exact ⟨by omega, .inr ⟨after, inner⟩⟩
    · exact ⟨Nat.le_refl _, .inl List.drop_length⟩

/-! Scanning. -/

theorem reads_semicolon (previous : Option Kind) (start : Nat) (after : List Char) :
    Reads previous start [';'] after [⟨.semicolon, ";", start, start + 1⟩] (some .semicolon) :=
  reads_plainMark (List.mem_cons_self ..) previous start after

theorem kind_of_scan_semicolon {start : Nat} {s : List Char} {ts : List Token}
    (scanned : scan previous start (';' :: s) = .ok ts) :
    ∃ t more, ts = t :: more ∧ t.kind = .semicolon := by
  have reads := reads_semicolon previous start s
  rw [Reads, List.singleton_append, scanned] at reads
  obtain ⟨more, -, rfl⟩ := map_eq_ok_iff.mp reads.symm
  exact ⟨_, more, rfl, rfl⟩

theorem reads_of_command {c : Char} {front run after text : List Char} {kind : Kind}
    (lexed : lexeme previous c (front ++ (run ++ after)) =
      .ok ⟨(c :: front).length, some (kind, text)⟩)
    (takes : swallows previous kind (run ++ after) = true)
    (size : swallowed (some kind) (run ++ after) = .ok run.length) (start : Nat) :
    Reads previous start (c :: front ++ run) after
      (⟨kind, String.ofList text, start, start + (c :: front).length⟩ ::
        embedded (start + (c :: front).length) run) (some (kindBehind kind run)) := by
  have cut : (front ++ (run ++ after)).drop ((c :: front).length - 1) = run ++ after := by simp
  rw [Reads, List.cons_append, List.cons_append, List.append_assoc, scan, lexed]
  simp only [bind, Except.bind, cut, takes, if_true, size, List.take_left, List.drop_left, embedded,
    kindBehind]
  have stop : start + (c :: front).length + run.length = start + (c :: (front ++ run)).length := by
    simp only [List.length_cons, List.length_append]
    omega
  rw [stop]
  split_ifs
  · cases scan (some kind) (start + (c :: (front ++ run)).length) after <;> rfl
  · cases scan (some .string) (start + (c :: (front ++ run)).length) after <;> rfl

section
variable {c : Char} {front back text : List Char} {kind : Kind} {t : Token} {n start : Nat}
  {others : List Token}

theorem exists_semicolon_of_keeps (starts : startsCommand previous kind = true)
    (keeps : swallows previous kind back = false) : ∃ rest, back = ';' :: rest := by
  rw [swallows_eq, starts, Bool.true_and] at keeps
  exact List.head?_eq_some_iff.mp (by simpa using keeps)

theorem not_swallows_append (keeps : swallows previous kind back = false) (after : List Char) :
    swallows previous kind (back ++ after) = false := by
  cases starts : startsCommand previous kind with
  | false => rw [swallows_eq, starts, Bool.false_and]
  | true =>
    obtain ⟨rest, rfl⟩ := exists_semicolon_of_keeps starts keeps
    rw [swallows_eq, List.cons_append, List.head?_cons, bne_self_eq_false, Bool.and_false]

private theorem endsSwallowed_keeps (keeps : swallows previous t.kind back = false)
    (scanned : scan (some t.kind) start back = .ok others) :
    endsSwallowed previous (t :: others) = endsSwallowed (some t.kind) others := by
  refine endsSwallowed_cons fun u single starts => ?_
  obtain ⟨rest, rfl⟩ := exists_semicolon_of_keeps starts keeps
  obtain ⟨v, more, rfl, semicolon⟩ := kind_of_scan_semicolon scanned
  cases single
  simp [semicolon]

private theorem endsSwallowed_behind {stop : Nat} {run : List Char}
    (scanned : scan (some (kindBehind t.kind run)) start (';' :: back) = .ok others) :
    endsSwallowed previous (t :: embedded stop run ++ others) =
      endsSwallowed (some (kindBehind t.kind run)) others := by
  obtain ⟨u, more, rfl, semicolon⟩ := kind_of_scan_semicolon scanned
  have plain (v : Token) (single : u :: more = [v]) : v.kind ≠ .string := by
    cases single
    simp [semicolon]
  unfold embedded kindBehind
  split_ifs
  · exact endsSwallowed_cons fun v single _ => plain v single
  · refine (endsSwallowed_cons fun v single => ?_).trans
      (endsSwallowed_cons fun v single _ => plain v single)
    cases single

private theorem widened_embedded (starts : startsCommand previous t.kind = true) (gap : Blanks tail)
    (stop : Nat) (run : List Char) :
    widened tail.length previous (t :: embedded stop run) = t :: embedded stop (run ++ tail) := by
  unfold embedded
  rw [trim_append_blanks gap]
  split_ifs
  · rfl
  · have swallowed : endsSwallowed previous
        [t, ⟨.string, String.ofList (trim run), stop, stop + run.length⟩] = true := by
      simpa [endsSwallowed] using starts
    have whole := List.modifyLast_concat (stretched tail.length)
      ⟨.string, String.ofList (trim run), stop, stop + run.length⟩ [t]
    rw [widened, swallowed, if_pos rfl]
    refine whole.trans ?_
    simp [stretched, Nat.add_assoc]

private theorem reads_lastCommand (gap : Blanks tail) (more : List Char)
    (lexed : lexeme previous c (front ++ (tail ++ ';' :: more)) =
      .ok ⟨(c :: front).length, some (kind, text)⟩)
    (starts : startsCommand previous kind = true) (start : Nat) :
    Reads previous start (c :: front ++ tail) (';' :: more)
      [⟨kind, String.ofList text, start, start + (c :: front).length⟩] (some kind) := by
  by_cases bare : tail = []
  · subst bare
    rw [List.append_nil]
    refine reads_of_lexeme lexed ?_ start
    rw [swallows_eq, List.nil_append, List.head?_cons, bne_self_eq_false, Bool.and_false]
  · have swallows : Token.swallows previous kind (tail ++ ';' :: more) = true := by
      rw [swallows_eq, starts, Bool.true_and, bne_iff_ne]
      exact head?_ne_semicolon gap bare _
    have reads := reads_of_command lexed swallows (swallowed_gap bare gap more) start
    have blank : trim tail = [] := trim_append_blanks gap []
    simpa [embedded, kindBehind, blank] using reads

private theorem exists_reads_command {run rest : List Char} (gap : Blanks tail) (more : List Char)
    (lexed : lexeme previous c (front ++ (run ++ rest ++ (tail ++ ';' :: more))) =
      .ok ⟨(c :: front).length, some (kind, text)⟩)
    (takes : swallows previous kind (run ++ rest) = true)
    (size : swallowed (some kind) (run ++ rest) = .ok run.length)
    (behind : scan (some (kindBehind kind run)) (start + (c :: front).length + run.length) rest =
      .ok others)
    (ih : ∃ last, Reads (some (kindBehind kind run)) (start + (c :: front).length + run.length)
      (rest ++ tail) (';' :: more) (widened tail.length (some (kindBehind kind run)) others) last) :
    ∃ last, Reads previous start (c :: front ++ (run ++ rest ++ tail)) (';' :: more)
      (widened tail.length previous
        (⟨kind, String.ofList text, start, start + (c :: front).length⟩ ::
          embedded (start + (c :: front).length) run ++ others)) last := by
  have starts : startsCommand previous kind = true := by
    rw [swallows_eq, Bool.and_eq_true] at takes
    exact takes.1
  let t : Token := ⟨kind, String.ofList text, start, start + (c :: front).length⟩
  by_cases none : run ++ rest = []
  · obtain ⟨rfl, rfl⟩ := List.append_eq_nil_iff.mp none
    rw [scan] at behind
    cases behind
    exact ⟨some kind, reads_lastCommand gap more lexed starts start⟩
  have longer : swallows previous kind (run ++ rest ++ (tail ++ ';' :: more)) = true := by
    rwa [swallows_eq, List.head?_append_of_ne_nil _ none, ← swallows_eq]
  rcases swallowed_append none size gap more with ⟨⟨after, inner⟩, same⟩ | ⟨all, same⟩
  · -- A semicolon in the text ends what is swallowed.
    rw [List.drop_left] at inner
    subst inner
    obtain ⟨last, reads⟩ := ih
    refine ⟨last, ?_⟩
    rw [List.append_assoc run] at lexed longer same
    have first := reads_of_command lexed longer same start
    rw [← List.append_assoc (';' :: after)] at first
    have ends : endsSwallowed previous (t :: embedded (start + (c :: front).length) run ++ others) =
        endsSwallowed (some (kindBehind kind run)) others := endsSwallowed_behind behind
    rw [widened_append ends, List.append_assoc run, ← List.append_assoc]
    refine first.append ?_
    rwa [List.length_append, ← Nat.add_assoc]
  · -- The end of the text does, and the blanks are swallowed too.
    obtain rfl : rest = [] := by
      rw [List.length_append] at all
      exact List.length_eq_zero_iff.mp (by omega)
    rw [scan] at behind
    cases behind
    refine ⟨some (kindBehind kind (run ++ tail)), ?_⟩
    have taken : widened tail.length previous (t :: embedded (start + (c :: front).length) run) =
        t :: embedded (start + (c :: front).length) (run ++ tail) := widened_embedded starts gap _ run
    rw [List.append_nil] at lexed longer same
    rw [← List.append_assoc run tail] at lexed longer same
    rw [List.append_nil, List.append_nil, taken]
    exact reads_of_command lexed longer (by rwa [List.length_append]) start

end

/-- A scan, lexeme by lexeme: a gap, a token, or a command word and what it swallows. -/
inductive Scans : Option Kind → Nat → List Char → List Token → Prop where
  | nothing {previous : Option Kind} {start : Nat} : Scans previous start [] []
  | gap {previous : Option Kind} {start : Nat} {c : Char} {front back : List Char} {ts : List Token}
      (lexed : lexeme previous c (front ++ back) = .ok ⟨(c :: front).length, none⟩)
      (behind : Scans previous (start + (c :: front).length) back ts) :
      Scans previous start (c :: front ++ back) ts
  | token {previous : Option Kind} {start : Nat} {c : Char} {front back text : List Char}
      {kind : Kind} {others : List Token}
      (lexed : lexeme previous c (front ++ back) = .ok ⟨(c :: front).length, some (kind, text)⟩)
      (keeps : swallows previous kind back = false)
      (behind : Scans (some kind) (start + (c :: front).length) back others) :
      Scans previous start (c :: front ++ back)
        (⟨kind, String.ofList text, start, start + (c :: front).length⟩ :: others)
  | command {previous : Option Kind} {start : Nat} {c : Char} {front run back text : List Char}
      {kind : Kind} {others : List Token}
      (lexed : lexeme previous c (front ++ (run ++ back)) =
        .ok ⟨(c :: front).length, some (kind, text)⟩)
      (takes : swallows previous kind (run ++ back) = true)
      (size : swallowed (some kind) (run ++ back) = .ok run.length)
      (behind : Scans (some (kindBehind kind run)) (start + (c :: front).length + run.length) back
        others) :
      Scans previous start (c :: front ++ (run ++ back))
        (⟨kind, String.ofList text, start, start + (c :: front).length⟩ ::
          embedded (start + (c :: front).length) run ++ others)

theorem Scans.scan {start : Nat} {s : List Char} {ts : List Token}
    (scans : Scans previous start s ts) : Token.scan previous start s = .ok ts := by
  induction scans with
  | nothing => rw [Token.scan]
  | @gap previous start c front back ts lexed behind ih =>
    rw [reads_of_gap lexed start, ih]
    rfl
  | @token previous start c front back text kind others lexed keeps behind ih =>
    rw [reads_of_lexeme lexed keeps start, ih]
    rfl
  | @command previous start c front run back text kind others lexed takes size behind ih =>
    have reads := reads_of_command lexed takes size start
    rw [Reads, List.length_append, ← Nat.add_assoc, ih] at reads
    rw [← List.append_assoc, reads]
    rfl

theorem scans_of_scan {start : Nat} {s : List Char} {ts : List Token}
    (scanned : scan previous start s = .ok ts) : Scans previous start s ts := by
  -- The induction is on the text, with the characters of its first lexeme split off.
  induction size : s.length using Nat.strongRecOn generalizing previous start s ts with
  | _ length ih =>
    subst size
    cases s with
    | nil =>
      rw [scan] at scanned
      cases scanned
      exact .nothing
    | cons c rest =>
      obtain ⟨x, added, next, n, others, lexed, adds, behind, rfl⟩ := scan_cons_ok scanned
      obtain ⟨front, back, rfl, size, cut, -⟩ := exists_parts lexed (by simp [Blanks] : Blanks []) []
      obtain ⟨k, token⟩ := x
      subst size
      rw [cut] at adds behind
      have shorter : back.length < (c :: (front ++ back)).length := by
        simp only [List.length_cons, List.length_append]
        omega
      have split {kind : Kind} (size : swallowed (some kind) back = .ok n) :
          ∃ run rest, back = run ++ rest ∧ n = run.length := by
        refine ⟨back.take n, back.drop n, (List.take_append_drop ..).symm, ?_⟩
        rw [List.length_take, Nat.min_eq_left (swallowed_stops size).1]
      cases adds with
      | nothing gapped =>
        obtain rfl : token = none := gapped
        exact .gap lexed (ih _ shorter behind rfl)
      | token reads keeps =>
        obtain rfl : token = some _ := reads
        exact .token lexed keeps (ih _ shorter behind rfl)
      | command reads takes size blank =>
        obtain rfl : token = some _ := reads
        obtain ⟨run, rest, rfl, rfl⟩ := split size
        rw [List.take_left] at blank
        rw [List.drop_left] at behind
        have further : rest.length ≤ (run ++ rest).length := (List.suffix_append run rest).length_le
        have none : (trim run).isEmpty = true := List.isEmpty_iff.mpr blank
        have scans := Scans.command lexed takes size (ih _ (shorter.trans_le' further)
          (by rwa [kindBehind, if_pos none]) rfl)
        rwa [embedded, if_pos none] at scans
      | embedded reads takes size filled =>
        obtain rfl : token = some _ := reads
        obtain ⟨run, rest, rfl, rfl⟩ := split size
        rw [List.take_left] at filled ⊢
        rw [List.drop_left] at behind
        have further : rest.length ≤ (run ++ rest).length := (List.suffix_append run rest).length_le
        have some : (trim run).isEmpty ≠ true := fun none => filled (List.isEmpty_iff.mp none)
        have scans := Scans.command lexed takes size (ih _ (shorter.trans_le' further)
          (by rwa [kindBehind, if_neg some]) rfl)
        rwa [embedded, if_neg some] at scans

/-- Scanning goes on behind a text as if a token of the same kind had come before, with what is
swallowed at its end stretched over the blanks. -/
theorem Scans.reads {start : Nat} {s : List Char} {ts : List Token}
    (scans : Scans previous start s ts) (gap : Blanks tail) (more : List Char) :
    ∃ next, Reads previous start (s ++ tail) (';' :: more) (widened tail.length previous ts)
      next := by
  induction scans with
  | @nothing previous start => exact ⟨previous, reads_blanks gap previous start _⟩
  | @gap previous start c front back ts lexed behind ih =>
    obtain ⟨last, reads⟩ := ih
    have longer := (lexeme_append lexed gap more).2
    rw [List.append_assoc, ← List.append_assoc back] at longer
    rw [List.append_assoc]
    exact ⟨last, (reads_of_gap longer start).append reads⟩
  | @token previous start c front back text kind others lexed keeps behind ih =>
    obtain ⟨last, reads⟩ := ih
    have longer := (lexeme_append lexed gap more).2
    rw [List.append_assoc, ← List.append_assoc back] at longer
    have kept : swallows previous kind (back ++ tail ++ ';' :: more) = false := by
      rw [List.append_assoc]
      exact not_swallows_append keeps _
    let t : Token := ⟨kind, String.ofList text, start, start + (c :: front).length⟩
    have ends : endsSwallowed previous ([t] ++ others) = endsSwallowed (some t.kind) others :=
      endsSwallowed_keeps keeps behind.scan
    have whole := widened_append (k := tail.length) ends
    rw [List.append_assoc]
    exact ⟨last, whole ▸ (reads_of_lexeme longer kept start).append reads⟩
  | @command previous start c front run back text kind others lexed takes size behind ih =>
    have longer := (lexeme_append lexed gap more).2
    rw [List.append_assoc] at longer
    rw [List.append_assoc]
    exact exists_reads_command gap more longer takes size behind.scan ih

def semicolonAt (place : Nat) : Token := ⟨.semicolon, ";", place, place + 1⟩

theorem scan_semicolon (previous : Option Kind) (start : Nat) :
    scan previous start [';'] = .ok [semicolonAt start] := by
  have reads := reads_semicolon previous start []
  rw [Reads, scan] at reads
  exact reads

theorem tokenize_append {s more : List Char} {ts us : List Token} (tokens : tokenize s = .ok ts)
    (gap : Blanks tail)
    (behind : scan (some .semicolon) ((s ++ tail).length + 1) more = .ok us) :
    tokenize (s ++ (tail ++ ';' :: more)) =
      .ok (widened tail.length none ts ++ semicolonAt (s ++ tail).length :: us) := by
  obtain ⟨next, reads⟩ := (scans_of_scan tokens).reads gap more
  have mark := reads_semicolon next (0 + (s ++ tail).length) more
  have both := reads.append (t := [';']) mark
  have place : 0 + (s ++ tail ++ [';']).length = (s ++ tail).length + 1 := by simp [Nat.add_assoc]
  rw [Reads, place, behind, Nat.zero_add] at both
  simpa [tokenize, Except.map, semicolonAt] using both

/-! Places of tokens. -/

/-- Tokens lie before a place, and what is swallowed at the end reaches up to it. -/
def StopsAt (previous : Option Kind) (place : Nat) (ts : List Token) : Prop :=
  (∀ t ∈ ts, t.start ≤ t.stop ∧ t.stop ≤ place) ∧
    (endsSwallowed previous ts = true → ∃ t ∈ ts.getLast?, t.stop = place)

theorem StopsAt.append {next : Option Kind} {place : Nat} {ts us : List Token}
    (stops : StopsAt next place us) (inside : ∀ t ∈ ts, t.start ≤ t.stop ∧ t.stop ≤ place)
    (same : endsSwallowed previous (ts ++ us) = endsSwallowed next us) :
    StopsAt previous place (ts ++ us) := by
  refine ⟨List.forall_mem_append.mpr ⟨inside, stops.1⟩, fun swallowed => ?_⟩
  obtain ⟨t, last, stop⟩ := stops.2 (same ▸ swallowed)
  exact ⟨t, List.mem_getLast?_append_of_mem_getLast? last, stop⟩

theorem stopsAt_embedded {t : Token} {run : List Char}
    (inside : t.start ≤ t.stop) :
    StopsAt previous (t.stop + run.length) (t :: embedded t.stop run) := by
  unfold embedded
  split_ifs
  · exact ⟨by simp; omega, nofun⟩
  · exact ⟨by simp; omega, fun _ => ⟨_, rfl, rfl⟩⟩

theorem Scans.stopsAt {start : Nat} {s : List Char} {ts : List Token}
    (scans : Scans previous start s ts) : StopsAt previous (start + s.length) ts := by
  induction scans with
  | nothing => exact ⟨by simp, nofun⟩
  | @gap previous start c front back ts lexed behind ih =>
    rw [List.length_append, ← Nat.add_assoc]
    exact ih
  | @token previous start c front back text kind others lexed keeps behind ih =>
    rw [List.length_append, ← Nat.add_assoc]
    let t : Token := ⟨kind, String.ofList text, start, start + (c :: front).length⟩
    have ends : endsSwallowed previous ([t] ++ others) = endsSwallowed (some t.kind) others :=
      endsSwallowed_keeps keeps behind.scan
    exact ih.append (by simp [t]) ends
  | @command previous start c front run back text kind others lexed takes size behind ih =>
    rw [List.length_append, List.length_append, ← Nat.add_assoc, ← Nat.add_assoc]
    let t : Token := ⟨kind, String.ofList text, start, start + (c :: front).length⟩
    have first : StopsAt previous (t.stop + run.length) (t :: embedded t.stop run) :=
      stopsAt_embedded (Nat.le_add_right ..)
    have scanned := behind.scan
    rcases (swallowed_stops size).2 with none | ⟨after, inner⟩
    · rw [List.drop_left] at none
      subst none
      rw [Token.scan] at scanned
      cases scanned
      rw [List.append_nil]
      exact first
    · rw [List.drop_left] at inner
      subst inner
      have ends : endsSwallowed previous (t :: embedded t.stop run ++ others) =
          endsSwallowed (some (kindBehind t.kind run)) others := endsSwallowed_behind scanned
      refine ih.append (fun u member => ?_) ends
      obtain ⟨inside, before⟩ := first.1 u member
      exact ⟨inside, before.trans (Nat.le_add_right ..)⟩

end Cellstore.Token
