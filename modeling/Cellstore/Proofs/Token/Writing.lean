import Cellstore.Proofs.Token.Verbatim

/-! How tokens stand in the text.
A token covers its characters as they are, or it covers a quotation with every quote inside
doubled. What no quotation and no bare word gives has not the shape of a name. -/
namespace Cellstore.Token
open Cellstore.Text (isBlank upper upperText)

variable {source : List Char}

def written (source : List Char) (t : Token) : List Char :=
  (source.drop t.start).take (t.stop - t.start)

/-- How a token stands in the text. The kinds matter only where a name may be spelled. -/
inductive Stands (source : List Char) (t : Token) : Prop where
  | bare (covers : t.written source = t.text.toList) (filled : t.text ≠ "")
      (solid : ∀ c ∈ t.text.toList, inWord c = true)
  | identifier (kind : t.kind = .identifier) (covers : t.written source = quoted '"' t.text)
  | string (kind : t.kind = .string) (covers : t.written source = quoted '\'' t.text)
  | national {c : Char} (letter : c.toUpper = 'N') (kind : t.kind = .other)
      (covers : t.written source = c :: quoted '\'' t.text)
  | sign (kind : t.kind ≠ .identifier ∧ t.kind ≠ .word)
      (shape : isPlainName t.text.toList = false)

/-- A name and the ways in which a token spells it. -/
inductive Spells (source : List Char) (t : Token) : String → Prop where
  | bare (covers : t.written source = t.text.toList) (filled : t.text ≠ "")
      (solid : ∀ c ∈ t.text.toList, inWord c = true) : Spells source t t.text
  | identifier (covers : t.written source = quoted '"' t.text) (isName : IsColumnName t.text) :
      Spells source t t.text
  | string (lead : List Char) (mark : lead.map Char.toUpper = [] ∨ lead.map Char.toUpper = ['N'])
      (covers : t.written source = lead ++ quoted '\'' t.text)
      (plain : isPlainName t.text.toList = true) : Spells source t t.text

theorem spells_of_stands {t : Token} {n : String} (stands : Stands source t)
    (named : t.name? = some n) : Spells source t n := by
  have kinds : n = t.text ∧ (t.kind = .identifier → IsColumnName t.text) ∧
      (t.kind ≠ .identifier → t.kind ≠ .word → isPlainName t.text.toList = true) := by
    unfold name? at named
    split at named
    · rename_i kind
      split_ifs at named with bad
      cases named
      exact ⟨rfl, fun _ => by simpa [IsColumnName] using bad, fun other => absurd kind other⟩
    · rename_i kind
      cases named
      exact ⟨rfl, fun other => by simp [kind] at other, fun _ other => absurd kind other⟩
    · rename_i other _
      split_ifs at named with plain
      cases named
      exact ⟨rfl, fun kind => absurd kind other, fun _ _ => plain⟩
  obtain ⟨rfl, isName, plain⟩ := kinds
  cases stands with
  | bare covers filled solid => exact .bare covers filled solid
  | identifier kind covers => exact .identifier covers (isName kind)
  | string kind covers =>
    exact .string [] (.inl rfl) covers (plain (by simp [kind]) (by simp [kind]))
  | @national c letter kind covers =>
    exact .string [c] (.inr (by simp [letter])) covers
      (plain (by simp [kind]) (by simp [kind]))
  | sign kind shape =>
    rw [plain kind.1 kind.2] at shape
    cases shape

/-! Quotations. -/

theorem doubled_cons (q c : Char) (s : List Char) :
    doubled q (c :: s) = (if c = q then [q, q] else [c]) ++ doubled q s := rfl

theorem take_of_quotation {q : Char} {fault : Unclosed} {s : List Char} {r : List Char × Nat}
    (read : quotation q fault s = .ok r) : s.take r.2 = doubled q r.1 ++ [q] := by
  fun_induction quotation q fault s generalizing r with
  | case1 => cases read
  | case2 =>
    cases read
    rfl
  | case3 fault rest ih =>
    obtain ⟨inner, more, rfl⟩ := map_eq_ok_iff.mp read
    simp [doubled_cons, ih more]
  | case4 fault d rest other =>
    cases read
    rfl
  | case5 fault c rest other ih =>
    obtain ⟨inner, more, rfl⟩ := map_eq_ok_iff.mp read
    simp [doubled_cons, other, ih more]

/-! Lexemes. -/

theorem leads_of_entry {c : Char} {rest w : List Char} (matched : (matchEntry c rest).entry = some w) :
    w.map Char.toUpper ∈ entries ∧ w <+: c :: squeezed false rest := by
  obtain none | found := entry_of_follow matched
  · cases none
  · exact found

theorem head_of_entry {c d : Char} {rest w : List Char}
    (matched : (matchEntry c rest).entry = some (d :: w)) : c = d :=
  (List.cons_prefix_cons.mp (leads_of_entry matched).2).1.symm

theorem national_of_entry {c : Char} {rest w : List Char}
    (matched : (matchEntry c rest).entry = some w) (spelled : w.map Char.toUpper = ['N', '\'']) :
    c.toUpper = 'N' ∧ ∃ more, rest = '\'' :: more := by
  obtain ⟨n, q, rfl⟩ : ∃ n q, w = [n, q] := by
    have two := congrArg List.length spelled
    rw [List.length_map] at two
    exact List.length_eq_two.mp two
  simp only [List.map_cons, List.map_nil, List.cons.injEq, and_true] at spelled
  obtain rfl := eq_quote_of_toUpper spelled.2
  obtain ⟨rfl, behind⟩ := List.cons_prefix_cons.mp (leads_of_entry matched).2
  obtain ⟨more, rfl⟩ := prefix_of_squeezed (by decide) behind
  exact ⟨spelled.1, more, rfl⟩

theorem mark_spells_nothing : ∀ c ∈ marks, isPlainName [c] = false ∧ markKind c ≠ .identifier ∧
    markKind c ≠ .word ∧ markKind c ≠ .command := forall_mem_of_all (by decide)

private theorem isPlainName_entry : ∀ e ∈ entries, isPlainName e = false :=
  forall_mem_of_all (by decide)

theorem isPlainName_digit {c : Char} (digit : c.isDigit = true) (rest : List Char) :
    isPlainName (c :: rest) = false := by
  have noLetter : c.isAlpha = false := by
    by_contra letter
    rw [not_isDigit_of_isAlpha (by simpa using letter)] at digit
    cases digit
  have noLine : c ≠ '_' := by
    rintro rfl
    exact absurd digit (by decide)
  simp [isPlainName, noLetter, noLine]

theorem plainLexeme_of_isMark {previous : Option Kind} {c : Char} (mark : isMark c = true)
    (rest : List Char) : plainLexeme previous c rest = ⟨1, some (markKind c, [c])⟩ :=
  if_pos mark

theorem plainLexeme_of_not_isMark {previous : Option Kind} {c : Char} (word : isMark c = false)
    (rest : List Char) : plainLexeme previous c rest =
      ⟨(c :: rest.takeWhile inWord).length,
        some (wordKind previous (c :: rest.takeWhile inWord), c :: rest.takeWhile inWord)⟩ :=
  if_neg (by simp [word])

theorem size_pos {previous : Option Kind} {c : Char} {rest : List Char} {x : Lexeme}
    (lexes : Lexes previous c rest x) : 0 < x.size := by
  cases lexes with
  | entry solid matched => exact size_matchEntry_pos matched
  | plain =>
    cases mark : isMark c with
    | true => simp [plainLexeme_of_isMark mark]
    | false => simp [plainLexeme_of_not_isMark mark]
  | _ => exact Nat.succ_pos _

theorem stands_of_lexes {previous : Option Kind} {c : Char} {rest text : List Char} {x : Lexeme}
    {kind : Kind} {start : Nat} (lexes : Lexes previous c rest x)
    (here : source.drop start = c :: rest) (reads : x.token = some (kind, text)) :
    Stands source ⟨kind, String.ofList text, start, start + x.size⟩ := by
  have covers (t : Token) (starts : t.start = start) (stops : t.stop = start + x.size) :
      t.written source = (c :: rest).take x.size := by
    rw [written, starts, stops, here, Nat.add_sub_cancel_left]
  cases lexes with
  | number digit size =>
    cases reads
    exact .sign (by simp) (by simpa using isPlainName_digit digit _)
  | identifier quote content =>
    cases reads
    refine .identifier rfl ?_
    rw [covers _ rfl rfl, quote, List.take_succ_cons, take_of_quotation content]
    simp [quoted]
  | string opens content =>
    cases reads
    refine .string rfl ?_
    rw [covers _ rfl rfl, head_of_entry opens, List.take_succ_cons, take_of_quotation content]
    simp [quoted]
  | national opens spelled content =>
    obtain ⟨letter, more, rfl⟩ := national_of_entry opens spelled
    cases reads
    refine .national letter rfl ?_
    rw [covers _ rfl rfl, List.take_succ_cons, List.take_succ_cons]
    simp only [List.drop_succ_cons, List.drop_zero] at content
    rw [take_of_quotation content]
    simp [quoted]
  | hint opens =>
    cases reads
    obtain rfl := head_of_entry opens
    exact .sign (by simp) (by simp [isPlainName])
  | entry solid matched =>
    cases reads
    refine .sign (by split_ifs <;> simp) ?_
    simpa using isPlainName_entry _ (leads_of_entry matched).1
  | plain solid =>
    cases mark : isMark c with
    | true =>
      obtain ⟨shape, identifier, word, -⟩ := mark_spells_nothing c (List.contains_iff_mem.mp mark)
      rw [plainLexeme_of_isMark mark] at reads
      cases reads
      exact .sign ⟨identifier, word⟩ (by simpa using shape)
    | false =>
      rw [plainLexeme_of_not_isMark mark] at covers reads ⊢
      cases reads
      refine .bare ?_ (by simp) ?_
      · rw [covers _ rfl rfl, String.toList_ofList, List.length_cons, List.take_succ_cons,
          ← List.prefix_iff_eq_take.mp (List.takeWhile_prefix _)]
      · rw [String.toList_ofList, List.forall_mem_cons]
        exact ⟨by simp [inWord, solid, mark], fun d inside => List.mem_takeWhile_imp inside⟩
  | _ => cases reads

/-! Tokens. -/

theorem command_of_swallows {previous : Option Kind} {kind : Kind} {after : List Char}
    (takes : swallows previous kind after = true) : kind = .command := by
  by_contra other
  rw [swallows_of_ne other] at takes
  cases takes

private theorem drop_behind {start n : Nat} {c : Char} {rest : List Char}
    (here : source.drop start = c :: rest) (positive : 0 < n) (m : Nat) :
    source.drop (start + n + m) = (rest.drop (n - 1)).drop m := by
  obtain ⟨k, rfl⟩ := Nat.exists_eq_add_one.mpr positive
  rw [← List.drop_drop, ← List.drop_drop, here, List.drop_succ_cons, Nat.add_sub_cancel]

/-- Every token stands in the text but those that a command word swallows. -/
theorem stands_of_scan {previous : Option Kind} {start : Nat} {s : List Char} {ts : List Token}
    (here : source.drop start = s) (scanned : scan previous start s = .ok ts)
    {lead more : List Token} {t : Token} (split : ts = lead ++ t :: more) :
    Stands source t ∨ ∃ u ∈ lead.getLast?, u.kind = .command := by
  -- The induction is on the text that is left, with the tokens of its first lexeme split off.
  induction size : s.length using Nat.strongRecOn generalizing previous start s ts lead with
  | _ length ih =>
    subst size
    cases s with
    | nil =>
      rw [scan] at scanned
      cases scanned
      simp at split
    | cons c rest =>
      obtain ⟨x, added, next, n, others, read, adds, tail, rfl⟩ := scan_cons_ok scanned
      have lexes := lexes_of_lexeme read
      have shorter : ((rest.drop (x.size - 1)).drop n).length < (c :: rest).length := by
        simp only [List.length_drop, List.length_cons]
        omega
      have first {kind : Kind} {text : List Char} (reads : x.token = some (kind, text)) :=
        stands_of_lexes lexes here reads
      rcases List.append_eq_append_iff.mp split with ⟨front, rfl, rfl⟩ | ⟨back, rfl, same⟩
      · rcases ih _ shorter (drop_behind here (size_pos lexes) n) tail rfl rfl with
          stands | ⟨u, last, command⟩
        · exact .inl stands
        · refine .inr ⟨u, ?_, command⟩
          rw [Option.mem_def] at last ⊢
          simp [List.getLast?_append, last]
      · cases back with
        | nil =>
          have later : others = [] ++ t :: more := same.symm
          have stands := ih _ shorter (drop_behind here (size_pos lexes) n) tail later rfl
          exact .inl (by simpa using stands)
        | cons u back =>
          obtain rfl : t = u := (List.cons.inj same).1
          generalize whole : lead ++ t :: back = added at adds
          cases adds with
          | nothing => simp at whole
          | token reads | command reads =>
            obtain ⟨rfl, same⟩ : lead = [] ∧ t :: back = [_] := by
              simpa [List.append_eq_cons_iff] using whole
            cases same
            exact .inl (first reads)
          | embedded reads takes =>
            cases lead with
            | nil =>
              cases whole
              exact .inl (first reads)
            | cons v lead =>
              obtain ⟨rfl, behind⟩ := List.cons.inj whole
              obtain rfl : lead = [] := by
                cases lead <;> simp_all
              exact .inr ⟨_, rfl, command_of_swallows takes⟩

theorem command_of_lexes {previous : Option Kind} {c : Char} {rest text : List Char} {x : Lexeme}
    (lexes : Lexes previous c rest x) (reads : x.token = some (.command, text)) :
    text = c :: rest.takeWhile inWord ∧ (∀ d ∈ text, inWord d = true) ∧
      String.ofList (upper text) ∈ commandWords := by
  cases lexes with
  | plain solid =>
    cases mark : isMark c with
    | true =>
      rw [plainLexeme_of_isMark mark] at reads
      have kind := (Prod.mk.inj (Option.some.inj reads)).1
      exact absurd kind (mark_spells_nothing c (List.contains_iff_mem.mp mark)).2.2.2
    | false =>
      rw [plainLexeme_of_not_isMark mark] at reads
      obtain ⟨kind, rfl⟩ := Prod.mk.inj (Option.some.inj reads)
      refine ⟨rfl, ?_, List.contains_iff_mem.mp (wordKind_command kind)⟩
      rw [List.forall_mem_cons]
      exact ⟨by simp [inWord, solid, mark], fun d inside => List.mem_takeWhile_imp inside⟩
  | entry =>
    have kind := (Prod.mk.inj (Option.some.inj reads)).1
    split_ifs at kind
  | _ => cases reads

theorem command_of_scan {previous : Option Kind} {start : Nat} {s : List Char} {ts : List Token}
    (scanned : scan previous start s = .ok ts) :
    ∀ t ∈ ts, t.kind = .command → upperText t.text ∈ commandWords := by
  refine forall_mem_scan (fun previous c rest x kind text start stop lexed reads command => ?_)
    (fun text start stop command => by cases command) scanned
  obtain rfl : kind = .command := command
  simpa [upperText] using (command_of_lexes (lexes_of_lexeme lexed) reads).2.2

end Cellstore.Token
