import Mathlib.Tactic.SplitIfs
import Cellstore.Path

/-! The normal text of a path.
A path is read back from its normal text, and two paths that differ in their last part alone
have texts that differ as these parts do. -/
namespace Cellstore.Path

theorem eq_of_parts {p q : Path} (root : p.root = q.root) (parts : p.parts = q.parts) : p = q := by
  cases p
  cases q
  cases root
  cases parts
  rfl

private theorem pieces_slash (s : List Char) : pieces ('/' :: s) = [] :: pieces s := by
  rw [pieces, if_pos rfl]

private theorem pieces_append {part : List Char} (h : '/' ∉ part) (rest : List Char) :
    pieces (part ++ '/' :: rest) = part :: pieces rest := by
  induction part with
  | nil => rw [List.nil_append, pieces_slash]
  | cons c part ih =>
    obtain ⟨here, there⟩ := not_or.mp (mt List.mem_cons.mpr h)
    rw [List.cons_append, pieces, if_neg (Ne.symm here), ih there]

private theorem pieces_intercalate {parts : List (List Char)} (nonempty : parts ≠ [])
    (h : ∀ part ∈ parts, '/' ∉ part) : pieces (['/'].intercalate parts) = parts := by
  induction parts with
  | nil => exact absurd rfl nonempty
  | cons part parts ih =>
    have here := h part (List.mem_cons_self ..)
    cases parts with
    | nil => simpa using pieces_of_no_slash here
    | cons next rest =>
      have there := ih (by simp) fun p hp => h p (List.mem_cons_of_mem _ hp)
      rw [List.intercalate_cons_cons, ← List.append_cons, pieces_append here, there]

private theorem head_intercalate {parts : List (List Char)}
    (h : ∀ part ∈ parts, part ≠ [] ∧ '/' ∉ part) (rest : List Char) :
    ['/'].intercalate parts ≠ '/' :: rest := by
  cases parts with
  | nil => simp
  | cons part parts =>
    obtain ⟨nonempty, noSlash⟩ := h part (List.mem_cons_self ..)
    obtain ⟨c, part, rfl⟩ := List.exists_cons_of_ne_nil nonempty
    have first : c ≠ '/' := fun same => noSlash (same ▸ List.mem_cons_self ..)
    cases parts <;> simp [first]

private theorem rootOf_append (root : Root) {s : List Char} (h : ∀ rest, s ≠ '/' :: rest) :
    rootOf ((Root.text root).toList ++ s) = root := by
  cases s with
  | nil => cases root <;> rfl
  | cons c s =>
    have first : c ≠ '/' := fun same => h s (same ▸ rfl)
    cases root <;> simp [Root.text, rootOf, first]

private theorem pieces_root (root : Root) (s : List Char) :
    (((pieces ((Root.text root).toList ++ s)).map String.ofList).filter
        fun part => decide (IsPathPart part)) =
      ((pieces s).map String.ofList).filter fun part => decide (IsPathPart part) := by
  have empty : decide (IsPathPart (String.ofList [])) = false := by decide
  cases root <;> simp [Root.text, pieces_slash, empty]

theorem ofText_toText (p : Path) : ofText p.toText = p := by
  have parts : ∀ part ∈ p.parts.map String.toList, part ≠ [] ∧ '/' ∉ part := by
    intro part member
    obtain ⟨name, inside, rfl⟩ := List.mem_map.mp member
    obtain ⟨nonempty, _, noSlash⟩ := p.areParts name inside
    exact ⟨by simpa using nonempty, noSlash⟩
  unfold toText
  split_ifs with here
  · obtain ⟨root, none⟩ := here
    cases p
    simp only at root none
    subst root none
    rfl
  · have shape : (Root.text p.root ++ "/".intercalate p.parts).toList =
        (Root.text p.root).toList ++ ['/'].intercalate (p.parts.map String.toList) := by simp
    have root := rootOf_append p.root (head_intercalate parts)
    have names : ((pieces ((Root.text p.root).toList ++
        ['/'].intercalate (p.parts.map String.toList))).map String.ofList).filter
          (fun part => decide (IsPathPart part)) = p.parts := by
      rw [pieces_root]
      by_cases none : p.parts = []
      · rw [none]
        rfl
      · rw [pieces_intercalate (by simpa using none) fun part member => (parts part member).2,
          List.map_map]
        have same : p.parts.map (String.ofList ∘ String.toList) = p.parts := by simp
        rw [same, List.filter_eq_self]
        exact fun part member => decide_eq_true (p.areParts part member)
    cases p
    simp only [ofText, shape, mk.injEq]
    exact ⟨root, names⟩

theorem intercalate_concat (parts : List String) : ∃ lead : String, ∀ part,
    "/".intercalate (parts ++ [part]) = lead ++ part := by
  by_cases none : parts = []
  · exact ⟨"", fun part => by simp [none]⟩
  · refine ⟨"/".intercalate parts ++ "/", fun part => ?_⟩
    rw [String.intercalate_append_of_ne_nil none (by simp), String.intercalate_singleton]

/-! The characters of paths. -/

private theorem mem_of_mem_pieces {s piece : List Char} (member : piece ∈ pieces s) {c : Char}
    (inside : c ∈ piece) : c ∈ s := by
  induction s generalizing piece with
  | nil =>
    obtain rfl : piece = [] := by simpa [pieces] using member
    cases inside
  | cons d s ih =>
    rw [pieces] at member
    split_ifs at member
    · rcases List.mem_cons.mp member with rfl | later
      · cases inside
      · exact List.mem_cons_of_mem _ (ih later inside)
    · split at member
      · obtain rfl : piece = [d] := by simpa using member
        rw [List.mem_singleton.mp inside]
        exact List.mem_cons_self ..
      · rename_i first more shape
        rcases List.mem_cons.mp member with rfl | later
        · rcases List.mem_cons.mp inside with rfl | rest
          · exact List.mem_cons_self ..
          · exact List.mem_cons_of_mem _ (ih (by simp [shape]) rest)
        · exact List.mem_cons_of_mem _ (ih (by simp [shape, later]) inside)

theorem mem_of_mem_parts {text part : String} (member : part ∈ (ofText text).parts) {c : Char}
    (inside : c ∈ part.toList) : c ∈ text.toList := by
  obtain ⟨piece, listed, rfl⟩ := List.mem_map.mp (List.mem_filter.mp member).1
  rw [String.toList_ofList] at inside
  exact mem_of_mem_pieces listed inside

private theorem exists_of_mem_intercalate {parts : List (List Char)} {c : Char} (slash : c ≠ '/')
    (inside : c ∈ ['/'].intercalate parts) : ∃ part ∈ parts, c ∈ part := by
  induction parts with
  | nil => cases inside
  | cons part parts ih =>
    cases parts with
    | nil => exact ⟨part, by simp, by simpa using inside⟩
    | cons next rest =>
      rw [List.intercalate_cons_cons, List.mem_append, List.mem_append] at inside
      rcases inside with (here | mark) | there
      · exact ⟨part, by simp, here⟩
      · exact absurd (List.mem_singleton.mp mark) slash
      · obtain ⟨other, member, found⟩ := ih there
        exact ⟨other, List.mem_cons_of_mem _ member, found⟩

theorem exists_part_of_mem {p : Path} {c : Char} (slash : c ≠ '/') (dot : c ≠ '.')
    (inside : c ∈ p.toText.toList) : ∃ part ∈ p.parts, c ∈ part.toList := by
  unfold toText at inside
  split_ifs at inside
  · exact absurd (by simpa using inside) dot
  · have root : c ∉ (Root.text p.root).toList := by cases p.root <;> simp [Root.text, slash]
    rw [String.toList_append, List.mem_append] at inside
    have joined := inside.resolve_left root
    rw [String.toList_intercalate] at joined
    obtain ⟨part, member, found⟩ := exists_of_mem_intercalate slash joined
    obtain ⟨name, listed, rfl⟩ := List.mem_map.mp member
    exact ⟨name, listed, found⟩

end Cellstore.Path
