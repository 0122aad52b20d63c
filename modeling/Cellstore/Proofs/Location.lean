import Cellstore.Proofs.Disk
import Cellstore.Settings.Environment
import Cellstore.Workspace

/-! Databases of different names are kept apart.
The place of a database ends in its name and the suffix, so no two share a place, and none is
the journal or the log of another. Opening one therefore leaves all others as they are. -/
namespace Cellstore.Location
open Settings (isSuffix isSuffixLetter)

def place (l : Location) (b : Backend) (name : String) : String :=
  match b with
  | .memory => (l.pathOf name).toText
  | .file => Disk.placeOf (l.pathOf name)

/-- The suffix is one that settings admit, and in files no path reads as an address. -/
structure IsSound (l : Location) (b : Backend) : Prop where
  suffix : isSuffix l.suffix.toList = true
  noAddress : b = .file → ∀ name, Session.IsDatabaseName name → ∀ rest,
    (l.pathOf name).toText.toList ≠ 'f' :: 'i' :: 'l' :: 'e' :: ':' :: rest

private theorem suffix_shape {suffix : String} (h : isSuffix suffix.toList = true) :
    ∃ c rest, suffix.toList = '.' :: c :: rest ∧ (c :: rest).all isSuffixLetter = true := by
  generalize suffix.toList = s at h
  unfold isSuffix at h
  split at h
  · exact ⟨_, _, rfl, h⟩
  · cases h

/-- The last character that is no letter of a suffix. -/
private theorem dropWhile_reverse (lead : List Char) {mark : Char} {letters : List Char}
    (outside : isSuffixLetter mark = false) (inside : letters.all isSuffixLetter = true) :
    (lead ++ mark :: letters).reverse.dropWhile isSuffixLetter = mark :: lead.reverse := by
  rw [List.reverse_append, List.reverse_cons, List.append_assoc, List.dropWhile_append_of_pos]
  · simp [outside]
  · intro c member
    exact List.all_eq_true.mp inside c (List.mem_reverse.mp member)

private theorem fileName_ne {suffix : String} (valid : isSuffix suffix.toList = true)
    (lead : List Char) {mark : Char} {letters : List Char} (outside : isSuffixLetter mark = false)
    (inside : letters.all isSuffixLetter = true) (noPoint : mark ≠ '.') (name : String) :
    lead ++ mark :: letters ≠ (name ++ suffix).toList := by
  intro same
  obtain ⟨c, rest, dotted, all⟩ := suffix_shape valid
  rw [String.toList_append, dotted] at same
  have ends := congrArg (fun s => s.reverse.dropWhile isSuffixLetter) same
  simp only [dropWhile_reverse lead outside inside,
    dropWhile_reverse name.toList (by decide : isSuffixLetter '.' = false) all] at ends
  exact noPoint (List.cons.inj ends).1

variable {l : Location} {b : Backend}

theorem isPathPart_fileName (valid : isSuffix l.suffix.toList = true) {name : String}
    (named : Session.IsDatabaseName name) :
    IsPathPart (name ++ l.suffix) ∧ name ++ l.suffix ≠ ".." := by
  obtain ⟨c, rest, dotted, all⟩ := suffix_shape valid
  obtain ⟨nonempty, _, _, letters⟩ := named
  have long : 0 < name.toList.length := List.length_pos_iff.mpr (by simpa using nonempty)
  have size : (name ++ l.suffix).toList.length = name.toList.length + (rest.length + 2) := by
    simp [dotted]
  have differs (text : String) (short : text.toList.length ≤ 2) : name ++ l.suffix ≠ text := by
    rintro rfl
    omega
  refine ⟨⟨differs "" (by decide), differs "." (by decide), ?_⟩, differs ".." (by decide)⟩
  rw [String.toList_append, List.mem_append, dotted]
  rintro (inside | inside)
  · exact (letters '/' inside).1 rfl
  · rcases List.mem_cons.mp inside with dot | later
    · exact absurd dot (by decide)
    · exact absurd (List.all_eq_true.mp all '/' later) (by decide)

theorem pathOf_parts (valid : isSuffix l.suffix.toList = true) {name : String}
    (named : Session.IsDatabaseName name) : (l.pathOf name).root = l.directory.root ∧
      (l.pathOf name).parts = l.directory.parts ++ [name ++ l.suffix] := by
  obtain ⟨root, parts⟩ := Path.ofText_of_isPathPart (isPathPart_fileName valid named).1
  have joined := Path.join_of_relative (p := l.directory) root
  rw [parts] at joined
  exact joined

private theorem exists_toText (valid : isSuffix l.suffix.toList = true) : ∃ lead : String,
    ∀ name, Session.IsDatabaseName name → (l.pathOf name).toText = lead ++ (name ++ l.suffix) := by
  obtain ⟨lead, ends⟩ := Path.intercalate_concat l.directory.parts
  refine ⟨Path.Root.text l.directory.root ++ lead, fun name named => ?_⟩
  obtain ⟨root, parts⟩ := pathOf_parts valid named
  rw [Path.toText, root, parts, if_neg (by simp), ends, String.append_assoc]

private theorem exists_placeOf (valid : isSuffix l.suffix.toList = true) : ∃ lead : String,
    ∀ name, Session.IsDatabaseName name →
      Disk.placeOf (l.pathOf name) = lead ++ (name ++ l.suffix) := by
  obtain ⟨lead, ends⟩ := Path.intercalate_concat
    (l.directory.parts.foldl (Disk.descend l.directory.root) []).reverse
  refine ⟨if l.directory.root = .relative then lead else "/" ++ lead, fun name named => ?_⟩
  obtain ⟨root, parts⟩ := pathOf_parts valid named
  have deeper (stack : List String) : Disk.descend l.directory.root stack (name ++ l.suffix) =
      (name ++ l.suffix) :: stack := by
    unfold Disk.descend
    rw [if_pos (isPathPart_fileName valid named).2]
  rw [Disk.placeOf, root, parts, List.foldl_append, List.foldl_cons, List.foldl_nil, deeper,
    Disk.place, List.reverse_cons, ends, if_neg (List.cons_ne_nil _ _)]
  split_ifs
  · rfl
  · rw [String.append_assoc]

theorem exists_place (h : l.IsSound b) : ∃ lead : String,
    ∀ name, Session.IsDatabaseName name → l.place b name = lead ++ (name ++ l.suffix) := by
  cases b with
  | memory => exact exists_toText h.suffix
  | file => exact exists_placeOf h.suffix

theorem place_injective (h : l.IsSound b) {name other : String}
    (named : Session.IsDatabaseName name) (another : Session.IsDatabaseName other)
    (same : l.place b name = l.place b other) : name = other := by
  obtain ⟨lead, ends⟩ := exists_place h
  rw [ends name named, ends other another, String.append_right_inj, String.append_left_inj] at same
  exact same

theorem place_ne_private (h : l.IsSound b) {name : String} (named : Session.IsDatabaseName name) :
    l.place b name ≠ Disk.privatePlace := by
  obtain ⟨lead, ends⟩ := exists_place h
  rw [ends name named]
  intro same
  have part := (isPathPart_fileName h.suffix named).1.1
  simp [Disk.privatePlace] at same
  simp [same] at part

private theorem isPlain_pathOf (h : l.IsSound .file) {name : String}
    (named : Session.IsDatabaseName name) : Disk.IsPlain (l.pathOf name) := by
  obtain ⟨lead, ends⟩ := exists_toText h.suffix
  refine ⟨h.noAddress rfl name named, ?_, ?_⟩
  · rw [ends name named]
    intro same
    have part := (isPathPart_fileName h.suffix named).1.1
    simp at same
    simp [same] at part
  · intro same
    have lists := congrArg String.toList same
    rw [ends name named, ← String.append_assoc] at lists
    have outside : isSuffixLetter ':' = false := by decide
    exact fileName_ne h.suffix [':', 'm', 'e', 'm', 'o', 'r', 'y'] outside rfl (by decide)
      (lead ++ name) lists.symm

/-- What stands beside a database after a hyphen is no database. -/
private theorem place_beside_ne (h : l.IsSound b) {name other addition : String}
    (named : Session.IsDatabaseName name) (another : Session.IsDatabaseName other)
    {letters : List Char} (shape : addition.toList = '-' :: letters)
    (inside : letters.all isSuffixLetter = true) :
    l.place b name ++ addition ≠ l.place b other := by
  obtain ⟨lead, ends⟩ := exists_place h
  rw [ends name named, ends other another, String.append_assoc]
  intro same
  have lists := congrArg String.toList ((String.append_right_inj lead).mp same)
  rw [String.toList_append, shape] at lists
  exact fileName_ne h.suffix _ (by decide) inside (by decide) other lists

private theorem storage_open_spec (h : l.IsSound b) {name : String}
    (named : Session.IsDatabaseName name) {s t : Storage} (backend : s.backend = b)
    {outcome : Except OpenFault String}
    (opened : s.open_ l.directory (l.pathOf name) = (outcome, t)) :
    (∀ place, outcome = .ok place → place = l.place b name) ∧ t.backend = b ∧
      ∀ other, Session.IsDatabaseName other →
        t.contents (l.place b other) = s.contents (l.place b other) := by
  unfold Storage.open_ at opened
  cases b with
  | memory =>
    rw [backend] at opened
    cases opened
    refine ⟨fun place same => (Except.ok.inj same).symm, ?_⟩
    unfold Storage.create
    split
    · exact ⟨backend, fun _ _ => rfl⟩
    · rename_i missing
      refine ⟨backend, fun other _ => ?_⟩
      exact Disk.sameContents_set (Disk.contents_of_get?_none missing)
        (Disk.contents_set_self ..) _
  | file =>
    rw [backend] at opened
    have above := Disk.sameContents_makeDirectories s.disk l.directory
    dsimp only at opened
    split at opened
    · rename_i made
      rw [made] at above
      cases opened
      exact ⟨by simp, rfl, fun other _ => above _⟩
    · rename_i d made
      rw [made] at above
      cases opened
      cases answered : d.openDatabase none (l.pathOf name) with
      | mk outcome e =>
        obtain ⟨placed, kept⟩ := Disk.openDatabase_spec (isPlain_pathOf h named) answered
        refine ⟨?_, rfl, fun other another => ?_⟩
        · intro place found
          cases outcome with
          | error fault => cases found
          | ok reached =>
            cases found
            exact placed _ rfl
        · have beside := @place_beside_ne l .file h name other
          exact (kept _ (beside named another rfl (by decide))
            (beside named another rfl (by decide))).trans (above _)

/-- What opening the database of a name answers, and that it leaves every database alone. -/
theorem open_spec (h : l.IsSound b) {name : String} (named : Session.IsDatabaseName name)
    {s t : Storage} (backend : s.backend = b) {outcome : Except OpenFault OpenStore}
    (opened : l.opener.open_ (l.pathOf name) s = (outcome, t)) :
    (∀ store, outcome = .ok store → store = ⟨l.pathOf name, l.place b name, false, false⟩) ∧
      t.backend = b ∧ ∀ other, Session.IsDatabaseName other →
        t.contents (l.place b other) = s.contents (l.place b other) := by
  simp only [opener] at opened
  split at opened <;> rename_i answered <;> cases opened <;>
    obtain ⟨placed, rest⟩ := storage_open_spec h named backend answered
  · refine ⟨fun store same => ?_, rest⟩
    cases same
    rw [placed _ rfl]
  · exact ⟨by simp, rest⟩

theorem open_memory (l : Location) (p : Path) {s : Storage} (backend : s.backend = .memory) :
    ∃ store t, l.opener.open_ p s = (.ok store, t) := by
  simp only [opener, Storage.open_, backend]
  exact ⟨_, _, rfl⟩

theorem close_place (h : l.IsSound b) {name : String} (named : Session.IsDatabaseName name)
    {s : Storage} (backend : s.backend = b) : s.close (l.place b name) = s := by
  subst backend
  unfold Storage.close
  split
  · rfl
  · rw [Disk.release, if_neg (place_ne_private h named)]

end Cellstore.Location
