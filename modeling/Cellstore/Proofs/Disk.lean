import Mathlib.Tactic.SplitIfs
import Cellstore.Disk.Opening
import Cellstore.Proofs.Path
import Cellstore.Proofs.SortedMap

/-! What opening a database leaves alone.
Making directories and empty files changes no database, and opening one sweeps away only what
stands beside it under the names of its journal and its log. -/
namespace Cellstore.Disk
open Text.Utf8 (encode)

def SameContents (d e : Disk) : Prop := ∀ place, e.contents place = d.contents place

theorem SameContents.refl (d : Disk) : SameContents d d := fun _ => rfl

theorem SameContents.trans {d e f : Disk} (h : SameContents d e) (g : SameContents e f) :
    SameContents d f := fun place => (g place).trans (h place)

/-- A node that holds no database takes the place of another such node, or of none. -/
theorem sameContents_set {d : Disk} {place : String} {node : Node}
    (before : d.contents place = .empty) (after : (d.set place node).contents place = .empty) :
    SameContents d (d.set place node) := by
  intro other
  by_cases same : place = other
  · subst same
    rw [before, after]
  · exact contents_set_of_ne d node same

theorem contents_of_get?_none {d : Disk} {place : String} (h : d.get? place = none) :
    d.contents place = .empty := by
  rw [contents, h]

private theorem contents_set_directory (d : Disk) (place : String) :
    (d.set place .directory).contents place = .empty := by
  rw [contents, get?_set_self]

private theorem contents_set_blank (d : Disk) (place : String) :
    (d.set place .blank).contents place = .empty := by
  rw [contents, get?_set_self]

theorem get?_of_node?_none {d : Disk} {root : Root} {stack : List String}
    (h : d.node? root stack = none) : d.get? (place root stack) = none := by
  unfold node? at h
  split_ifs at h
  exact h

theorem sameContents_makeOne {d e : Disk} {p : Path} (h : d.makeOne p = .ok e) :
    SameContents d e := by
  unfold makeOne at h
  split_ifs at h
  split at h
  · cases h
  · cases h
    exact .refl d
  · split_ifs at h
    dsimp only at h
    split at h
    · cases h
      exact .refl d
    · cases h
    · rename_i free
      cases h
      have missing := get?_of_node?_none free
      exact sameContents_set (contents_of_get?_none missing) (contents_set_directory ..)

theorem sameContents_makeAll (d : Disk) (p : Path) : SameContents d (d.makeAll p).2 := by
  fun_induction makeAll d p with
  | case1 p e made => exact sameContents_makeOne made
  | case2 p missing top => exact .refl d
  | case3 p missing inside shorter fault e failed ih =>
    rw [failed] at ih
    exact ih
  | case4 p missing inside shorter e above f made ih =>
    rw [above] at ih
    exact ih.trans (sameContents_makeOne made)
  | case5 p missing inside shorter e above fault failed ih =>
    rw [above] at ih
    exact ih
  | case6 p fault other failed => exact .refl d

theorem sameContents_makeDirectories (d : Disk) (p : Path) :
    SameContents d (d.makeDirectories p).2 := by
  unfold makeDirectories
  split_ifs
  · exact .refl d
  · exact sameContents_makeAll d p

/-- Looking a path up part by part arrives where its parts lead. -/
theorem resolve_eq {d : Disk} {root : Root} {stack end_ : List String} {parts : List String}
    (h : d.resolve root stack parts = some end_) : end_ = parts.foldl (descend root) stack := by
  induction parts generalizing stack with
  | nil =>
    cases h
    rfl
  | cons part parts ih =>
    unfold resolve at h
    split_ifs at h
    exact ih h

/-- A file that is reached is at the place of its path, and no database has changed. -/
theorem reach_spec {d e : Disk} {a : Address} {outcome : Except Trouble String}
    (h : d.reach a = (outcome, e)) :
    SameContents d e ∧ ∀ place, outcome = .ok place → place = placeOf (Path.ofText a.path) := by
  unfold reach at h
  dsimp only at h
  split at h
  · cases h
    exact ⟨.refl d, by simp⟩
  · rename_i stack resolved
    have arrived : place (Path.ofText a.path).root stack = placeOf (Path.ofText a.path) := by
      rw [resolve_eq resolved]
      rfl
    split at h
    · cases h
      exact ⟨.refl d, by simp⟩
    · split at h
      · cases h
        exact ⟨.refl d, by simp⟩
      · cases h
        exact ⟨.refl d, by simp [arrived]⟩
      · rename_i free _
        split at h
        · cases h
          have missing := get?_of_node?_none free
          refine ⟨?_, by simp [arrived]⟩
          exact sameContents_set (contents_of_get?_none missing) (contents_set_blank ..)
        · cases h
          exact ⟨.refl d, by simp⟩
      · cases h
        exact ⟨.refl d, by simp⟩

theorem contents_sweep_of_ne (d : Disk) {place other : String} (h : place ≠ other) :
    (d.sweep place).contents other = d.contents other := by
  unfold sweep
  split
  · rfl
  · unfold contents
    rw [get?, erase, SortedMap.get?_erase_of_ne _ h]
    rfl

private theorem sameContents_fill (d : Disk) (place : String) :
    SameContents d (match d.get? place with
      | some .blank => d.set place (.database .empty)
      | _ => d) := by
  split
  · rename_i blank
    exact sameContents_set (by rw [contents, blank]) (contents_set_self ..)
  · exact .refl d

theorem contents_settle (d : Disk) (a : Address) {place other : String}
    (journal : place ++ journalSuffix ≠ other) (log : place ++ logSuffix ≠ other) :
    (d.settle a place).contents other = d.contents other := by
  unfold settle
  refine (sameContents_fill _ place other).trans ?_
  split_ifs
  · rfl
  · rw [contents_sweep_of_ne _ log, contents_sweep_of_ne _ journal]

/-- An address that is not private leads to the place of its path, and only what stands beside
that is swept away. -/
theorem openAddress_spec {d e : Disk} {locked : Option String} {a : Address}
    (shared : a.isPrivate = false) {outcome : Except Trouble String}
    (opened : d.openAddress locked a = (outcome, e)) :
    (∀ place, outcome = .ok place → place = placeOf (Path.ofText a.path)) ∧
      ∀ other, placeOf (Path.ofText a.path) ++ journalSuffix ≠ other →
        placeOf (Path.ofText a.path) ++ logSuffix ≠ other → e.contents other = d.contents other := by
  unfold openAddress at opened
  rw [shared] at opened
  simp only [Bool.false_eq_true, if_false] at opened
  split at opened
  · rename_i reached
    cases opened
    obtain ⟨same, _⟩ := reach_spec reached
    exact ⟨by simp, fun other _ _ => same other⟩
  · rename_i place f reached
    obtain ⟨same, arrived⟩ := reach_spec reached
    have here := arrived place rfl
    subst here
    split at opened
    · cases opened
      exact ⟨by simp, fun other _ _ => same other⟩
    · cases opened
      refine ⟨fun place same => (Except.ok.inj same).symm, fun other journal log => ?_⟩
      rw [contents_settle f a journal log, same other]

/-- A path whose text names a file, and is no address of another kind. -/
structure IsPlain (p : Path) : Prop where
  noAddress : ∀ rest, p.toText.toList ≠ 'f' :: 'i' :: 'l' :: 'e' :: ':' :: rest
  named : p.toText ≠ ""
  shared : p.toText ≠ ":memory:"

private theorem ofText_plain {p : Path} (plain : IsPlain p) :
    ∃ a, Address.ofText p.toText = .ok a ∧ a.path = p.toText ∧ a.isPrivate = false := by
  refine ⟨⟨p.toText, .create, false, false, true, false⟩, ?_, rfl, rfl⟩
  have parts : Address.ofText p.toText = Address.ofParts p.toText [] := by
    unfold Address.ofText
    split
    · exact absurd ‹_› (plain.noAddress _)
    · rfl
  rw [parts]
  simp only [Address.ofParts, Address.modeAfter, Address.systems, List.filter_nil,
    List.getLast?_nil, Option.map_none, Option.getD_none, List.lookup_nil, bind, Except.bind]
  simp [plain.named, plain.shared, pure, Except.pure]

theorem openDatabase_spec {d e : Disk} {locked : Option String} {p : Path} (plain : IsPlain p)
    {outcome : Except StoreFault String} (opened : d.openDatabase locked p = (outcome, e)) :
    (∀ place, outcome = .ok place → place = placeOf p) ∧
      ∀ other, placeOf p ++ journalSuffix ≠ other → placeOf p ++ logSuffix ≠ other →
        e.contents other = d.contents other := by
  obtain ⟨a, address, path, shared⟩ := ofText_plain plain
  unfold openDatabase at opened
  simp only [address] at opened
  split at opened
  · cases opened
    exact ⟨by simp, fun _ _ _ => rfl⟩
  · split at opened
    · cases opened
      exact ⟨by simp, fun _ _ _ => rfl⟩
    · cases opened
      exact ⟨by simp, fun _ _ _ => rfl⟩
    · cases reached : d.openAddress locked a with
      | mk answer f =>
        obtain ⟨arrived, same⟩ := openAddress_spec shared reached
        rw [path, Path.ofText_toText] at arrived same
        rw [reached] at opened
        cases answer with
        | error trouble =>
          cases opened
          exact ⟨by simp, same⟩
        | ok place =>
          cases opened
          refine ⟨fun q found => ?_, same⟩
          cases found
          exact arrived place rfl

/-! Whatever an address names, opening it changes no database but to empty it. -/

/-- The contents of a database differ at most by being gone. -/
def OnlyEmpties (d e : Disk) : Prop :=
  ∀ place, e.contents place = d.contents place ∨ e.contents place = .empty

theorem SameContents.onlyEmpties {d e : Disk} (h : SameContents d e) : OnlyEmpties d e :=
  fun place => Or.inl (h place)

theorem OnlyEmpties.trans {d e f : Disk} (h : OnlyEmpties d e) (g : OnlyEmpties e f) :
    OnlyEmpties d f := by
  intro place
  rcases g place with same | gone
  · rw [same]
    exact h place
  · exact Or.inr gone

private theorem onlyEmpties_erase (d : Disk) (place : String) : OnlyEmpties d (d.erase place) := by
  intro other
  by_cases here : place = other
  · right
    apply contents_of_get?_none
    rw [get?, erase, here, SortedMap.get?_erase_self]
  · left
    unfold contents
    rw [get?, erase, SortedMap.get?_erase_of_ne _ here]
    rfl

private theorem onlyEmpties_sweep (d : Disk) (place : String) : OnlyEmpties d (d.sweep place) := by
  unfold sweep
  split
  · exact (SameContents.refl d).onlyEmpties
  · exact onlyEmpties_erase d place

private theorem onlyEmpties_settle (d : Disk) (a : Address) (place : String) :
    OnlyEmpties d (d.settle a place) := by
  unfold settle
  split_ifs
  · exact (sameContents_fill d place).onlyEmpties
  · exact ((onlyEmpties_sweep d _).trans (onlyEmpties_sweep _ _)).trans
      (sameContents_fill _ place).onlyEmpties

private theorem onlyEmpties_openAddress (d : Disk) (locked : Option String) (a : Address) :
    OnlyEmpties d (d.openAddress locked a).2 := by
  unfold openAddress
  split_ifs
  · exact (SameContents.refl d).onlyEmpties
  · intro place
    by_cases here : privatePlace = place
    · rw [← here]
      exact Or.inr (contents_set_self ..)
    · exact Or.inl (contents_set_of_ne d _ here)
  · split
    · rename_i reached
      exact (reach_spec reached).1.onlyEmpties
    · rename_i place e reached
      have same := (reach_spec reached).1.onlyEmpties
      split
      · exact same
      · exact same.trans (onlyEmpties_settle e a place)

theorem onlyEmpties_openDatabase (d : Disk) (locked : Option String) (p : Path) :
    OnlyEmpties d (d.openDatabase locked p).2 := by
  have same : OnlyEmpties d d := (SameContents.refl d).onlyEmpties
  unfold openDatabase
  dsimp only
  split_ifs
  · exact same
  split
  · exact same
  · exact same
  split
  · exact same
  · rename_i a _
    have opened := onlyEmpties_openAddress d locked a
    split <;> rename_i answered <;> rw [answered] at opened <;> exact opened

theorem onlyEmpties_release (d : Disk) (place : String) : OnlyEmpties d (d.release place) := by
  unfold release
  split_ifs
  · exact onlyEmpties_erase d place
  · exact (SameContents.refl d).onlyEmpties

/-! The character zero is refused only where it stands. -/

private theorem makeAll_ne_embeddedNull (d : Disk) (p : Path) :
    (d.makeAll p).1 ≠ .error (.store .embeddedNull) := by
  have ne (p : Path) (fault : DirectoryFault) : directoryFault p fault ≠ .store .embeddedNull := by
    cases fault <;> simp [directoryFault]
  fun_induction makeAll d p with
  | case1 => simp
  | case2 => simp
  | case3 p _ _ _ fault e failed ih =>
    rw [failed] at ih
    exact ih
  | case4 => simp
  | case5 p _ _ _ e _ fault => simpa using ne p fault
  | case6 p fault => simpa using ne p fault

theorem embeddedNull_of_makeDirectories {d : Disk} {p : Path}
    (refused : (d.makeDirectories p).1 = .error (.store .embeddedNull)) :
    '\x00' ∈ p.toText.toList := by
  unfold makeDirectories at refused
  split_ifs at refused with zero
  · exact zero
  · exact absurd refused (makeAll_ne_embeddedNull d p)

theorem embeddedNull_of_openDatabase {d : Disk} {locked : Option String} {p : Path}
    (refused : (d.openDatabase locked p).1 = .error .embeddedNull) : '\x00' ∈ p.toText.toList := by
  unfold openDatabase at refused
  dsimp only at refused
  split_ifs at refused with zero
  · exact zero
  exfalso
  split at refused
  · rename_i fault answered
    unfold isDirectory at answered
    split_ifs at answered
    · cases answered
      cases refused
    · split at answered <;> cases answered
      cases refused
  · cases refused
  · split at refused
    · cases refused
    · split at refused <;> cases refused

end Cellstore.Disk
