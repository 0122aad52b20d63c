import Mathlib.Logic.Function.Basic
import Cellstore.Proofs.Location
import Cellstore.Proofs.Workspace

/-! Databases are told apart by their names.
The file of a database is one more part below the data directory, whatever the directory is written
like, and no other name has the same file. So what is kept in memory by path is kept by name: a
workspace answers as if every name had contents of its own. -/
namespace Cellstore

namespace Location
open Session (IsDatabaseName)
open Settings (isSuffix)

variable {l : Location} {name other : String}

theorem parent_pathOf (valid : isSuffix l.suffix.toList = true) (named : IsDatabaseName name) :
    (l.pathOf name).parent = l.directory := by
  obtain ⟨root, parts⟩ := pathOf_parts valid named
  have above : (l.pathOf name).parts.dropLast = l.directory.parts := by
    rw [parts, List.dropLast_concat]
  exact Path.eq_of_parts root above

theorem pathOf_injective (valid : isSuffix l.suffix.toList = true) (named : IsDatabaseName name)
    (another : IsDatabaseName other) (same : l.pathOf name = l.pathOf other) : name = other := by
  have sound : l.IsSound .memory := ⟨valid, by rintro ⟨⟩⟩
  exact place_injective sound named another (congrArg Path.toText same)

end Location

/-! Workspaces that keep their databases in memory. -/

section
open Session (IsDatabaseName)

variable {α : Type}

inductive Deed (α : Type) where
  | use (name : String)
  | close
  /-- The active store is closed underneath its session. -/
  | closeStore
  | view (body : Contents → Except Failure α)
  | update (body : Contents → Except Failure (α × Contents))

inductive Answer (α : Type) where
  | path (p : Path)
  | done
  | value (a : α)

namespace Workspace

def perform (w : Workspace) : Deed α → Except Failure (Answer α) × Workspace
  | .use name => ((w.use name).1.map .path, (w.use name).2)
  | .close => (w.close.1.map fun _ => .done, w.close.2)
  | .closeStore => (w.closeStore.1.map fun _ => .done, w.closeStore.2)
  | .view body => ((w.view body).1.map .value, (w.view body).2)
  | .update body => ((w.update body).1.map .value, (w.update body).2)

def answers (w : Workspace) : List (Deed α) → List (Except Failure (Answer α))
  | [] => []
  | d :: deeds => (w.perform d).1 :: (w.perform d).2.answers deeds

end Workspace

/-- Contents for every name, and the active name. The flag says that its store is still open. -/
structure Shelf where
  contents : String → Contents
  active : Option (String × Bool)

namespace Shelf

variable {l : Location} {s : Shelf}

def empty : Shelf := ⟨fun _ => .empty, none⟩

/-- The name that blocks work on. A store that was closed is shown by its path. -/
def chosen (l : Location) (s : Shelf) : Except Failure String :=
  match s.active with
  | none => .error .noDatabase
  | some (name, true) => .ok name
  | some (name, false) => .error (.ofStore (.closed (l.pathOf name).toText))

theorem active_of_chosen {name : String} (chosen : s.chosen l = .ok name) :
    s.active = some (name, true) := by
  unfold Shelf.chosen at chosen
  split at chosen
  · cases chosen
  · rename_i active
    cases chosen
    exact active
  · cases chosen

def perform (l : Location) (s : Shelf) : Deed α → Except Failure (Answer α) × Shelf
  | .use name =>
    if IsDatabaseName name then
      (.ok (.path (l.pathOf name)), { s with active := some (name, true) })
    else (.error (.invalidDatabaseName name), s)
  | .close => (.ok .done, { s with active := none })
  | .closeStore => match s.active with
    | none => (.error .noDatabase, s)
    | some (name, _) => (.ok .done, { s with active := some (name, false) })
  | .view body => match s.chosen l with
    | .error failure => (.error failure, s)
    | .ok name => ((body (s.contents name)).map .value, s)
  | .update body => match s.chosen l with
    | .error failure => (.error failure, s)
    | .ok name => match body (s.contents name) with
      | .error failure => (.error failure, s)
      | .ok (a, c) => (.ok (.value a), { s with contents := Function.update s.contents name c })

def answers (l : Location) (s : Shelf) : List (Deed α) → List (Except Failure (Answer α))
  | [] => []
  | d :: deeds => (s.perform l d).1 :: (s.perform l d).2.answers l deeds

end Shelf

def Location.storeOf (l : Location) (name : String) (isOpen : Bool) : OpenStore :=
  ⟨l.pathOf name, l.place .memory name, !isOpen, false⟩

/-- A workspace in memory that keeps what stands on a shelf. -/
structure KeepsShelf (l : Location) (w : Workspace) (s : Shelf) : Prop where
  location : w.location = l
  backend : w.storage.backend = .memory
  active : w.session.active = s.active.map fun e => (e.1, l.storeOf e.1 e.2)
  named : ∀ name isOpen, s.active = some (name, isOpen) → IsDatabaseName name
  contents : ∀ name, IsDatabaseName name →
    w.storage.contents (l.place .memory name) = s.contents name

theorem keepsShelf_new (l : Location) : KeepsShelf l (.new l (.empty .memory)) .empty :=
  ⟨rfl, rfl, rfl, nofun, fun _ _ => rfl⟩

namespace KeepsShelf

variable {l : Location} {w : Workspace} {s : Shelf} {name : String} {isOpen : Bool}

theorem session_active (h : KeepsShelf l w s) (active : s.active = some (name, isOpen)) :
    w.session.active = some (name, l.storeOf name isOpen) := by
  rw [h.active, active]
  rfl

theorem inactive (h : KeepsShelf l w s) (nothing : s.active = none) : w.session.active = none := by
  rw [h.active, nothing]
  rfl

/-- Closing gives up the store and changes nothing in memory. -/
theorem session_close (h : KeepsShelf l w s) : w.session.close l.opener w.storage =
    (.ok (), { w.session with active := none }, w.storage) := by
  have released (place : String) : w.storage.close place = w.storage := by
    rw [Storage.close, h.backend]
  obtain ⟨location, storage, active, switches⟩ := w
  cases active with
  | none => rfl
  | some entry =>
    simp only [Session.close, Location.opener, released]
    rfl

/-- Opening the database of a name finds what was kept under it and leaves the others alone. -/
theorem use (h : KeepsShelf l w s) (sound : l.IsSound .memory) (named : IsDatabaseName name) :
    (w.use name).1 = .ok (l.pathOf name) ∧
      KeepsShelf l (w.use name).2 { s with active := some (name, true) } := by
  obtain ⟨store, later, opened⟩ := l.open_memory (l.pathOf name) h.backend
  obtain ⟨found, backend, kept⟩ := Location.open_spec sound named h.backend opened
  obtain rfl := found store rfl
  have used : w.session.use l.opener name w.storage = (.ok (l.pathOf name),
      ⟨some (name, l.storeOf name true), w.session.switches + 1⟩, later) := by
    rw [Session.use, if_neg (not_not_intro named), h.session_close]
    simp only [Location.opener] at opened ⊢
    simp only [opened]
    rfl
  rw [Workspace.use, h.location, used]
  refine ⟨rfl, rfl, backend, rfl, ?_, fun other another => ?_⟩
  · rintro _ _ ⟨⟩
    exact named
  · exact (kept other another).trans (h.contents other another)

theorem close (h : KeepsShelf l w s) :
    w.close.1 = .ok () ∧ KeepsShelf l w.close.2 { s with active := none } := by
  rw [Workspace.close, h.location, h.session_close]
  exact ⟨rfl, rfl, h.backend, rfl, nofun, h.contents⟩

theorem closeStore (h : KeepsShelf l w s) (active : s.active = some (name, isOpen)) :
    w.closeStore.1 = .ok () ∧ KeepsShelf l w.closeStore.2 { s with active := some (name, false) } := by
  rw [Workspace.closeStore, Workspace.active, h.session_active active]
  refine ⟨rfl, h.location, h.backend, rfl, ?_, h.contents⟩
  rintro _ _ ⟨⟩
  exact h.named name isOpen active

theorem blocks_refused (h : KeepsShelf l w s) {failure : Failure} (refused : s.chosen l = .error failure) :
    (∀ body : Contents → Except Failure α, w.view body = (.error failure, w)) ∧
      ∀ body : Contents → Except Failure (α × Contents), w.update body = (.error failure, w) := by
  unfold Shelf.chosen at refused
  unfold Workspace.view Workspace.update Workspace.active
  split at refused
  · rename_i nothing
    cases refused
    simp only [h.inactive nothing, implies_true, and_self]
  · cases refused
  · rename_i name active
    cases refused
    simp only [h.session_active active]
    exact ⟨fun _ => rfl, fun _ => rfl⟩

theorem view (h : KeepsShelf l w s) (active : s.active = some (name, true))
    (body : Contents → Except Failure α) : w.view body = (body (s.contents name), w) := by
  rw [Workspace.view_of_idle (h.session_active active) ⟨rfl, rfl⟩,
    ← h.contents name (h.named name true active)]
  rfl

theorem update (h : KeepsShelf l w s) (active : s.active = some (name, true))
    (body : Contents → Except Failure (α × Contents)) :
    w.update body = match body (s.contents name) with
      | .error failure => (.error failure, w)
      | .ok (a, c) =>
        (.ok a, { w with storage := w.storage.setContents (l.place .memory name) c }) := by
  rw [Workspace.update_of_idle (h.session_active active) ⟨rfl, rfl⟩,
    ← h.contents name (h.named name true active)]
  rfl

theorem setContents (h : KeepsShelf l w s) (sound : l.IsSound .memory) (named : IsDatabaseName name)
    (c : Contents) :
    KeepsShelf l { w with storage := w.storage.setContents (l.place .memory name) c }
      { s with contents := Function.update s.contents name c } := by
  refine ⟨h.location, h.backend, h.active, h.named, fun other another => ?_⟩
  dsimp only
  by_cases same : other = name
  · subst same
    rw [Function.update_self]
    exact Storage.contents_setContents_self ..
  · rw [Function.update_of_ne same, ← h.contents other another]
    refine Storage.contents_setContents_of_ne _ _ fun place => same ?_
    exact (Location.place_injective sound named another place).symm

/-- Every deed is answered as on the shelf, and keeps what stands there. -/
theorem step (h : KeepsShelf l w s) (sound : l.IsSound .memory) (d : Deed α) :
    (w.perform d).1 = (s.perform l d).1 ∧ KeepsShelf l (w.perform d).2 (s.perform l d).2 := by
  unfold Workspace.perform Shelf.perform
  cases d with
  | use name =>
    dsimp only
    by_cases named : IsDatabaseName name
    · obtain ⟨path, kept⟩ := h.use sound named
      rw [if_pos named, path]
      exact ⟨rfl, kept⟩
    · rw [if_neg named, Workspace.use, Session.use_of_not_isDatabaseName _ _ _ named]
      exact ⟨rfl, h⟩
  | close =>
    obtain ⟨done, kept⟩ := h.close
    dsimp only
    rw [done]
    exact ⟨rfl, kept⟩
  | closeStore =>
    cases active : s.active with
    | none =>
      dsimp only
      rw [Workspace.closeStore, Workspace.active, h.inactive active]
      exact ⟨rfl, h⟩
    | some entry =>
      obtain ⟨done, kept⟩ := h.closeStore active
      dsimp only
      rw [done]
      exact ⟨rfl, kept⟩
  | view body =>
    cases chosen : s.chosen l with
    | error failure =>
      dsimp only
      rw [(h.blocks_refused chosen).1 body]
      exact ⟨rfl, h⟩
    | ok name =>
      dsimp only
      rw [h.view (Shelf.active_of_chosen chosen) body]
      exact ⟨rfl, h⟩
  | update body =>
    cases chosen : s.chosen l with
    | error failure =>
      dsimp only
      rw [(h.blocks_refused chosen).2 body]
      exact ⟨rfl, h⟩
    | ok name =>
      have active := Shelf.active_of_chosen chosen
      dsimp only
      rw [h.update active body]
      cases body (s.contents name) with
      | error failure => exact ⟨rfl, h⟩
      | ok result => exact ⟨rfl, h.setContents sound (h.named name true active) result.2⟩

theorem answers (h : KeepsShelf l w s) (sound : l.IsSound .memory) (deeds : List (Deed α)) :
    w.answers deeds = s.answers l deeds := by
  induction deeds generalizing w s with
  | nil => rfl
  | cons d deeds ih =>
    obtain ⟨answer, kept⟩ := h.step sound d
    rw [Workspace.answers, Shelf.answers, answer, ih kept]

end KeepsShelf

/-- Under every data directory and suffix, a name that is admitted gives a file just below the
directory, and no other name gives the same one. In memory every name has contents of its own, which
are found again whenever the name is used. -/
theorem names_tell_databases_apart {text suffix : String}
    (valid : Settings.isSuffix suffix.toList = true) :
    let l : Location := ⟨Path.ofText text, suffix⟩
    (∀ name, IsDatabaseName name →
      (l.pathOf name).root = l.directory.root ∧
      (l.pathOf name).parts = l.directory.parts ++ [name ++ suffix] ∧
      (l.pathOf name).parent = l.directory ∧
      IsPathPart (name ++ suffix) ∧ name ++ suffix ≠ "..") ∧
    (∀ name other, IsDatabaseName name → IsDatabaseName other →
      l.pathOf name = l.pathOf other → name = other) ∧
    ∀ (α : Type) (deeds : List (Deed α)),
      (Workspace.new l (.empty .memory)).answers deeds = Shelf.empty.answers l deeds := by
  intro l
  refine ⟨fun name named => ?_, fun name other named another => ?_, fun α deeds => ?_⟩
  · obtain ⟨root, parts⟩ := Location.pathOf_parts (l := l) valid named
    exact ⟨root, parts, Location.parent_pathOf valid named,
      Location.isPathPart_fileName (l := l) valid named⟩
  · exact Location.pathOf_injective valid named another
  · exact (keepsShelf_new l).answers ⟨valid, by rintro ⟨⟩⟩ deeds

/-- Names with dots under a directory that is not written plainly. -/
theorem names_tell_databases_apart_dots :
    let l : Location := ⟨Path.ofText "//srv/.././Dbs//", ".d_1"⟩
    (l.pathOf "...").toText = "//srv/../Dbs/....d_1" ∧ (l.pathOf "...").parent = l.directory ∧
    (Workspace.new l (.empty .memory)).answers
      [.use "...", .update fun c => .ok ([], c.insert "t" .empty), .use "....d_1",
        .view fun c => .ok c.keys, .closeStore, .view fun c => .ok c.keys, .use "a/b", .use "...",
        .view fun c => .ok c.keys] =
      [.ok (.path (l.pathOf "...")), .ok (.value []), .ok (.path (l.pathOf "....d_1")),
        .ok (.value []), .ok .done, .error (.ofStore (.closed (l.pathOf "....d_1").toText)),
        .error (.invalidDatabaseName "a/b"), .ok (.path (l.pathOf "...")), .ok (.value ["t"])] := by
  intro l
  obtain ⟨below, -, kept⟩ :=
    @names_tell_databases_apart "//srv/.././Dbs//" ".d_1" (by decide)
  exact ⟨by decide, (below "..." (by decide)).2.2.1, (kept _ _).trans rfl⟩

end
end Cellstore
