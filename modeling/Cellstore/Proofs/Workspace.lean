import Mathlib.Tactic.SplitIfs
import Cellstore.Proofs.Disk
import Cellstore.Workspace

/-! Transactions of a workspace.
A block runs on the contents of an idle store and gives the store back idle. If it fails, the
workspace is the one before. -/
namespace Cellstore

def OpenStore.IsIdle (store : OpenStore) : Prop := store.closed = false ∧ store.busy = false

namespace Workspace

variable {α : Type} {w : Workspace} {name : String} {store : OpenStore}

theorem begin_of_idle (idle : store.IsIdle) : begin store = .ok { store with busy := true } := by
  rw [begin, if_neg (by simp [idle.1]), if_neg (by simp [idle.2])]

theorem idle_of_begin {begun : OpenStore} (h : begin store = .ok begun) : store.IsIdle := by
  unfold begin at h
  split_ifs at h with closed busy
  exact ⟨by simpa using closed, by simpa using busy⟩

private theorem setStore_finish (active : w.session.active = some (name, store))
    (idle : store.IsIdle) :
    (w.setStore name { store with busy := true }).setStore name (finish { store with busy := true }) =
      w := by
  obtain ⟨location, storage, session⟩ := w
  obtain ⟨entry, switches⟩ := session
  obtain ⟨path, place, closed, busy⟩ := store
  cases active
  cases idle.2
  rfl

theorem view_of_idle (active : w.session.active = some (name, store)) (idle : store.IsIdle)
    (body : Contents → Except Failure α) :
    w.view body = (body (w.storage.contents store.place), w) := by
  unfold view Workspace.active
  simp only [active, begin_of_idle idle]
  rw [setStore_finish active idle]
  rfl

theorem update_of_idle (active : w.session.active = some (name, store)) (idle : store.IsIdle)
    (body : Contents → Except Failure (α × Contents)) :
    w.update body = match body (w.storage.contents store.place) with
      | .error failure => (.error failure, w)
      | .ok (a, contents) =>
        (.ok a, { w with storage := w.storage.setContents store.place contents }) := by
  unfold update Workspace.active
  simp only [active, begin_of_idle idle]
  rw [setStore_finish active idle]
  rfl

end Workspace

namespace Storage

@[simp] theorem backend_setContents (s : Storage) (place : String) (c : Contents) :
    (s.setContents place c).backend = s.backend := rfl

@[simp] theorem contents_setContents_self (s : Storage) (place : String) (c : Contents) :
    (s.setContents place c).contents place = c := Disk.contents_set_self ..

theorem contents_setContents_of_ne (s : Storage) {place other : String} (c : Contents)
    (h : place ≠ other) : (s.setContents place c).contents other = s.contents other :=
  Disk.contents_set_of_ne _ _ h

private theorem onlyEmpties_create (s : Storage) (place : String) :
    Disk.OnlyEmpties s.disk (s.create place).disk := by
  unfold create
  split
  · exact (Disk.SameContents.refl _).onlyEmpties
  · rename_i missing
    exact (Disk.sameContents_set (Disk.contents_of_get?_none missing)
      (Disk.contents_set_self ..)).onlyEmpties

theorem backend_open (s : Storage) (directory p : Path) :
    (s.open_ directory p).2.backend = s.backend := by
  unfold open_
  split
  · unfold create
    split <;> rfl
  · split <;> rfl

theorem onlyEmpties_open (s : Storage) (directory p : Path) :
    Disk.OnlyEmpties s.disk (s.open_ directory p).2.disk := by
  unfold open_
  split
  · exact onlyEmpties_create s p.toText
  · have above := (Disk.sameContents_makeDirectories s.disk directory).onlyEmpties
    split
    · rename_i made
      rw [made] at above
      exact above
    · rename_i d made
      rw [made] at above
      exact above.trans (Disk.onlyEmpties_openDatabase d none p)

theorem open_error {s : Storage} {directory p : Path} {fault : OpenFault}
    (refused : (s.open_ directory p).1 = .error fault) : s.backend = .file ∧
      (fault = .store .embeddedNull →
        '\x00' ∈ directory.toText.toList ∨ '\x00' ∈ p.toText.toList) := by
  unfold open_ at refused
  split at refused
  · cases refused
  · rename_i backend
    refine ⟨backend, ?_⟩
    rintro rfl
    split at refused
    · rename_i made
      cases refused
      exact Or.inl (Disk.embeddedNull_of_makeDirectories (congrArg Prod.fst made))
    · rename_i d made
      right
      apply @Disk.embeddedNull_of_openDatabase d none
      dsimp only at refused
      generalize (d.openDatabase none p).1 = answer at refused
      cases answer <;> cases refused
      rfl

theorem onlyEmpties_close (s : Storage) (place : String) :
    Disk.OnlyEmpties s.disk (s.close place).disk := by
  unfold close
  split
  · exact (Disk.SameContents.refl _).onlyEmpties
  · exact Disk.onlyEmpties_release s.disk place

theorem backend_close (s : Storage) (place : String) : (s.close place).backend = s.backend := by
  unfold close
  split <;> rfl

end Storage
end Cellstore
