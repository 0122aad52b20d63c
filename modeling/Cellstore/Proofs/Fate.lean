import Cellstore.Proofs.Location
import Cellstore.Proofs.Run
import Cellstore.Proofs.Table.RowIds

/-! What a command makes of one table.
A table keeps its bucket until it is dropped, whichever database is active. New row ids come from
insertions into it alone, and they are drawn one after the other. -/
namespace Cellstore
open Session (IsDatabaseName)
open Statement (IsStated)

/-- The answer to a command on the database of a table, with what became of the table's bucket. -/
inductive Fate (table : String) (b : Bucket) (command : Command) :
    Except Failure Outcome → Option Bucket → Prop where
  | failed (failure : Failure) : Fate table b command (.error failure) (some b)
  | kept {outcome : Outcome} {b' : Bucket} (insertion : outcome ≠ .inserted table)
      (drop : outcome ≠ .tableDropped table) (adds : AddsNoRow b b') :
      Fate table b command (.ok outcome) (some b')
  | inserted {columns values : List String} {sameLength : columns.length = values.length}
      {b' : Bucket} (insertion : command = .insert table columns values sameLength)
      (drawn : b'.sequence = b.sequence + 1)
      (adds : AddsRow b (b.sequence + 1).toNat (columns.zip values) b') :
      Fate table b command (.ok (.inserted table)) (some b')
  | dropped : Fate table b command (.ok (.tableDropped table)) none

def Fate.Of (table : String) (b : Bucket) (command : Command) :
    Except Failure (Outcome × Contents) → Prop
  | .error _ => True
  | .ok (outcome, c) => Fate table b command (.ok outcome) (c.get? table)

namespace Fate

variable {c : Contents} {table other : String} {b : Bucket} {columns : List String}

private theorem of_insert {command : Command} {outcome : Outcome} {d : Bucket}
    (found : c.get? table = some b) (insertion : outcome ≠ .inserted table)
    (drop : outcome ≠ .tableDropped table) (adds : other = table → AddsNoRow b d) :
    Fate table b command (.ok outcome) ((c.insert other d).get? table) := by
  rw [SortedMap.get?_insert]
  split_ifs with same
  · exact .kept insertion drop (adds same)
  · rw [found]
    exact .kept insertion drop (.refl b)

private theorem eq_of_tableOf {d : Bucket} (found : c.get? table = some b)
    (there : Execution.tableOf c other = .ok d) (same : other = table) : d = b := by
  unfold Execution.tableOf at there
  rw [same, found] at there
  exact (Except.ok.inj there).symm

theorem createTable [Json.Room] (found : c.get? table = some b) (other : String)
    (definitions : List ColumnDefinition) : Of table b (.createTable other definitions)
      (Execution.createTable other definitions c) := by
  unfold Execution.createTable
  split_ifs
  · trivial
  split
  · rename_i d declared
    refine of_insert found nofun nofun ?_
    rintro rfl
    rw [found] at declared
    exact .declare declared
  · trivial

theorem insert (found : c.get? table = some b) (built : Built b columns) {counting : Counting}
    (counts : counting.next b.sequence = b.sequence + 1) (other : String) {names values : List String}
    (distinct : names.Nodup) (sameLength : names.length = values.length) :
    Of table b (.insert other names values sameLength)
      (Execution.insert counting other (names.zip values) c) := by
  unfold Execution.insert
  split
  · trivial
  rename_i d there
  dsimp only [Bucket.nextSequence]
  split
  · rename_i d' written
    by_cases same : other = table
    · obtain rfl := eq_of_tableOf found there same
      subst same
      obtain ⟨id, drawn⟩ := Int.eq_ofNat_of_zero_le (show 0 ≤ d.sequence + 1 by
        have := built.counted
        omega)
      have named : ((names.zip values).map (·.1)).Nodup := by
        rw [List.map_fst_zip (Nat.le_of_eq sameLength)]
        exact distinct
      rw [counts, drawn] at written
      have counted : d'.sequence = id := Rows.sequence_putCells written
      unfold Of
      dsimp only
      rw [SortedMap.get?_insert_self]
      refine .inserted rfl (counted.trans drawn.symm) ?_
      rw [drawn, Int.toNat_natCast]
      exact .putCells built drawn.symm named written
    · refine of_insert found ?_ (by simp) fun here => absurd here same
      simpa using same
  · trivial

theorem update (found : c.get? table = some b) (other column value : String) (filter : Filter) :
    Of table b (.update other column value filter)
      (Execution.update other column value filter c) := by
  unfold Execution.update
  split
  · trivial
  rename_i d there
  dsimp only
  split
  · rename_i d' written
    refine of_insert found nofun nofun fun same => ?_
    obtain rfl := eq_of_tableOf found there same
    exact .assign written
  · trivial

theorem delete (found : c.get? table = some b) (other : String) (filter : Filter) :
    Of table b (.delete other filter) (Execution.delete other filter c) := by
  unfold Execution.delete
  split
  · trivial
  rename_i d there
  refine of_insert found nofun nofun fun same => ?_
  obtain rfl := eq_of_tableOf found there same
  exact .delete d filter

theorem dropTable (found : c.get? table = some b) (other : String) :
    Of table b (.dropTable other) (Execution.dropTable other c) := by
  unfold Execution.dropTable
  split_ifs
  · unfold Of
    dsimp only
    rw [SortedMap.get?_erase]
    split_ifs with same
    · subst same
      exact .dropped
    · rw [found]
      refine .kept nofun ?_ (.refl b)
      rintro ⟨⟩
      exact same rfl
  · trivial

end Fate

namespace Workspace

def bucket? (w : Workspace) (database table : String) : Option Bucket :=
  (w.storage.contents (w.location.place w.storage.backend database)).get? table

theorem bucket?_setContents {w : Workspace} {name place : String}
    (here : place = w.location.place w.storage.backend name) (c : Contents) (table : String) :
    bucket? { w with storage := w.storage.setContents place c } name table = c.get? table := by
  show ((w.storage.setContents place c).contents
    (w.location.place w.storage.backend name)).get? table = _
  rw [← here, Storage.contents_setContents_self]

structure IsPlaced (w : Workspace) : Prop where
  laid : w.IsLaid
  sound : w.location.IsSound w.storage.backend
  active : ∀ name store, w.session.active = some (name, store) →
    IsDatabaseName name ∧ store.place = w.location.place w.storage.backend name

/-- Databases stay where they are, and are only written while they are active. -/
structure StaysPlaced (w v : Workspace) : Prop where
  placed : v.IsPlaced
  location : v.location = w.location
  backend : v.storage.backend = w.storage.backend

namespace StaysPlaced

variable {w v : Workspace}

theorem trans {u : Workspace} (first : w.StaysPlaced v) (second : v.StaysPlaced u) :
    w.StaysPlaced u :=
  ⟨second.placed, second.location.trans first.location, second.backend.trans first.backend⟩

theorem bucket?_eq (h : w.StaysPlaced v) {database : String}
    (same : v.storage.contents (w.location.place w.storage.backend database) =
      w.storage.contents (w.location.place w.storage.backend database)) (table : String) :
    v.bucket? database table = w.bucket? database table := by
  rw [bucket?, bucket?, h.location, h.backend, same]

end StaysPlaced

namespace IsPlaced

variable {w : Workspace}

theorem refl (h : w.IsPlaced) : w.StaysPlaced w := ⟨h, rfl, rfl⟩

theorem close_eq (h : w.IsPlaced) : w.session.close w.location.opener w.storage =
    (.ok (), { w.session with active := none }, w.storage) := by
  obtain ⟨location, storage, active, switches⟩ := w
  cases active with
  | none => rfl
  | some entry =>
    obtain ⟨named, place⟩ := h.active entry.1 entry.2 rfl
    have kept : storage.close entry.2.place = storage := by
      rw [place]
      exact Location.close_place h.sound named rfl
    show (Except.ok (), _, storage.close entry.2.place) = _
    rw [kept]

theorem open_ (h : w.IsPlaced) (name : String) (outcome : Outcome) :
    w.StaysPlaced (Execution.open_ w name outcome).2 ∧
      ∀ database, IsDatabaseName database → ∀ table,
        (Execution.open_ w name outcome).2.bucket? database table = w.bucket? database table := by
  have steps := h.laid.open_ name outcome
  have stays (active : ∀ name' store,
      (Execution.open_ w name outcome).2.session.active = some (name', store) →
      IsDatabaseName name' ∧ store.place = w.location.place w.storage.backend name') :
      w.StaysPlaced (Execution.open_ w name outcome).2 := by
    refine ⟨⟨steps.laid, ?_, ?_⟩, steps.location, steps.backend⟩
    · rw [steps.location, steps.backend]
      exact h.sound
    · rw [steps.location, steps.backend]
      exact active
  unfold Execution.open_ Workspace.use Session.use at *
  by_cases named : IsDatabaseName name
  · rw [if_neg (not_not_intro named), h.close_eq] at *
    dsimp only at *
    cases answered : w.location.opener.open_ (w.location.opener.pathOf name) w.storage with
    | mk answer s =>
      obtain ⟨opened, backend, kept⟩ := Location.open_spec h.sound named rfl answered
      rw [answered] at stays
      cases answer with
      | error fault =>
        have placed := stays nofun
        exact ⟨placed, fun database known table => placed.bucket?_eq (kept database known) table⟩
      | ok store =>
        have placed := stays (by
          rintro _ _ ⟨⟩
          exact ⟨named, by rw [opened store rfl]⟩)
        exact ⟨placed, fun database known table => placed.bucket?_eq (kept database known) table⟩
  · rw [if_pos named] at *
    have placed := stays h.active
    exact ⟨placed, fun _ _ _ => rfl⟩

end IsPlaced

/-- What a command makes of all tables: those of the active database have their fate, and those of
other databases stay as they are. -/
structure Decides (w : Workspace) (command : Command) (r : Except Failure Outcome × Workspace) :
    Prop where
  stays : w.StaysPlaced r.2
  elsewhere : ∀ database, IsDatabaseName database → w.databaseName ≠ some database →
    ∀ table, r.2.bucket? database table = w.bucket? database table
  here : ∀ database table b, w.databaseName = some database → w.bucket? database table = some b →
    w.storage.backend.counting.next b.sequence = b.sequence + 1 →
    Fate table b command r.1 (r.2.bucket? database table)

namespace IsPlaced

variable {w : Workspace}

theorem fails (h : w.IsPlaced) (command : Command) (failure : Failure) :
    w.Decides command (.error failure, w) where
  stays := h.refl
  elsewhere := fun _ _ _ _ => rfl
  here := by
    intro database table b _ found _
    rw [found]
    exact .failed failure

theorem choose (h : w.IsPlaced) (command : Command) (name : String) {outcome : Outcome}
    (insertion : ∀ table, outcome ≠ .inserted table) (drop : ∀ table, outcome ≠ .tableDropped table) :
    w.Decides command (Execution.open_ w name outcome) := by
  obtain ⟨stays, kept⟩ := h.open_ name outcome
  refine ⟨stays, fun database known _ table => kept database known table, ?_⟩
  intro database table b active found _
  obtain ⟨⟨_, store⟩, entry, rfl⟩ := Option.map_eq_some_iff.mp active
  rw [kept _ (h.active _ store entry).1, found]
  show Fate table b command ((w.use name).1.map fun _ => outcome) (some b)
  cases (w.use name).1 with
  | error failure => exact .failed failure
  | ok path => exact .kept (insertion table) (drop table) (.refl b)

theorem view (h : w.IsPlaced) {name : String} {store : OpenStore}
    (active : w.session.active = some (name, store)) {command : Command}
    {body : Contents → Except Failure Outcome}
    (selects : ∀ c outcome, body c = .ok outcome →
      ∀ table, outcome ≠ .inserted table ∧ outcome ≠ .tableDropped table) :
    w.Decides command (w.view body) := by
  rw [view_of_idle active (h.laid.idle name store active)]
  refine ⟨h.refl, fun _ _ _ _ => rfl, fun database table b _ found _ => ?_⟩
  rw [found]
  cases answer : body (w.storage.contents store.place) with
  | error failure => exact .failed failure
  | ok outcome =>
    obtain ⟨insertion, drop⟩ := selects _ outcome answer table
    exact .kept insertion drop (.refl b)

theorem update (h : w.IsPlaced) {name : String} {store : OpenStore}
    (active : w.session.active = some (name, store)) {command : Command}
    {body : Contents → Except Failure (Outcome × Contents)} (laid : (w.update body).2.IsLaid)
    (fates : ∀ c, Laid c → ∀ table b, c.get? table = some b →
      w.storage.backend.counting.next b.sequence = b.sequence + 1 → Fate.Of table b command (body c)) :
    w.Decides command (w.update body) := by
  have fate := fates _ (h.laid.contents store.place)
  rw [update_of_idle active (h.laid.idle name store active)] at laid ⊢
  obtain ⟨named, place⟩ := h.active name store active
  cases answer : body (w.storage.contents store.place) with
  | error failure => exact h.fails command failure
  | ok result =>
    obtain ⟨outcome, c⟩ := result
    rw [answer] at laid fate
    have stays : w.StaysPlaced { w with storage := w.storage.setContents store.place c } :=
      ⟨⟨laid, h.sound, h.active⟩, rfl, rfl⟩
    refine ⟨stays, fun database known other table => ?_, fun database table b this found counts => ?_⟩
    · refine stays.bucket?_eq (Storage.contents_setContents_of_ne _ _ fun same => other ?_) table
      rw [place] at same
      rw [Workspace.databaseName, Session.databaseName, active,
        Location.place_injective h.sound known named same.symm]
      rfl
    · obtain ⟨⟨_, other⟩, entry, rfl⟩ := Option.map_eq_some_iff.mp this
      cases active.symm.trans entry
      rw [bucket?, ← place] at found
      have turned := fate table b found counts
      rw [bucket?_setContents place]
      exact turned

theorem execute [Json.Room] (h : w.IsPlaced) {c : Command} (stated : IsStated c) :
    w.Decides c (Execution.execute w (.command c)) := by
  have laid := (h.laid.execute stated).laid
  unfold Execution.execute at *
  split_ifs at * with missing
  · exact h.fails c .noDatabase
  have present (requires : c.requiresDatabase = true) :
      ∃ name store, w.session.active = some (name, store) := by
    cases active : w.session.active with
    | none => exact absurd ⟨requires, by rw [active]; rfl⟩ missing
    | some entry => exact ⟨entry.1, entry.2, rfl⟩
  cases c with
  | createDatabase name => exact h.choose _ name nofun nofun
  | useDatabase name => exact h.choose _ name nofun nofun
  | createTable table columns =>
    obtain ⟨name, store, active⟩ := present rfl
    exact h.update active laid fun c _ other b found _ => Fate.createTable found table columns
  | insert table columns values sameLength =>
    obtain ⟨name, store, active⟩ := present rfl
    refine h.update active laid fun c laid other b found counts => ?_
    obtain ⟨declared, -, built⟩ := laid other b found
    exact Fate.insert found built counts table stated.2.2.1 sameLength
  | select table columns filter =>
    obtain ⟨name, store, active⟩ := present rfl
    refine h.view active fun c outcome selected other => ?_
    unfold Execution.select at selected
    split at selected
    · cases selected
    · dsimp only at selected
      split at selected <;> cases selected
      exact ⟨nofun, nofun⟩
  | update table column value filter =>
    obtain ⟨name, store, active⟩ := present rfl
    exact h.update active laid fun c _ other b found _ => Fate.update found table column value filter
  | delete table filter =>
    obtain ⟨name, store, active⟩ := present rfl
    exact h.update active laid fun c _ other b found _ => Fate.delete found table filter
  | dropTable table =>
    obtain ⟨name, store, active⟩ := present rfl
    exact h.update active laid fun c _ other b found _ => Fate.dropTable found table

private theorem eq_of_update (h : w.IsPlaced) {name : String} {store : OpenStore}
    (active : w.session.active = some (name, store)) {outcome : Outcome}
    {body : Contents → Except Failure (Outcome × Contents)}
    (done : (w.update body).1 = .ok outcome) :
    ∃ c, body (w.storage.contents store.place) = .ok (outcome, c) ∧
      ∀ table, (w.update body).2.bucket? name table = c.get? table := by
  obtain ⟨-, place⟩ := h.active name store active
  rw [update_of_idle active (h.laid.idle name store active)] at done ⊢
  cases answer : body (w.storage.contents store.place) with
  | error failure =>
    rw [answer] at done
    cases done
  | ok result =>
    rw [answer] at done
    cases done
    exact ⟨result.2, rfl, bucket?_setContents place result.2⟩

theorem creates [Json.Room] (h : w.IsPlaced) {c : Command} {database table : String}
    (active : w.databaseName = some database) (absent : w.bucket? database table = none)
    (created : (Execution.execute w (.command c)).1 = .ok (.tableCreated table)) :
    ∃ b, (Execution.execute w (.command c)).2.bucket? database table = some b ∧ b.sequence = 0 := by
  obtain ⟨⟨_, store⟩, entry, rfl⟩ := Option.map_eq_some_iff.mp active
  have present : ¬ (Execution.Request.requiresDatabase (.command c) ∧ w.session.active.isNone) := by
    rw [entry]
    simp
  rw [Execution.execute, if_neg present] at created ⊢
  -- No other command answers that a table was created.
  cases c with
  | createDatabase name | useDatabase name =>
    unfold Execution.run Execution.open_ at created
    cases opened : (w.use name).1 <;> simp [opened, Except.map] at created
  | createTable name columns =>
    obtain ⟨c, made, there⟩ := h.eq_of_update entry created
    unfold Execution.createTable at made
    split_ifs at made
    split at made
    · rename_i b declared
      cases made
      have missing : (w.storage.contents store.place).get? table = none := by
        rw [(h.active _ store entry).2]
        exact absent
      rw [missing, Option.getD_none] at declared
      refine ⟨b, (there table).trans (SortedMap.get?_insert_self ..), ?_⟩
      exact (AddsNoRow.declare declared).sequence
    · cases made
  | select name columns filter =>
    rw [Execution.run, view_of_idle entry (h.laid.idle _ store entry)] at created
    unfold Execution.select at created
    split at created
    · cases created
    · dsimp only at created
      split at created <;> cases created
  | insert name columns values sameLength =>
    obtain ⟨c, made, -⟩ := h.eq_of_update entry created
    unfold Execution.insert at made
    split at made
    · cases made
    · dsimp only at made
      split at made <;> cases made
  | update name column value filter =>
    obtain ⟨c, made, -⟩ := h.eq_of_update entry created
    unfold Execution.update at made
    split at made
    · cases made
    · dsimp only at made
      split at made <;> cases made
  | delete name filter =>
    obtain ⟨c, made, -⟩ := h.eq_of_update entry created
    unfold Execution.delete at made
    split at made <;> cases made
  | dropTable name =>
    obtain ⟨c, made, -⟩ := h.eq_of_update entry created
    unfold Execution.dropTable at made
    split_ifs at made
    cases made

end IsPlaced
end Workspace
end Cellstore
