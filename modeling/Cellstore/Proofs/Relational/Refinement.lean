import Cellstore.Proofs.Location
import Cellstore.Proofs.Relational.Contents
import Cellstore.Proofs.Workspace

/-! Commands refine the relational model.
A workspace stands for a model when the active databases agree and every database of the
model is represented at its place. One command keeps this, with the same outcome on both
sides, and so does every run. -/
namespace Cellstore.Relational
open Session (IsDatabaseName)

def outcomes [Json.Room] (w : Workspace) : List Command → List (Except Failure Outcome)
  | [] => []
  | c :: rest =>
    (Execution.execute w (.command c)).1 :: outcomes (Execution.execute w (.command c)).2 rest

/-- What the world answers to the opening that a command asks for: the fault of the data directory or
of the file, if there is one. -/
def refusal? (w : Workspace) : Command → Option OpenFault
  | .createDatabase name | .useDatabase name =>
    match (w.storage.open_ w.location.directory (w.location.pathOf name)).1 with
    | .error fault => some fault
    | .ok _ => none
  | _ => none

/-- The answers to the openings of a run, each as the workspace stands when its turn comes. -/
def refusals [Json.Room] (w : Workspace) : List Command → List (Option OpenFault)
  | [] => []
  | c :: rest => refusal? w c :: refusals (Execution.execute w (.command c)).2 rest

theorem length_refusals [Json.Room] (w : Workspace) (commands : List Command) :
    (refusals w commands).length = commands.length := by
  induction commands generalizing w with
  | nil => rfl
  | cons c commands ih => exact congrArg (· + 1) (ih _)

theorem refusal?_of_memory {w : Workspace} (memory : w.storage.backend = .memory) (c : Command) :
    refusal? w c = none := by
  unfold refusal? Storage.open_
  rw [memory]
  cases c <;> rfl

theorem refusal?_of_open {w : Workspace} {c : Command} {name : String}
    (opening : c = .createDatabase name ∨ c = .useDatabase name) : refusal? w c =
      match (w.location.opener.open_ (w.location.pathOf name) w.storage).1 with
      | .error fault => some fault
      | .ok _ => none := by
  have asked : refusal? w c =
      match (w.storage.open_ w.location.directory (w.location.pathOf name)).1 with
      | .error fault => some fault
      | .ok _ => none := by
    rcases opening with rfl | rfl <;> rfl
  rw [asked]
  unfold Location.opener
  dsimp only
  rcases w.storage.open_ w.location.directory (w.location.pathOf name) with ⟨_ | _, _⟩ <;> rfl

/-- What the rules of statements guarantee of a command. -/
def WellFormed : Command → Prop
  | .createTable table _ => table ≠ ""
  | .insert _ columns _ _ => columns ≠ [] ∧ ∀ column ∈ columns, IsColumnName column
  | .update _ column _ _ => IsColumnName column
  | _ => True

instance : DecidablePred WellFormed := fun c => by
  cases c <;> unfold WellFormed <;> infer_instance

/-- The first row id that cannot be read back, or that a counter does not reach. -/
def rowIds : Backend → Nat
  | .memory => 10 ^ CellKey.digitLimit
  | .file => 2 ^ 63

theorem roomy_of_lt {b : Backend} {n : Nat} (h : n < rowIds b) : Roomy b.counting n := by
  cases b with
  | memory => exact ⟨h, fun _ _ => rfl⟩
  | file =>
    have small : (2 : Nat) ^ 63 ≤ 10 ^ 19 := by decide
    have large : (10 : Nat) ^ 19 ≤ 10 ^ CellKey.digitLimit :=
      Nat.pow_le_pow_right (by decide) (by decide)
    refine ⟨Nat.lt_of_lt_of_le h (Nat.le_trans small large), fun k le => ?_⟩
    have below : (k : Int) < 0x8000000000000000 := by
      have bound : n < 2 ^ 63 := h
      omega
    exact Counting.next_of_lt below

def idleStore (l : Location) (b : Backend) (name : String) : OpenStore :=
  ⟨l.pathOf name, l.place b name, false, false⟩

structure Refines (l : Location) (b : Backend) (w : Workspace) (m : Model) (n : Nat) : Prop where
  location : w.location = l
  backend : w.storage.backend = b
  active : w.session.active = m.active.map fun name => (name, idleStore l b name)
  chosen : ∀ name, m.active = some name → IsDatabaseName name
  contents : ∀ name, IsDatabaseName name →
    Represents (w.storage.contents (l.place b name)) (m.database name)
  within : ∀ name, (m.database name).Within n

theorem refines_new (l : Location) (b : Backend) :
    Refines l b (.new l (.empty b)) .empty 0 where
  location := rfl
  backend := rfl
  active := rfl
  chosen := by simp [Model.empty]
  contents := fun _ _ => represents_empty
  within := fun _ => Database.within_empty 0

theorem Model.database_insert (m : Model) (name other : String) (d : Database)
    (active : Option String) :
    Model.database ⟨m.databases.insert name d, active⟩ other =
      if name = other then d else m.database other := by
  unfold Model.database
  rw [SortedMap.get?_insert]
  split_ifs <;> rfl

theorem Model.onActive_eq {m : Model} {name : String} (active : m.active = some name)
    (c : Command) : m.onActive c = match (m.database name).run c with
      | .ok (outcome, d) => (.ok outcome, ⟨m.databases.insert name d, some name⟩)
      | .error failure => (.error failure, m) := by
  unfold Model.onActive
  cases result : (m.database name).run c with
  | ok r => simp only [active, result]
  | error failure => simp only [active, result]

namespace Refines

variable {l : Location} {b : Backend} {w : Workspace} {m : Model} {n k : Nat}

theorem mono (h : Refines l b w m n) (le : n ≤ k) : Refines l b w m k :=
  { h with within := fun name => Database.within_mono (h.within name) le }

theorem idle_store (h : Refines l b w m n) {name : String} (active : m.active = some name) :
    w.session.active = some (name, idleStore l b name) := by
  rw [h.active, active]
  rfl

theorem put (h : Refines l b w m n) (le : n ≤ k) {name : String} (named : IsDatabaseName name)
    {d : Database} (within : d.Within k) {v : Workspace} (location : v.location = l)
    (backend : v.storage.backend = b) (active : v.session.active = some (name, idleStore l b name))
    (here : Represents (v.storage.contents (l.place b name)) d)
    (others : ∀ other, IsDatabaseName other → name ≠ other →
      v.storage.contents (l.place b other) = w.storage.contents (l.place b other)) :
    Refines l b v ⟨m.databases.insert name d, some name⟩ k := by
  refine ⟨location, backend, active, ?_, fun other another => ?_, fun other => ?_⟩
  · rintro _ ⟨⟩
    exact named
  · rw [Model.database_insert]
    split_ifs with same
    · exact same ▸ here
    · rw [others other another same]
      exact h.contents other another
  · rw [Model.database_insert]
    split_ifs
    · exact within
    · exact (h.mono le).within other

/-- A block that writes does on the active database what the command does on the model. -/
theorem update (h : Refines l b w m n) (sound : l.IsSound b) {name : String}
    (active : m.active = some name) {c : Command}
    {body : Contents → Except Failure (Outcome × Contents)}
    (simulates : Simulates (body (w.storage.contents (l.place b name))) ((m.database name).run c)) :
    (w.update body).1 = (m.onActive c).1 ∧
      Refines l b (w.update body).2 (m.onActive c).2 (n + (drawsRow c).toNat) := by
  have within := @Database.within_run _ _ (h.within name) c
  have le : n ≤ n + (drawsRow c).toNat := Nat.le_add_right ..
  have named := h.chosen name active
  rw [Workspace.update_of_idle (h.idle_store active) ⟨rfl, rfl⟩, Model.onActive_eq active]
  simp only [idleStore]
  generalize (m.database name).run c = expected at simulates within
  generalize body (w.storage.contents (l.place b name)) = actual at simulates
  cases simulates with
  | failed failure => exact ⟨rfl, h.mono le⟩
  | done outcome represents =>
    refine ⟨rfl, h.put le named (within rfl) h.location h.backend (h.idle_store active) ?_ ?_⟩
    · rw [Storage.contents_setContents_self]
      exact represents
    · intro other another different
      apply Storage.contents_setContents_of_ne
      exact fun place => different (Location.place_injective sound named another place)

theorem select [Json.Room] (h : Refines l b w m n) (readable : CellKey.IsReadable n) {name : String}
    (active : m.active = some name) (table : String) (columns : List String) (filter : Filter) :
    (w.view (Execution.select table columns filter)).1 =
        (m.onActive (.select table columns filter)).1 ∧
      Refines l b (w.view (Execution.select table columns filter)).2
        (m.onActive (.select table columns filter)).2 n := by
  have named := h.chosen name active
  have represents := h.contents name named
  obtain ⟨same, kept⟩ := represents.select (h.within name) readable table columns filter
  rw [Workspace.view_of_idle (h.idle_store active) ⟨rfl, rfl⟩, Model.onActive_eq active]
  simp only [idleStore, same]
  generalize (m.database name).run (.select table columns filter) = expected at kept
  cases expected with
  | error failure => exact ⟨rfl, h⟩
  | ok result =>
    obtain ⟨outcome, d⟩ := result
    obtain rfl : d = m.database name := kept outcome d rfl
    exact ⟨rfl, h.put (Nat.le_refl n) named (h.within name) h.location h.backend
      (h.idle_store active) represents fun _ _ _ => rfl⟩

theorem close (h : Refines l b w m n) (sound : l.IsSound b) :
    w.session.close l.opener w.storage =
      (.ok (), { w.session with active := none }, w.storage) := by
  unfold Session.close
  cases active : m.active with
  | none =>
    have inactive : w.session.active = none := by
      rw [h.active, active]
      rfl
    simp only [inactive]
    rw [← inactive]
  | some name =>
    rw [h.idle_store active]
    simp only [Location.opener, idleStore,
      Location.close_place sound (h.chosen name active) h.backend]
    rfl

theorem choose (h : Refines l b w m n) (sound : l.IsSound b) {c : Command} {name : String}
    (opening : c = .createDatabase name ∨ c = .useDatabase name) (outcome : Outcome) :
    (Execution.open_ w name outcome).1 = (m.choose (refusal? w c) name outcome).1 ∧
      Refines l b (Execution.open_ w name outcome).2 (m.choose (refusal? w c) name outcome).2 n := by
  rw [refusal?_of_open opening]
  unfold Execution.open_ Workspace.use Session.use Model.choose
  by_cases named : IsDatabaseName name
  · rw [h.location, if_neg (not_not_intro named), h.close sound]
    cases answered : l.opener.open_ (l.pathOf name) w.storage with
    | mk answer s =>
      have asked : l.opener.open_ (l.opener.pathOf name) w.storage = (answer, s) := answered
      obtain ⟨opened, backend, kept⟩ := Location.open_spec sound named h.backend asked
      cases answer with
      | error fault =>
        simp only [not_not_intro named, if_false, asked]
        refine ⟨rfl, rfl, backend, rfl, ?_, fun other another => ?_, h.within⟩
        · rintro _ ⟨⟩
        · exact (kept other another).symm ▸ h.contents other another
      | ok store =>
        obtain rfl := opened store rfl
        simp only [not_not_intro named, if_false, asked]
        refine ⟨rfl, h.put (Nat.le_refl n) named (h.within name) rfl backend rfl ?_ ?_⟩
        · exact (kept name named).symm ▸ h.contents name named
        · exact fun other another _ => kept other another
  · simp only [if_pos named]
    exact ⟨rfl, h⟩

theorem step [Json.Room] (h : Refines l b w m n) (sound : l.IsSound b) (roomy : Roomy b.counting n)
    {c : Command} (wellFormed : WellFormed c) :
    (Execution.execute w (.command c)).1 = (m.step (refusal? w c) c).1 ∧
      Refines l b (Execution.execute w (.command c)).2 (m.step (refusal? w c) c).2
        (n + (drawsRow c).toNat) := by
  by_cases choosing : c.requiresDatabase = true
  · have same : m.step (refusal? w c) c = m.onActive c := by
      cases c <;> first | rfl | cases choosing
    rw [same]
    cases active : m.active with
    | none =>
      have inactive : w.session.active.isNone = true := by
        rw [h.active, active]
        rfl
      rw [Execution.execute, if_pos ⟨choosing, inactive⟩]
      simp only [Model.onActive, active]
      exact ⟨trivial, h.mono (Nat.le_add_right ..)⟩
    | some name =>
      have present : ¬ w.session.active.isNone = true := by
        rw [h.idle_store active]
        exact Bool.false_ne_true
      have represents := h.contents name (h.chosen name active)
      have within := h.within name
      rw [Execution.execute, if_neg fun both => present both.2]
      cases c with
      | createDatabase name => cases choosing
      | useDatabase name => cases choosing
      | createTable table columns =>
        exact h.update sound active (represents.createTable wellFormed columns)
      | insert table columns values sameLength =>
        have counting : w.storage.backend.counting = b.counting := by rw [h.backend]
        have row := represents.insertRow within roomy table sameLength wellFormed.1 wellFormed.2
        exact h.update sound active (counting ▸ row)
      | select table columns filter => exact h.select roomy.readable active table columns filter
      | update table column value filter =>
        exact h.update sound active
          (represents.updateRows within roomy.readable table wellFormed value filter)
      | delete table filter =>
        exact h.update sound active (represents.deleteRows within roomy.readable table filter)
      | dropTable table => exact h.update sound active (represents.dropTable table)
  · cases c with
    | createDatabase name => exact h.choose sound (Or.inl rfl) _
    | useDatabase name => exact h.choose sound (Or.inr rfl) _
    | _ => exact absurd rfl choosing

theorem run [Json.Room] (h : Refines l b w m n) (sound : l.IsSound b) {commands : List Command}
    (wellFormed : ∀ c ∈ commands, WellFormed c) (room : n + commands.countP drawsRow < rowIds b) :
    (b = .memory → ∀ refusal ∈ refusals w commands, refusal = none) ∧
      outcomes w commands = m.outcomes ((refusals w commands).zip commands) := by
  -- Each insertion takes one row id from those that are left.
  induction commands generalizing w m n with
  | nil => exact ⟨fun _ => nofun, rfl⟩
  | cons c commands ih =>
    rw [List.countP_cons] at room
    have left : n + (drawsRow c).toNat + commands.countP drawsRow < rowIds b := by
      cases draw : drawsRow c <;> simp [draw] at room ⊢ <;> omega
    obtain ⟨outcome, after⟩ :=
      h.step sound (roomy_of_lt (by omega)) (wellFormed c (List.mem_cons_self ..))
    obtain ⟨none, rest⟩ := ih after (fun d hd => wellFormed d (List.mem_cons_of_mem c hd)) left
    rw [refusals]
    refine ⟨fun memory => List.forall_mem_cons.mpr ⟨?_, none memory⟩, ?_⟩
    · exact refusal?_of_memory (h.backend.trans memory) c
    · rw [outcomes, List.zip_cons_cons, Model.outcomes, outcome, rest]

end Refines

/-- Every run from nothing has the outcomes of the relational model, as long as its insertions do
not use up the row ids. The model is told of each opening whether the files admit it; in memory
every database is opened. -/
theorem outcomes_eq_model [Json.Room] {l : Location} {b : Backend} (sound : l.IsSound b)
    {commands : List Command} (wellFormed : ∀ c ∈ commands, WellFormed c)
    (room : commands.countP drawsRow < rowIds b) :
    let answers := refusals (.new l (.empty b)) commands
    answers.length = commands.length ∧ (b = .memory → ∀ refusal ∈ answers, refusal = none) ∧
      outcomes (.new l (.empty b)) commands = Model.empty.outcomes (answers.zip commands) :=
  ⟨length_refusals .., (refines_new l b).run sound wellFormed (by omega)⟩

/-- Two databases, a column that is declared twice, and rows beyond the tenth in numeric order. -/
private def shopCommands : List Command :=
  let goods : List Command := (List.range 11).map fun n =>
    .insert "goods" ["name", "price"] [toString n, "a'b"] rfl
  [.createDatabase "shop",
    .createTable "goods" [⟨"name", "TEXT", by decide⟩, ⟨"price", "", by decide⟩]] ++ goods ++
  [.update "goods" "price" "" [⟨"name", "9"⟩], .createTable "goods" [⟨"name", "", by decide⟩],
    .delete "goods" [⟨"name", "3"⟩], .useDatabase "other", .select "goods" [] [],
    .useDatabase "shop", .select "goods" [] [], .dropTable "goods"]

theorem outcomes_eq_model_shop :
    let l : Location := ⟨Path.ofText "data", ".db"⟩
    l.IsSound .memory ∧ (∀ c ∈ shopCommands, WellFormed c) ∧
      shopCommands.countP drawsRow < rowIds .memory ∧
      let answers := refusals (.new l (.empty .memory)) shopCommands
      answers.length = shopCommands.length ∧
        (Backend.memory = .memory → ∀ refusal ∈ answers, refusal = none) ∧
        outcomes (.new l (.empty .memory)) shopCommands =
          Model.empty.outcomes (answers.zip shopCommands) := by
  intro l
  have sound : l.IsSound .memory := ⟨by decide, by rintro ⟨⟩⟩
  have wellFormed : ∀ c ∈ shopCommands, WellFormed c := by decide
  have room : shopCommands.countP drawsRow < rowIds .memory :=
    Nat.lt_of_lt_of_le (by decide : shopCommands.countP drawsRow < 10 ^ 2)
      (Nat.pow_le_pow_right (by decide) (by decide))
  exact ⟨sound, wellFormed, room, outcomes_eq_model sound wellFormed room⟩

end Cellstore.Relational
