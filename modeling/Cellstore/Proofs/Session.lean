import Mathlib.Data.List.Infix
import Cellstore.Session

/-! A session and the stores that are handed out to it.
The stores are numbered in the order in which they are handed out, and every call that leaves the
session is written down. So it can be said of every moment of a run, also in the middle of a switch,
which stores have not been told to close. -/
namespace Cellstore.Session

/-- A call that leaves the session, or the store that answers it. -/
inductive Event where
  /-- A store is asked for at a path. -/
  | asked (path : Path)
  /-- The store with this number is handed out. -/
  | opened (number : Nat)
  /-- The store with this number is told to close, whether it can or not. -/
  | closing (number : Nat)
  deriving DecidableEq

namespace Event

def opened? : Event → Option Nat
  | .opened number => some number
  | _ => none

end Event

def handedOut (events : List Event) : List Nat := events.filterMap Event.opened?

def unclosed (events : List Event) : List Nat :=
  (handedOut events).filter fun number => !events.contains (.closing number)

structure Numbered (η : Type) where
  number : Nat
  store : η

/-- What holds the stores, with the events so far. -/
structure Watched (ω : Type) where
  world : ω
  events : List Event

section
variable {ω η : Type}

/-- An opener of any kind, whose calls are written down. -/
def watched (o : Opener ω η) : Opener (Watched ω) (Numbered η) where
  pathOf := o.pathOf
  open_ path w := match o.open_ path w.world with
    | (.ok store, world) =>
      let number := (handedOut w.events).length
      (.ok ⟨number, store⟩, ⟨world, w.events ++ [.asked path] ++ [.opened number]⟩)
    | (.error fault, world) => (.error fault, ⟨world, w.events ++ [.asked path]⟩)
  close store w :=
    let (outcome, world) := o.close store.store w.world
    (outcome, ⟨world, w.events ++ [.closing store.number]⟩)

inductive Call where
  | use (name : String)
  | close

abbrev Answer := Except Failure (Option Path)

def perform (o : Opener ω η) (s : Session η) (w : ω) : Call → Answer × Session η × ω
  | .use name => ((use o name s w).1.map some, (use o name s w).2)
  | .close => ((close o s w).1.map fun _ => none, (close o s w).2)

theorem perform_use (o : Opener ω η) (s : Session η) (w : ω) (name : String) :
    perform o s w (.use name) = ((use o name s w).1.map some, (use o name s w).2) := rfl

theorem perform_close (o : Opener ω η) (s : Session η) (w : ω) :
    perform o s w .close = ((close o s w).1.map fun _ => none, (close o s w).2) := rfl

def after (o : Opener ω η) (s : Session η) (w : ω) : List Call → Session η × ω
  | [] => (s, w)
  | call :: calls => after o (perform o s w call).2.1 (perform o s w call).2.2 calls

def answers (o : Opener ω η) (s : Session η) (w : ω) : List Call → List (Call × Answer)
  | [] => []
  | call :: calls => (call, (perform o s w call).1) ::
    answers o (perform o s w call).2.1 (perform o s w call).2.2 calls

def used (history : List (Call × Answer)) : List String :=
  history.filterMap fun
    | (.use name, .ok _) => some name
    | _ => none

theorem use_cases (o : Opener ω η) {name : String} (valid : IsDatabaseName name) (s : Session η)
    (w : ω) :
    (∃ failure, (close o s w).1 = .error failure ∧
      use o name s w = (.error failure, (close o s w).2)) ∨
    (∃ fault later, o.open_ (o.pathOf name) (close o s w).2.2 = (.error fault, later) ∧
      use o name s w = (.error (.opening name fault), (close o s w).2.1, later)) ∨
    ∃ store later, o.open_ (o.pathOf name) (close o s w).2.2 = (.ok store, later) ∧
      use o name s w = (.ok (o.pathOf name),
        ⟨some (name, store), (close o s w).2.1.switches + 1⟩, later) := by
  unfold use
  rw [if_neg (not_not_intro valid)]
  obtain ⟨outcome, s, w⟩ := close o s w
  cases outcome with
  | error failure => exact .inl ⟨failure, rfl, rfl⟩
  | ok _ =>
    cases opened : o.open_ (o.pathOf name) w with
    | mk outcome later =>
      cases outcome with
      | error fault => exact .inr (.inl ⟨fault, later, rfl, by simp only [opened]⟩)
      | ok store => exact .inr (.inr ⟨store, later, rfl, by simp only [opened]⟩)

/-! Watching disturbs nothing. -/

def unnumbered (s : Session (Numbered η)) : Session η :=
  ⟨s.active.map fun e => (e.1, e.2.store), s.switches⟩

theorem close_watched (o : Opener ω η) (s : Session (Numbered η)) (w : Watched ω) :
    close o (unnumbered s) w.world = ((close (watched o) s w).1,
      unnumbered (close (watched o) s w).2.1, (close (watched o) s w).2.2.world) := by
  obtain ⟨active, switches⟩ := s
  cases active <;> rfl

theorem use_watched (o : Opener ω η) (name : String) (s : Session (Numbered η)) (w : Watched ω) :
    use o name (unnumbered s) w.world = ((use (watched o) name s w).1,
      unnumbered (use (watched o) name s w).2.1, (use (watched o) name s w).2.2.world) := by
  unfold use
  by_cases valid : IsDatabaseName name
  · rw [if_neg (not_not_intro valid), if_neg (not_not_intro valid), close_watched]
    obtain ⟨outcome, s, w⟩ := close (watched o) s w
    cases outcome with
    | error failure => rfl
    | ok _ =>
      dsimp only [watched]
      cases o.open_ (o.pathOf name) w.world with
      | mk opened world => cases opened <;> rfl
  · rw [if_pos valid, if_pos valid]

theorem perform_watched (o : Opener ω η) (s : Session (Numbered η)) (w : Watched ω) (call : Call) :
    perform o (unnumbered s) w.world call = ((perform (watched o) s w call).1,
      unnumbered (perform (watched o) s w call).2.1, (perform (watched o) s w call).2.2.world) := by
  cases call with
  | use name =>
    rw [perform_use, perform_use, use_watched]
  | close =>
    rw [perform_close, perform_close, close_watched]

theorem after_watched (o : Opener ω η) (s : Session (Numbered η)) (w : Watched ω)
    (calls : List Call) : after o (unnumbered s) w.world calls =
      (unnumbered (after (watched o) s w calls).1, (after (watched o) s w calls).2.world) := by
  induction calls generalizing s w with
  | nil => rfl
  | cons call calls ih =>
    unfold after
    rw [perform_watched]
    exact ih ..

theorem answers_watched (o : Opener ω η) (s : Session (Numbered η)) (w : Watched ω)
    (calls : List Call) : answers o (unnumbered s) w.world calls = answers (watched o) s w calls := by
  induction calls generalizing s w with
  | nil => rfl
  | cons call calls ih =>
    unfold answers
    rw [perform_watched]
    exact congrArg _ (ih ..)

/-! Events one after the other. -/

variable {o : Opener ω η} {w later : Watched ω} {path : Path}

theorem events_of_error {fault : OpenFault} (h : (watched o).open_ path w = (.error fault, later)) :
    later.events = w.events ++ [.asked path] := by
  dsimp only [watched] at h
  cases opened : o.open_ path w.world with
  | mk outcome world =>
    rw [opened] at h
    cases outcome <;> cases h
    rfl

theorem events_of_ok {store : Numbered η} (h : (watched o).open_ path w = (.ok store, later)) :
    store.number = (handedOut w.events).length ∧
      later.events = w.events ++ [.asked path] ++ [.opened (handedOut w.events).length] := by
  dsimp only [watched] at h
  cases opened : o.open_ path w.world with
  | mk outcome world =>
    rw [opened] at h
    cases outcome <;> cases h
    exact ⟨rfl, rfl⟩

variable {events : List Event} {number : Nat}

theorem handedOut_append (events later : List Event) :
    handedOut (events ++ later) = handedOut events ++ handedOut later := List.filterMap_append

@[simp]
theorem handedOut_asked (events : List Event) (path : Path) :
    handedOut (events ++ [.asked path]) = handedOut events := by
  rw [handedOut_append]
  exact List.append_nil _

@[simp]
theorem handedOut_closing (events : List Event) (number : Nat) :
    handedOut (events ++ [.closing number]) = handedOut events := by
  rw [handedOut_append]
  exact List.append_nil _

theorem handedOut_opened (events : List Event) (number : Nat) :
    handedOut (events ++ [.opened number]) = handedOut events ++ [number] := handedOut_append ..

theorem unclosed_asked (events : List Event) (path : Path) :
    unclosed (events ++ [.asked path]) = unclosed events := by
  unfold unclosed
  rw [handedOut_asked]
  simp

theorem unclosed_opened (fresh : .closing number ∉ events) :
    unclosed (events ++ [.opened number]) = unclosed events ++ [number] := by
  unfold unclosed
  rw [handedOut_opened]
  simp [fresh]

theorem unclosed_closing (events : List Event) (number : Nat) :
    unclosed (events ++ [.closing number]) = (unclosed events).filter (· != number) := by
  unfold unclosed
  rw [handedOut_closing, List.filter_filter]
  refine List.filter_congr fun n _ => ?_
  by_cases same : n = number <;> simp [same]

/-- At no moment is more than one store unclosed, and whenever one is asked for there is none. -/
structure Guarded (events : List Event) : Prop where
  single : ∀ moment, moment <+: events → (unclosed moment).length ≤ 1
  asked : ∀ moment path, moment ++ [.asked path] <+: events → unclosed moment = []

namespace Guarded

theorem append (h : Guarded events) {event : Event} (single : (unclosed (events ++ [event])).length ≤ 1)
    (asked : ∀ path, event = .asked path → unclosed events = []) : Guarded (events ++ [event]) := by
  constructor
  · intro moment before
    rcases List.prefix_concat_iff.mp before with rfl | earlier
    · exact single
    · exact h.single moment earlier
  · intro moment path before
    rcases List.prefix_concat_iff.mp before with last | earlier
    · obtain ⟨rfl, same⟩ := List.append_inj' last rfl
      cases same
      exact asked path rfl
    · exact h.asked moment path earlier

end Guarded

/-- A session between two calls. Its store is the one that is unclosed, and comes from the call that
used a name last. -/
structure Steady (o : Opener ω η) (history : List (Call × Answer)) (s : Session (Numbered η))
    (events : List Event) : Prop where
  guarded : Guarded events
  unclosed : unclosed events = (s.active.map (·.2.number)).toList
  closed : ∀ number, .closing number ∈ events → number < (handedOut events).length
  numbered : handedOut events = List.range (used history).length
  last : ∀ name store, s.active = some (name, store) → (used history).getLast? = some name ∧
    [.asked (o.pathOf name), .opened store.number] <:+ events

namespace Steady

variable {history : List (Call × Answer)} {s : Session (Numbered η)}

theorem start (o : Opener ω η) : Steady o [] empty [] where
  guarded := by
    constructor
    · intro moment before
      rw [List.prefix_nil.mp before]
      exact Nat.zero_le 1
    · intro moment path before
      simp at before
  unclosed := rfl
  closed := by simp
  numbered := rfl
  last := by simp [empty]

theorem answered (h : Steady o history s events) {call : Call} {answer : Answer}
    (nothing : used [(call, answer)] = []) : Steady o (history ++ [(call, answer)]) s events := by
  have same : used (history ++ [(call, answer)]) = used history := by
    rw [used, List.filterMap_append, ← used, ← used, nothing, List.append_nil]
  refine ⟨h.guarded, h.unclosed, h.closed, ?_, ?_⟩
  · rw [same]
    exact h.numbered
  · rw [same]
    exact h.last

theorem closing (h : Steady o history s events) {name : String} {store : Numbered η}
    (active : s.active = some (name, store)) :
    Steady o history ⟨none, s.switches⟩ (events ++ [.closing store.number]) := by
  have alone : Session.unclosed events = [store.number] := by rw [h.unclosed, active]; rfl
  have nothing : Session.unclosed (events ++ [.closing store.number]) = [] := by
    rw [unclosed_closing, alone]
    simp
  have given : store.number < (handedOut events).length := by
    obtain ⟨earlier, rfl⟩ := (h.last name store active).2
    rw [h.numbered, List.length_range, ← List.mem_range, ← h.numbered, handedOut_append]
    simp [handedOut, Event.opened?]
  refine ⟨h.guarded.append ?_ (fun _ => nofun), nothing, ?_, ?_, fun _ _ => nofun⟩
  · rw [nothing]
    exact Nat.zero_le 1
  · intro number member
    rw [handedOut_closing]
    rcases List.mem_append.mp member with earlier | now
    · exact h.closed number earlier
    · cases List.mem_singleton.mp now
      exact given
  · rw [handedOut_closing]
    exact h.numbered

theorem asked (h : Steady o history s events) (inactive : s.active = none) (path : Path) :
    Steady o history s (events ++ [.asked path]) := by
  have nothing : Session.unclosed events = [] := by rw [h.unclosed, inactive]; rfl
  refine ⟨h.guarded.append ?_ fun _ _ => nothing, ?_, ?_, ?_, ?_⟩
  · rw [unclosed_asked, nothing]
    exact Nat.zero_le 1
  · rw [unclosed_asked]
    exact h.unclosed
  · intro number member
    rw [handedOut_asked]
    rcases List.mem_append.mp member with earlier | now
    · exact h.closed number earlier
    · cases List.mem_singleton.mp now
  · rw [handedOut_asked]
    exact h.numbered
  · intro name store active
    rw [inactive] at active
    cases active

theorem opened (h : Steady o history s events) (inactive : s.active = none) (name : String)
    (path : Option Path) (store : η) (switches : Nat) :
    Steady o (history ++ [(.use name, .ok path)])
      ⟨some (name, ⟨(handedOut events).length, store⟩), switches⟩
      (events ++ [.asked (o.pathOf name)] ++ [.opened (handedOut events).length]) := by
  have asked := h.asked inactive (o.pathOf name)
  have nothing := asked.unclosed
  rw [inactive] at nothing
  have fresh : .closing (handedOut events).length ∉ events ++ [.asked (o.pathOf name)] := by
    intro member
    have known := asked.closed _ member
    rw [handedOut_asked] at known
    exact Nat.lt_irrefl _ known
  have more : used (history ++ [(.use name, .ok path)]) = used history ++ [name] :=
    List.filterMap_append
  refine ⟨asked.guarded.append ?_ (fun _ => nofun), ?_, ?_, ?_, ?_⟩
  · rw [unclosed_opened fresh, nothing]
    exact Nat.le_refl 1
  · rw [unclosed_opened fresh, nothing]
    rfl
  · intro number member
    rw [handedOut_opened, List.length_append]
    rcases List.mem_append.mp member with earlier | now
    · exact Nat.lt_succ_of_lt (asked.closed number earlier)
    · cases List.mem_singleton.mp now
  · rw [handedOut_opened, handedOut_asked, more, List.length_append, List.length_singleton,
      List.range_succ, ← h.numbered, h.numbered, List.length_range]
  · rintro _ _ ⟨⟩
    rw [more, List.append_assoc]
    exact ⟨List.getLast?_concat .., List.suffix_append ..⟩

theorem close (h : Steady o history s w.events) :
    Steady o history (Session.close (watched o) s w).2.1
      (Session.close (watched o) s w).2.2.events := by
  unfold Session.close
  cases active : s.active with
  | none => exact h
  | some entry => exact h.closing active

theorem perform (h : Steady o history s w.events) (call : Call) :
    Steady o (history ++ [(call, (Session.perform (watched o) s w call).1)])
      (Session.perform (watched o) s w call).2.1
      (Session.perform (watched o) s w call).2.2.events := by
  have closed := h.close
  cases call with
  | close =>
    rw [perform_close]
    exact closed.answered rfl
  | use name =>
    by_cases valid : IsDatabaseName name
    · have inactive := active_close (watched o) s w
      rcases use_cases (watched o) valid s w with
        ⟨failure, -, used⟩ | ⟨fault, later, opened, used⟩ | ⟨store, later, opened, used⟩
      · rw [perform_use, used]
        exact closed.answered rfl
      · rw [perform_use, used, events_of_error opened]
        exact (closed.asked inactive _).answered rfl
      · obtain ⟨number, events⟩ := events_of_ok opened
        obtain ⟨_, store⟩ := store
        cases number
        rw [perform_use, used, events]
        exact closed.opened inactive name (some (o.pathOf name)) store _
    · rw [perform_use, use_of_not_isDatabaseName _ s w valid]
      exact h.answered rfl

theorem after (h : Steady o history s w.events) (calls : List Call) :
    Steady o (history ++ answers (watched o) s w calls) (Session.after (watched o) s w calls).1
      (Session.after (watched o) s w calls).2.events := by
  induction calls generalizing history s w with
  | nil =>
    rw [answers, List.append_nil]
    exact h
  | cons call calls ih =>
    have later := ih (h.perform call)
    rw [List.append_assoc] at later
    exact later

end Steady

theorem active_of_failed {s : Session η} {w : ω} {call : Call} {failure : Failure}
    (h : (perform o s w call).1 = .error failure) :
    (∃ name, call = .use name ∧ ¬ IsDatabaseName name) ∨ (perform o s w call).2.1.active = none := by
  have inactive := active_close o s w
  cases call with
  | close => exact .inr inactive
  | use name =>
    by_cases valid : IsDatabaseName name
    · right
      rw [perform_use] at h ⊢
      rcases use_cases o valid s w with
        ⟨failure, -, used⟩ | ⟨fault, later, -, used⟩ | ⟨store, later, -, used⟩
      · rw [used]
        exact inactive
      · rw [used]
        exact inactive
      · rw [used] at h
        cases h
    · exact .inl ⟨name, rfl, valid⟩

/-- However the calls on a session go, its stores do not overlap.
At no moment is there a second store that has not been told to close, and whenever a store is asked for
there is none. Between the calls the store of the session is the one that is left. It was the last to be
handed out, by the call that used a name last and at the path of that name. A name that is refused leaves
everything as it is, and whatever else fails leaves no store. -/
theorem one_store_at_a_time (o : Opener ω η) (world : ω) (calls : List Call) :
    ∃ (s : Session (Numbered η)) (w : Watched ω),
      Session.after (watched o) empty ⟨world, []⟩ calls = (s, w) ∧
      Session.after o empty world calls = (unnumbered s, w.world) ∧
      (∀ moment, moment <+: w.events → (unclosed moment).length ≤ 1) ∧
      (∀ moment path, moment ++ [.asked path] <+: w.events → unclosed moment = []) ∧
      handedOut w.events = List.range (used (answers o empty world calls)).length ∧
      (match s.active with
        | none => s.databaseName = none ∧ unclosed w.events = []
        | some (name, store) => s.databaseName = some name ∧ unclosed w.events = [store.number] ∧
          (used (answers o empty world calls)).getLast? = some name ∧
          [.asked (o.pathOf name), .opened store.number] <:+ w.events) ∧
      (∀ name, ¬ IsDatabaseName name → perform o (unnumbered s) w.world (.use name) =
        (.error (.invalidDatabaseName name), unnumbered s, w.world)) ∧
      ∀ call failure, (perform o (unnumbered s) w.world call).1 = .error failure →
        (∃ name, call = .use name ∧ ¬ IsDatabaseName name) ∨
        (perform o (unnumbered s) w.world call).2.1.active = none := by
  have steady := (Steady.start o).after (w := ⟨world, []⟩) calls
  rw [List.nil_append, ← answers_watched] at steady
  refine ⟨_, _, rfl, after_watched o empty ⟨world, []⟩ calls, steady.guarded.single,
    steady.guarded.asked, steady.numbered, ?_, ?_, fun _ _ => active_of_failed⟩
  · have alone := steady.unclosed
    have last := steady.last
    cases active : (Session.after (watched o) empty ⟨world, []⟩ calls).1.active with
    | none =>
      rw [active] at alone
      exact ⟨congrArg _ active, alone⟩
    | some entry =>
      rw [active] at alone
      exact ⟨congrArg _ active, alone, last entry.1 entry.2 active⟩
  · intro name invalid
    rw [perform_use, use_of_not_isDatabaseName _ _ _ invalid]
    rfl

end

end Cellstore.Session
