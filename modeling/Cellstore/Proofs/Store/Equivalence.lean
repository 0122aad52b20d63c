import Mathlib.Algebra.Group.Int.Defs
import Mathlib.Algebra.Group.Nat.Defs
import Cellstore.Proofs.Store.File
import Cellstore.Proofs.Store.Memory
import Cellstore.Proofs.Store.Tracking

/-! Stores in memory and in files answer alike.
Each follows the contract step by step as long as the labels are used as they are meant to be.
They part in one place only: which refusal a write through an ended view gets. -/
namespace Cellstore.Store

variable {σ η : Type} {a : Adapter σ η} {m : Matching σ η} {counting : Counting}

/-- What a label stands for on both sides. Nothing is known of a stale handle. -/
inductive Accessible (m : Matching σ η) (s : σ) (r : Contract) :
    Access → Option η → Option Contract.Handle → Prop
  | absent : Accessible m s r .absent none none
  | live {h : η} {k : Contract.Handle} (usable : m.handle h k s r) :
    Accessible m s r (.live k.name) (some h) (some k)
  | stale (h : Option η) (k : Option Contract.Handle) : Accessible m s r .stale h k

/-- A labelled store and the contract, after the same operations. -/
structure Related (m : Matching σ η) (u : Usage) (s : Labelled σ η)
    (r : Labelled Contract Contract.Handle) : Prop where
  state : m.state s.store r.store
  transactions : s.transactions = r.transactions
  handles : ∀ label,
    Accessible m s.store r.store (u.access label) (s.handle? label) (r.handle? label)

namespace Accessible

variable {s s' : σ} {r r' : Contract} {access : Access} {h : Option η} {k : Option Contract.Handle}

theorem step {removed : Option String} (here : Accessible m s r access h k)
    (step : m.Step s r s' r' removed) {lost : String → Bool}
    (iff : ∀ name, lost name = true ↔ removed = some name) :
    Accessible m s' r' (access.losing lost) h k := by
  cases here with
  | absent => exact .absent
  | stale => exact .stale h k
  | live usable =>
    rename_i h k
    unfold Access.losing
    dsimp only
    by_cases gone : lost k.name = true
    · rw [if_pos gone]
      exact .stale _ _
    · rw [if_neg gone]
      exact .live (step.handle h k (fun same => gone ((iff k.name).mpr same)) usable)

theorem kept (here : Accessible m s r access h k) (step : m.Step s r s' r' none) :
    Accessible m s' r' access h k := by
  cases here with
  | absent => exact .absent
  | stale => exact .stale h k
  | live usable => exact .live (step.handle _ _ nofun usable)

theorem idle (sim : Simulation a m counting) (here : Accessible m s r access h k) (state : m.state s r)
    (idle : r.block = none) (s' : σ) (r' : Contract) : Accessible m s' r' access h k := by
  cases here with
  | absent => exact .absent
  | stale => exact .stale h k
  | live usable =>
    obtain ⟨b, block, _⟩ := sim.live state usable
    rw [idle] at block
    cases block

theorem lost (here : Accessible m s r access h k) (s' : σ) (r' : Contract) :
    Accessible m s' r' (access.losing fun _ => true) h k := by
  cases here with
  | absent => exact .absent
  | stale | live => exact .stale _ _

end Accessible

/-- Both operations fail alike, or give the same reply and related stores. -/
def Alike (m : Matching σ η) (u : Usage) (op : Operation) :
    Except StoreFault (Reply × Labelled σ η) →
      Except StoreFault (Reply × Labelled Contract Contract.Handle) → Prop :=
  SameOutcome fun x y => x.1 = y.1 ∧ Related m (u.after op (.ok y.1)) x.2 y.2

namespace Related

variable {u : Usage} {s : Labelled σ η} {r : Labelled Contract Contract.Handle} {n : Nat}

theorem withStore (h : Related m u s r) {s' : σ} {r' : Contract}
    (step : m.Step s.store r.store s' r' none) : Related m u (s.withStore s') (r.withStore r') :=
  ⟨step.state, h.transactions, fun label => (h.handles label).kept step⟩

theorem idle (sim : Simulation a m counting) (h : Related m u s r)
    (idle : r.store.block = none) {s' : σ} {r' : Contract} (state : m.state s' r') :
    Related m u (s.withStore s') (r.withStore r') :=
  ⟨state, h.transactions, fun label => (h.handles label).idle sim h.state idle s' r'⟩

theorem withHandle (h : Related m u s r) (label : String) {access : Access} {g : Option η}
    {k : Option Contract.Handle} (given : Accessible m s.store r.store access g k) :
    Related m (u.withHandle label access) (s.withHandle label g) (r.withHandle label k) := by
  refine ⟨h.state, h.transactions, fun other => ?_⟩
  rw [Usage.access_withHandle, Labelled.handle?_withHandle, Labelled.handle?_withHandle]
  split_ifs
  · exact given
  · exact h.handles other

theorem onHandle (h : Related m u s r) {label : String} (fresh : u.access label ≠ .stale)
    {f : η → Except StoreFault (Reply × σ)}
    {g : Contract.Handle → Except StoreFault (Reply × Contract)}
    (same : ∀ i k, m.handle i k s.store r.store → SameOutcome
      (fun x y => x.1 = y.1 ∧ m.Step s.store r.store x.2 y.2 none) (f i) (g k)) :
    SameOutcome (fun x y => x.1 = y.1 ∧ Related m u x.2 y.2) (onHandle s label f)
      (onHandle r label g) := by
  have here := h.handles label
  unfold Store.onHandle
  generalize u.access label = access at here fresh
  generalize s.handle? label = i at here
  generalize r.handle? label = k at here
  cases here with
  | absent => exact ⟨rfl, h⟩
  | stale => exact absurd rfl fresh
  | live usable =>
    refine (same _ _ usable).map ?_
    rintro x y ⟨reply, step⟩
    exact ⟨reply, h.withStore step⟩

theorem within (h : Related m u s r) {α β : Type} {R : α → β → Prop} {tx : String}
    {f : Nat → Except StoreFault α} {g : Nat → Except StoreFault β}
    (same : ∀ id, r.transactions.lookup tx = some id → SameOutcome R (f id) (g id)) :
    SameOutcome R (s.transaction tx >>= f) (r.transaction tx >>= g) := by
  unfold Labelled.transaction
  rw [h.transactions]
  cases found : r.transactions.lookup tx with
  | none => rfl
  | some id => exact same id found

theorem begin (sim : Simulation a m counting) (h : Related m u s r) (writable : Bool) (tx : String) :
    Alike m u (.begin writable tx) (attempt a s (.begin writable tx))
      (attempt Contract.adapter r (.begin writable tx)) := by
  have same := sim.begin writable h.state
  have started {id : Nat} {next : Contract} (begun : r.store.begin writable = .ok (id, next)) :=
    (Contract.begin_eq_ok begun).1
  show SameOutcome _ (a.begin writable s.store >>= _) (r.store.begin writable >>= _)
  cases file : a.begin writable s.store <;> cases begun : r.store.begin writable <;>
    rw [file, begun] at same
  · exact same
  · cases same
  · cases same
  · obtain ⟨number, state⟩ := same
    have idle := h.idle sim (started begun) state
    refine ⟨rfl, state, ?_, idle.handles⟩
    show (tx, _) :: s.transactions = (tx, _) :: r.transactions
    rw [number, h.transactions]

theorem bucket (sim : Simulation a m counting) (h : Related m u s r) (tx label name : String) :
    Alike m u (.bucket tx label name) (attempt a s (.bucket tx label name))
      (attempt Contract.adapter r (.bucket tx label name)) := by
  refine h.within fun id _ => (sim.bucket id name h.state).bind fun g k given => ?_
  cases given with
  | none => exact ⟨rfl, h.withHandle label .absent⟩
  | some usable =>
    refine ⟨congrArg (fun name => Reply.bucket (some name)) (sim.named usable), ?_⟩
    exact h.withHandle label (.live usable)

theorem create (sim : Simulation a m counting) (h : Related m u s r) (t : u.Tracks r)
    {tx label name : String}
    (current : u.writesEndedView (.create tx label name) = false) :
    Alike m u (.create tx label name) (attempt a s (.create tx label name))
      (attempt Contract.adapter r (.create tx label name)) := by
  refine h.within fun id found => ?_
  have running (named : name ≠ "") : ¬ r.store.IsEndedView id := by
    rw [← t.hasEndedView_iff found]
    simpa [Usage.writesEndedView, named] using current
  refine (sim.create name h.state running).bind fun x y given => ?_
  refine ⟨congrArg (fun name => Reply.bucket (some name)) (sim.named given.1), ?_⟩
  exact (h.withStore given.2).withHandle label (.live given.1)

theorem deleteBucket (sim : Simulation a m counting) (h : Related m u s r) (t : u.Tracks r)
    {tx name : String} (current : u.writesEndedView (.deleteBucket tx name) = false) :
    Alike m u (.deleteBucket tx name) (attempt a s (.deleteBucket tx name))
      (attempt Contract.adapter r (.deleteBucket tx name)) := by
  refine h.within fun id found => ?_
  have running : ¬ r.store.IsEndedView id := by
    rw [← t.hasEndedView_iff found]
    simpa [Usage.writesEndedView] using current
  refine (sim.deleteBucket name h.state running).bind fun s' r' step => ?_
  refine ⟨rfl, step.state, h.transactions, fun label => ?_⟩
  show Accessible m s' r' ((u.losing (· == name)).access label) _ _
  rw [Usage.access_losing]
  refine (h.handles label).step step fun other => ?_
  rw [beq_iff_eq, Option.some.injEq, eq_comm]

theorem names (sim : Simulation a m counting) (h : Related m u s r) (tx : String) :
    Alike m u (.names tx) (attempt a s (.names tx)) (attempt Contract.adapter r (.names tx)) := by
  refine h.within fun id _ => ?_
  show SameOutcome _ (a.names id s.store >>= _) (r.store.names id >>= _)
  rw [sim.names id h.state]
  cases r.store.names id with
  | error fault => rfl
  | ok names => exact ⟨rfl, h⟩

end Related

theorem Simulation.deleteAll (sim : Simulation a m counting) {g : η} {k : Contract.Handle} {s : σ}
    {r : Contract} (keys : List Bytes) (state : m.state s r) (usable : m.handle g k s r) :
    SameOutcome (fun s' r' => m.Step s r s' r' none) (deleteAll a g keys s)
      (deleteAll Contract.adapter k keys r) := by
  induction keys generalizing s r with
  | nil => exact .refl state
  | cons key rest ih =>
    have first : SameOutcome (fun s' r' => m.Step s r s' r' none) (a.delete g key s)
        (Contract.adapter.delete k key r) := sim.delete key state usable
    unfold Store.deleteAll
    cases here : a.delete g key s <;> cases there : Contract.adapter.delete k key r <;>
      rw [here, there] at first
    · exact first
    · cases first
    · cases first
    · have usable' := first.handle g k (fun absent => by cases absent) usable
      exact (ih first.state usable').mono fun _ _ => first.trans

namespace Related

variable {u : Usage} {s : Labelled σ η} {r : Labelled Contract Contract.Handle} {n : Nat}

theorem attempt_alike (sim : Simulation a m counting)
    (counts : ∀ n < 2 ^ 63, counting.next n = n + 1) (h : Related m u s r) (t : u.Tracks r)
    (counted : r.store.Counted n) (room : n < 2 ^ 63) {op : Operation} (plain : op.isPlain = true)
    (allowed : u.allows op = true) (current : u.writesEndedView op = false) :
    Alike m u op (attempt a s op) (attempt Contract.adapter r op) := by
  have fresh {label : String} (allowed : (u.access label != .stale) = true) :
      u.access label ≠ .stale := bne_iff_ne.mp allowed
  cases op with
  | begin writable tx => exact h.begin sim writable tx
  | bucket tx label name => exact h.bucket sim tx label name
  | create tx label name => exact h.create sim t current
  | deleteBucket tx name => exact h.deleteBucket sim t current
  | names tx => exact h.names sim tx
  | get label key =>
    refine h.onHandle (fresh allowed) fun g k usable => ?_
    show SameOutcome _ (a.get g key s.store >>= _) ((r.store.content k).map (·.get? key) >>= _)
    rw [sim.get key h.state usable]
    cases r.store.content k with
    | error fault => rfl
    | ok b => exact ⟨rfl, .refl h.state⟩
  | put label key value =>
    exact h.onHandle (fresh allowed) fun g k usable =>
      (sim.put key value h.state usable).bind fun _ _ step => ⟨rfl, step⟩
  | delete label key =>
    exact h.onHandle (fresh allowed) fun g k usable =>
      (sim.delete key h.state usable).bind fun _ _ step => ⟨rfl, step⟩
  | items label lead =>
    refine h.onHandle (fresh allowed) fun g k usable => ?_
    show SameOutcome _ (a.items g lead s.store >>= _) ((r.store.content k).map (·.items lead) >>= _)
    rw [sim.items lead h.state usable]
    cases r.store.content k with
    | error fault => rfl
    | ok b => exact ⟨rfl, .refl h.state⟩
  | itemsDeleting label lead =>
    refine h.onHandle (fresh allowed) fun g k usable => ?_
    show SameOutcome _ (a.items g lead s.store >>= _) ((r.store.content k).map (·.items lead) >>= _)
    rw [sim.items lead h.state usable]
    cases r.store.content k with
    | error fault => rfl
    | ok b => exact (sim.deleteAll _ h.state usable).bind fun _ _ step => ⟨rfl, step⟩
  | nextSequence label =>
    refine h.onHandle (fresh allowed) fun g k usable => ?_
    -- Below the limit a counter that may overflow goes on like one that may not.
    have endless : r.store.change k (Bucket.nextSequence .endless) =
        r.store.change k (Bucket.nextSequence counting) := by
      refine Contract.change_congr fun b content => ?_
      have bound := counted.content content
      rw [Bucket.nextSequence, Bucket.nextSequence, counts b.sequence (by omega)]
      rfl
    show SameOutcome _ (a.nextSequence g s.store >>= _)
      (r.store.change k (Bucket.nextSequence .endless) >>= _)
    rw [endless]
    refine (sim.nextSequence h.state usable).bind fun x y next => ?_
    exact ⟨congrArg Reply.count next.1, next.2⟩
  | close =>
    have idle := t.idle (Option.isNone_iff_eq_none.mp allowed)
    exact ⟨rfl, h.idle sim idle (sim.close h.state idle)⟩
  | closed => exact ⟨congrArg Reply.flag (sim.closed h.state), h⟩
  | path | dump | openOther _ | setLock _ => cases allowed
  | finish _ | abort _ | reopen => cases plain

theorem endBlock (sim : Simulation a m counting) (h : Related m u s r) (t : u.Tracks r) {tx : String}
    (running : u.running = some tx) (keep : Bool) (reply : Reply) :
    (endBlock a s tx keep reply).1 = (endBlock Contract.adapter r tx keep reply).1 ∧
      Related m { u.losing fun _ => true with running := none } (endBlock a s tx keep reply).2
        (endBlock Contract.adapter r tx keep reply).2 := by
  obtain ⟨b, block, found, contract⟩ := t.endBlock running keep reply
  obtain ⟨s', ends, state⟩ := sim.finish keep h.state block
  have store : Store.endBlock a s tx keep reply = (.ok reply, s.withStore s') := by
    unfold Store.endBlock Labelled.transaction
    rw [h.transactions, found]
    show (Except.map _ (a.finish b.id keep s.store).1, s.withStore (a.finish b.id keep s.store).2) = _
    rw [ends]
    rfl
  rw [store, contract]
  refine ⟨rfl, state, h.transactions, fun label => ?_⟩
  show Accessible m _ _ ((u.losing fun _ => true).access label) _ _
  rw [Usage.access_losing]
  exact (h.handles label).lost s' _

end Related

theorem RefusesEndedViews.perform {fault : StoreFault} (refuses : RefusesEndedViews a m fault)
    {u : Usage} {s : Labelled σ η} {r : Labelled Contract Contract.Handle} (t : u.Tracks r)
    (state : m.state s.store r.store) (transactions : s.transactions = r.transactions)
    {op : Operation} (ended : u.writesEndedView op = true) :
    perform a s op = (.error fault, s) := by
  have view {tx : String} (ended : u.hasEndedView tx = true) :
      ∃ id, s.transaction tx = .ok id ∧ r.store.IsEndedView id := by
    have written := t.blocks tx
    rw [(Usage.hasEndedView_eq_true ended).2] at written
    obtain ⟨id, found, _⟩ := Option.bind_eq_some_iff.mp written.symm
    refine ⟨id, ?_, (t.hasEndedView_iff found).mp ended⟩
    rw [Labelled.transaction, transactions, found]
  cases op with
  | create tx label name =>
    obtain ⟨named, ended⟩ : name ≠ "" ∧ u.hasEndedView tx = true := by
      simpa [Usage.writesEndedView] using ended
    obtain ⟨id, found, view⟩ := view ended
    refine perform_error rfl ?_
    rw [attempt, found]
    show a.create id name s.store >>= _ = _
    rw [refuses.create state view named]
    rfl
  | deleteBucket tx name =>
    obtain ⟨id, found, view⟩ := view ended
    refine perform_error rfl ?_
    rw [attempt, found]
    show a.deleteBucket id name s.store >>= _ = _
    rw [refuses.deleteBucket name state view]
    rfl
  | _ => cases ended

theorem Contract.refusesEndedViews :
    RefusesEndedViews Contract.adapter ⟨Eq, fun _ _ _ _ => False⟩ .finished := by
  have refused {r : Contract} {id : Nat} (ended : r.IsEndedView id) :
      r.writing id = .error .finished := by
    rw [Contract.writing, ended.1]
  constructor
  · rintro _ r id name rfl ended named
    show Contract.create id name _ = _
    rw [Contract.create, if_neg named, refused ended]
    rfl
  · rintro _ r id name rfl ended
    show Contract.deleteBucket id name _ = _
    rw [Contract.deleteBucket, refused ended]

namespace Related

variable {u : Usage} {s : Labelled σ η} {r : Labelled Contract Contract.Handle} {n : Nat}

/-- One operation: the reply of the contract, but for the refusal of a write through an ended
view, and related stores. -/
theorem perform (sim : Simulation a m counting) (counts : ∀ n < 2 ^ 63, counting.next n = n + 1)
    {fault : StoreFault} (refuses : RefusesEndedViews a m fault)
    (h : Related m u s r) (t : u.Tracks r) (counted : r.store.Counted n) (room : n < 2 ^ 63)
    {op : Operation} (allowed : u.allows op = true) :
    (perform a s op).1 = (if u.writesEndedView op then .error fault
      else (perform Contract.adapter r op).1) ∧
    Related m (u.after op (perform Contract.adapter r op).1) (perform a s op).2
      (perform Contract.adapter r op).2 := by
  by_cases ended : u.writesEndedView op = true
  · have plain : op.isPlain = true := by
      cases op with
      | finish _ | abort _ | reopen | openOther _ => cases ended
      | _ => rfl
    rw [if_pos ended, refuses.perform t h.state h.transactions ended,
      Contract.refusesEndedViews.perform t rfl rfl ended, Usage.after_error u _ plain]
    exact ⟨rfl, h⟩
  rw [if_neg ended]
  by_cases plain : op.isPlain = true
  · have alike := h.attempt_alike sim counts t counted room plain allowed (by simpa using ended)
    unfold Alike at alike
    cases here : attempt a s op <;> cases there : attempt Contract.adapter r op <;>
      rw [here, there] at alike
    · rw [perform_error plain here, perform_error plain there, Usage.after_error u _ plain]
      exact ⟨congrArg Except.error alike, h⟩
    · cases alike
    · cases alike
    · rw [perform_ok plain here, perform_ok plain there]
      exact ⟨congrArg Except.ok alike.1, alike.2⟩
  · cases op with
    | finish tx => exact h.endBlock sim t (beq_iff_eq.mp allowed) true .done
    | abort tx => exact h.endBlock sim t (beq_iff_eq.mp allowed) false .aborted
    | reopen =>
      have idle := t.idle (Option.isNone_iff_eq_none.mp allowed)
      obtain ⟨s', opened, state⟩ := sim.reopen h.state idle
      have store : Store.perform a s .reopen = (.ok .done, s.withStore s') := by
        show (Except.map _ (a.reopen s.store).1, s.withStore (a.reopen s.store).2) = _
        rw [opened]
        rfl
      rw [store]
      exact ⟨rfl, h.idle sim idle state⟩
    | openOther path => cases allowed
    | _ => exact absurd rfl plain

end Related

/-- The replies of memory and of a file to one operation. They are the same, but a write through
an ended view is refused in memory for having ended and in a file for being a view. -/
def RepliesAgree (e : Usage × Operation)
    (replies : Except StoreFault Reply × Except StoreFault Reply) : Prop :=
  if e.1.writesEndedView e.2 then replies = (.error .finished, .error .readOnly)
  else replies.1 = replies.2

theorem repliesAgree_of_related {n : Nat} {u : Usage} {s : Labelled Memory.State Memory.Handle}
    {f : Labelled File.State File.Handle} {r : Labelled Contract Contract.Handle}
    (memory : Related Memory.matching u s r) (file : Related File.matching u f r) (t : u.Tracks r)
    (counted : r.store.Counted n) {ops : List Operation} (few : n + ops.countP (·.isDraw) < 2 ^ 63)
    (allowed : ∀ e ∈ Usage.along memoryAdapter u s ops, e.1.allows e.2 = true) :
    List.Forall₂ RepliesAgree (Usage.along memoryAdapter u s ops)
      ((performAll memoryAdapter s ops).zip (performAll fileAdapter f ops)) := by
  -- Both stores stay related to one contract, and the contract says what the labels stand for.
  induction ops generalizing n u s f r with
  | nil => exact .nil
  | cons op rest ih =>
    obtain ⟨first, allowed⟩ := List.forall_mem_cons.mp allowed
    have room : n < 2 ^ 63 := by omega
    obtain ⟨reply, memory'⟩ :=
      memory.perform Memory.simulation (fun _ _ => rfl) Memory.refusesEndedViews t counted room
        first
    obtain ⟨answer, file'⟩ :=
      file.perform File.simulation (fun _ below => Counting.next_of_lt below)
        File.refusesEndedViews t counted room first
    have contract (ended : u.writesEndedView op = true) :
        (perform Contract.adapter r op).1 = .error .finished := by
      rw [Contract.refusesEndedViews.perform t rfl rfl ended]
    have same : (perform memoryAdapter s op).1 = (perform Contract.adapter r op).1 := by
      rw [reply]
      split_ifs with ended
      · exact (contract ended).symm
      · rfl
    rw [← same] at memory' file'
    have agree : RepliesAgree (u, op)
        ((perform memoryAdapter s op).1, (perform fileAdapter f op).1) := by
      unfold RepliesAgree
      dsimp only
      split_ifs with ended
      · rw [same, contract ended, answer, if_pos ended]
      · rw [same, answer, if_neg ended]
    have tracks := same ▸ t.perform first
    refine .cons agree (ih memory' file' tracks (counted.perform op) ?_ allowed)
    rw [List.countP_cons] at few
    cases draw : op.isDraw <;> simp [draw] at few ⊢ <;> omega

/-- Stores in memory and in files, opened at one path and empty, agree on the replies to every
sequence of operations that uses its labels as they are meant to be used. -/
theorem replies_agree (path : String) (ops : List Operation)
    (few : ops.countP (·.isDraw) < 2 ^ 63)
    (allowed : ∀ e ∈ Usage.along memoryAdapter .start (.ofStore (Memory.open_ path)) ops,
      e.1.allows e.2 = true) :
    List.Forall₂ RepliesAgree (Usage.along memoryAdapter .start (.ofStore (Memory.open_ path)) ops)
      ((performAll memoryAdapter (.ofStore (Memory.open_ path)) ops).zip
        (performAll fileAdapter (.ofStore (File.open_ path)) ops)) := by
  have counted : (Contract.open_ path).Counted 0 :=
    ⟨fun _ _ missing => (nomatch missing), fun _ _ none => (nomatch none)⟩
  have memory : Related Memory.matching .start (.ofStore (Memory.open_ path))
      (.ofStore (.open_ path)) := ⟨Memory.agrees_open path, rfl, fun _ => .absent⟩
  have file : Related File.matching .start (.ofStore (File.open_ path)) (.ofStore (.open_ path)) :=
    ⟨File.agrees_open path, rfl, fun _ => .absent⟩
  exact repliesAgree_of_related memory file (.start path) counted (by omega) allowed

theorem replies_agree_shelf :
    let ops : List Operation := [.begin true "t", .create "t" "b" "x", .put "b" [2] [7],
      .nextSequence "b", .begin false "n", .items "b" [], .bucket "t" "c" "y", .get "c" [2],
      .finish "t", .begin false "v", .bucket "v" "d" "x", .get "d" [2], .finish "v",
      .create "v" "e" "z", .close, .begin true "w", .reopen, .begin true "w", .deleteBucket "w" "x",
      .names "w", .abort "w"]
    ops.countP (·.isDraw) < 2 ^ 63 ∧
    (∀ e ∈ Usage.along memoryAdapter .start (.ofStore (Memory.open_ "shelf")) ops,
      e.1.allows e.2 = true) ∧
    List.Forall₂ RepliesAgree (Usage.along memoryAdapter .start (.ofStore (Memory.open_ "shelf")) ops)
      ((performAll memoryAdapter (.ofStore (Memory.open_ "shelf")) ops).zip
        (performAll fileAdapter (.ofStore (File.open_ "shelf")) ops)) :=
  ⟨by decide, by decide, replies_agree "shelf" _ (by decide) (by decide)⟩

/-- The creation of a bucket through an ended view is refused in two ways. -/
theorem ended_view_replies_differ :
    ¬ ∀ (path : String) (ops : List Operation), ops.countP (·.isDraw) < 2 ^ 63 →
      (∀ e ∈ Usage.along memoryAdapter .start (.ofStore (Memory.open_ path)) ops,
        e.1.allows e.2 = true) →
      performAll memoryAdapter (.ofStore (Memory.open_ path)) ops =
        performAll fileAdapter (.ofStore (File.open_ path)) ops := by
  intro same
  have replies := same "store" [.begin false "t", .finish "t", .create "t" "b" "x"] (by decide)
    (by decide)
  cases replies

end Cellstore.Store
