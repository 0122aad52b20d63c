import Cellstore.Proofs.Store.Ending
import Cellstore.Proofs.Store.File
import Cellstore.Proofs.Store.Strays

/-! The blocks of a store in a file.
Inside its block a transaction is the only one that reaches the tables, and what its copy holds is what
the replies say. The copy is lost when the store is closed. -/
namespace Cellstore.Store.File

namespace Tables

variable {t : Tables} {name : String}

def ledger (t : Tables) : Ledger := ⟨t.buckets.get?, t.get?⟩

theorem lists_contents (t : Tables) : t.ledger.Lists t.contents where
  counters := t.sequence_of_contents
  entries _ _ found := get?_of_contents found

theorem ledger_count (t : Tables) (name : String) (n : Int) :
    ledger { t with buckets := t.buckets.insert name n } = t.ledger.count name n := by
  ext1
  · funext other
    exact SortedMap.get?_insert ..
  · rfl

theorem ledger_create (unlisted : t.buckets.contains name = false) :
    (t.create name).ledger = t.ledger.create name := by
  have missing : t.buckets.get? name = none := by
    unfold SortedMap.contains at unlisted
    simpa using unlisted
  unfold Tables.create Ledger.create
  rw [unlisted, if_neg Bool.false_ne_true, ledger_count]
  show _ = t.ledger.count name ((t.buckets.get? name).getD 0)
  rw [missing]
  rfl

theorem ledger_deleteBucket (t : Tables) (name : String) :
    (t.deleteBucket name).ledger = t.ledger.deleteBucket name := by
  ext1
  · funext other
    exact SortedMap.get?_erase ..
  · funext other key
    show (t.entries.filter _).get? (other, key) = if name = other then none else t.get? other key
    rw [SortedMap.get?_filter, Tables.get?]
    by_cases here : name = other
    · cases t.entries.get? (other, key) <;> simp [here]
    · cases t.entries.get? (other, key) <;> simp [here, Ne.symm here]

theorem ledger_put (t : Tables) (name : String) (key value : Bytes) :
    (t.put name key value).ledger = t.ledger.set name key (some value) := by
  ext1
  · rfl
  · funext other k
    show (t.put name key value).get? other k =
      if name = other ∧ key = k then some value else t.get? other k
    rw [get?_put]
    simp only [Prod.mk.injEq]

theorem ledger_delete (t : Tables) (name : String) (key : Bytes) :
    (t.delete name key).ledger = t.ledger.set name key none := by
  ext1
  · rfl
  · funext other k
    show (t.entries.erase (name, key)).get? (other, k) =
      if name = other ∧ key = k then none else t.get? other k
    rw [SortedMap.get?_erase]
    simp only [Prod.mk.injEq]
    rfl

end Tables

/-- No transaction is running, and every handle belongs to one that has ended. -/
structure AtRest (s : Labelled State Handle) : Prop where
  ended : ∀ t ∈ s.store.transactions, t.active = false
  handles : ∀ label h, s.handle? label = some h → h.transaction < s.store.transactions.length

def ledger (s : State) : Ledger := s.committed.ledger

/-- A store inside the block of a transaction that began with `start`, with what the block would
leave. Once the store is closed it leaves nothing. -/
structure InBlock (start : State) (lost : Bool) (s : State) (l : Ledger) : Prop where
  committed : s.committed = start.committed
  transactions : s.transactions = start.transactions
  opening : s.opening = start.opening
  busy : s.busy = true
  closed : s.closed = lost
  ledger : lost = false → l = (s.working.getD s.committed).ledger

/-- A handle of the running transaction stands for its name, whether or not a bucket is there. -/
structure Stands (id : Nat) (h : Handle) (x : Option String) : Prop where
  begun : h.transaction ≤ id
  named : h.transaction = id → x = some h.name

/-- The transactions before this one have ended. -/
def Alone (start : State) (id : Nat) : Prop :=
  ∀ j t, start.transactions[j]? = some t → id ≠ j → t.active = false

variable {start s s' : State} {id : Nat} {lost : Bool} {l : Ledger} {t : Tables} {name : String}

theorem tables_inv (seen : tables id s = .ok t) : s.closed = false ∧
    t = s.working.getD s.committed ∧ ∃ u, s.transactions[id]? = some u ∧ u.active = true := by
  unfold tables at seen
  cases found : s.transactions[id]? with
  | none =>
    rw [found] at seen
    cases seen
  | some u =>
    simp only [found] at seen
    split_ifs at seen with ended lost locked
    cases seen
    simp only [not_or] at lost
    exact ⟨by simpa using lost.2, rfl, u, rfl, by simpa using ended⟩

namespace InBlock

theorem tables (h : InBlock start lost s l) (alone : Alone start id) {j : Nat}
    (seen : tables j s = .ok t) : j = id ∧ s.closed = false ∧ l = t.ledger := by
  obtain ⟨opened, rfl, u, found, active⟩ := tables_inv seen
  refine ⟨?_, opened, h.ledger (h.closed ▸ opened)⟩
  by_contra apart
  rw [h.transactions] at found
  rw [alone j u found (Ne.symm apart)] at active
  cases active

theorem write (h : InBlock start lost s l) (t : Tables) :
    InBlock start lost (write t s) t.ledger :=
  ⟨h.committed, h.transactions, h.opening, h.busy, h.closed, fun _ => rfl⟩

end InBlock

/-- A store in a file follows the replay. There a deletion does not detach. -/
theorem follows (alone : Alone start id) :
    Follows fileAdapter false (InBlock start) fun _ => Stands id where
  begin {closed s l} kind h := by
    show ∃ fault, begin kind s = .error fault
    unfold File.begin
    split_ifs with lost busy
    · exact ⟨_, rfl⟩
    · exact ⟨_, rfl⟩
    · exact absurd h.busy busy
    · exact absurd h.busy busy
  bucket {closed s l j name g} h found := by
    obtain ⟨t, seen, found⟩ := bind_eq_ok_iff.mp found
    obtain ⟨rfl, -, -⟩ := h.tables alone seen
    split_ifs at found
    · cases found
      exact ⟨rfl, Nat.le_refl _, fun _ => rfl⟩
    · cases found
  create {closed s l j name g s'} h made := by
    obtain ⟨t, seen, -, rfl, rfl⟩ := create_inv made
    obtain ⟨rfl, -, rfl⟩ := h.tables alone seen
    refine ⟨?_, ⟨Nat.le_refl _, fun _ => rfl⟩, fun _ _ stands => stands⟩
    split_ifs with listed
    · obtain ⟨n, found⟩ := SortedMap.contains_eq_true_iff.mp listed
      rw [Ledger.create_of_listed (l := t.ledger) found]
      exact h
    · rw [← Tables.ledger_create (by simpa using listed)]
      exact h.write _
  deleteBucket {closed s l j name s'} h deleted := by
    obtain ⟨_, -, deleted⟩ := bind_eq_ok_iff.mp deleted
    obtain ⟨t, seen, deleted⟩ := bind_eq_ok_iff.mp deleted
    obtain ⟨rfl, -, rfl⟩ := h.tables alone seen
    split_ifs at deleted
    cases deleted
    rw [← Tables.ledger_deleteBucket]
    exact ⟨h.write _, fun _ _ stands => stands⟩
  put {closed s l g x key value s'} h usable written := by
    obtain ⟨_, -, written⟩ := bind_eq_ok_iff.mp written
    obtain ⟨t, seen, written⟩ := bind_eq_ok_iff.mp written
    obtain ⟨same, -, rfl⟩ := h.tables alone seen
    cases written
    obtain rfl := usable.named same
    refine ⟨?_, fun _ _ stands => stands⟩
    show InBlock _ _ _ (t.ledger.set _ _ _)
    rw [← Tables.ledger_put]
    exact h.write _
  delete {closed s l g x key s'} h usable removed := by
    obtain ⟨_, -, removed⟩ := bind_eq_ok_iff.mp removed
    obtain ⟨t, seen, removed⟩ := bind_eq_ok_iff.mp removed
    obtain ⟨same, -, rfl⟩ := h.tables alone seen
    obtain rfl := usable.named same
    refine ⟨?_, fun _ _ stands => stands⟩
    show InBlock _ _ _ (t.ledger.set _ _ _)
    split_ifs at removed with stored
    · cases removed
      rw [← Tables.ledger_delete]
      exact h.write _
    · cases removed
      -- There is no such entry, so the file is not written.
      rw [Ledger.set_of_same (l := t.ledger) (Option.not_isSome_iff_eq_none.mp stored)]
      exact h
  nextSequence {closed s l g x n s'} h usable counted := by
    obtain ⟨_, -, counted⟩ := bind_eq_ok_iff.mp counted
    obtain ⟨t, seen, counted⟩ := bind_eq_ok_iff.mp counted
    obtain ⟨same, -, rfl⟩ := h.tables alone seen
    obtain rfl := usable.named same
    refine ⟨?_, fun _ _ stands => stands⟩
    show InBlock _ _ _ (t.ledger.count _ _)
    split at counted
    · cases counted
    · cases counted
      rw [← Tables.ledger_count]
      exact h.write _
  close h := ⟨⟨h.committed, h.transactions, h.opening, h.busy, rfl, nofun⟩, fun _ _ stands => stands⟩
  setLock _ h := ⟨⟨h.committed, h.transactions, h.opening, h.busy, h.closed, h.ledger⟩,
    fun _ _ stands => stands⟩

theorem begin_inv {writable : Bool} {next : State} (begun : begin writable s = .ok (id, next)) :
    s.closed = false ∧ id = s.transactions.length ∧ next = { s with
      busy := true
      working := if writable then some s.committed else none
      hasJournal := false
      transactions := s.transactions ++ [⟨s.opening, writable, true⟩] } := by
  unfold begin at begun
  split_ifs at begun with lost
  all_goals
    cases begun
    exact ⟨by simpa using lost, rfl, by simp [*]⟩

theorem dump_of_idle (opened : s.closed = false) (idle : s.busy = false) (unlocked : s.lock = .none) :
    dump s = .ok s.committed.contents := by
  let next : State := { s with
    busy := true
    working := none
    hasJournal := false
    transactions := s.transactions ++ [⟨s.opening, false, true⟩] }
  have began : begin false s = .ok (s.transactions.length, next) := by
    simp [begin, opened, idle, next]
  have seen : tables s.transactions.length next = .ok s.committed := by
    simp [tables, opened, unlocked, next]
  unfold dump
  rw [began]
  show (do let t ← tables s.transactions.length next; return t.contents : Except _ _) = _
  rw [seen]
  rfl

theorem shows_of_committed {s : Labelled State Handle} {t : Tables}
    (same : s.store.committed = t) : Shows fileAdapter s t.contents := by
  subst same
  let opened : Labelled State Handle := s.withStore { close { s.store with lock := .none } with
    opening := s.store.opening + 1, closed := false, busy := false }
  have seen : fileAdapter.dump opened.store = .ok s.store.committed.contents :=
    dump_of_idle rfl rfl rfl
  have attempted : attempt fileAdapter opened .dump =
      .ok (.contents s.store.committed.contents, opened) := by
    unfold attempt
    rw [seen]
    rfl
  show [.ok .done, .ok .done, (perform fileAdapter opened .dump).1] = _
  rw [perform_ok rfl attempted]

theorem reached_of_begin {s : Labelled State Handle} (rest : AtRest s) (tx : String) {writable : Bool}
    {next : State} (begun : begin writable s.store = .ok (id, next)) :
    Alone next id ∧ next.transactions[id]? = some ⟨next.opening, writable, true⟩ ∧
    next.committed = s.store.committed ∧
    Follows.Reached (InBlock next) (fun _ => Stands id) ((tx, id) :: s.transactions)
      ⟨next, (tx, id) :: s.transactions, s.handles⟩ (.start (ledger s.store)) := by
  obtain ⟨opened, rfl, rfl⟩ := begin_inv begun
  refine ⟨fun j t found apart => ?_, List.getElem?_concat_length .., rfl, ?_⟩
  · exact ended_of_append (·.active = false)
      (fun j t older => rest.ended t (List.mem_of_getElem? older)) found apart
  · refine ⟨⟨rfl, rfl, rfl, rfl, opened, fun _ => ?_⟩, rfl, fun label h given => ?_⟩
    · cases writable <;> rfl
    · have before := rest.handles label h given
      exact ⟨Nat.le_of_lt before, fun same => absurd same (Nat.ne_of_lt before)⟩

/-- An end that commits nothing: of a view, after a failure, or of a store that was closed. -/
theorem InBlock.finish_of_quiet {writable : Bool} (keep : Bool) (h : InBlock start lost s l)
    (here : start.transactions[id]? = some ⟨start.opening, writable, true⟩)
    (quiet : writable = true → keep = true → lost = true) :
    (finish id keep s).1 = .ok () ∧ (finish id keep s).2.committed = start.committed := by
  unfold finish
  rw [h.transactions, here]
  dsimp only
  rw [if_neg (not_not_intro h.opening.symm)]
  by_cases closed : s.closed = true
  · rw [if_pos closed]
    exact ⟨rfl, h.committed⟩
  · have idle : ¬ (writable = true ∧ keep = true) := fun kept =>
      closed (h.closed.trans (quiet kept.1 kept.2))
    rw [if_neg closed, if_neg idle]
    exact ⟨rfl, h.committed⟩

theorem InBlock.finish_of_open (h : InBlock start false s l)
    (here : start.transactions[id]? = some ⟨start.opening, true, true⟩) :
    (s.lock = .none → (finish id true s).1 = .ok ()) ∧
    ((finish id true s).1 = .ok () → (finish id true s).2.committed = s.working.getD s.committed) ∧
    ∀ fault, (finish id true s).1 = .error fault →
      (finish id true s).2.committed = start.committed := by
  unfold finish
  rw [h.transactions, here]
  dsimp only
  rw [if_neg (not_not_intro h.opening.symm), h.closed, if_neg Bool.false_ne_true, if_pos ⟨rfl, rfl⟩]
  by_cases unlocked : s.lock = .none
  · rw [if_pos unlocked]
    exact ⟨fun _ => rfl, fun _ => rfl, nofun⟩
  · rw [if_neg unlocked]
    exact ⟨fun free => absurd free unlocked, nofun, fun _ _ => h.committed⟩

/-- Nobody else holds a lock: then no end fails. -/
theorem InBlock.finish_of_unlocked {writable : Bool} (h : InBlock start lost s l)
    (here : start.transactions[id]? = some ⟨start.opening, writable, true⟩)
    (unlocked : s.lock = .none) : (finish id true s).1 = .ok () := by
  by_cases quiet : writable = true → true = true → lost = true
  · exact (h.finish_of_quiet true here quiet).1
  · obtain ⟨rfl, opened⟩ : writable = true ∧ lost = false := by simpa using quiet
    subst opened
    exact (h.finish_of_open here).1 unlocked

theorem InBlock.ends {writable : Bool} {s : Labelled State Handle} (h : InBlock start lost s.store l)
    (here : start.transactions[id]? = some ⟨start.opening, writable, true⟩) :
    ∃ new, Ends fileAdapter id s start.committed.contents new ∧
      (writable = true ∧ lost = false → l.Lists new) ∧
      (¬ (writable = true ∧ lost = false) → new = start.committed.contents) := by
  have gives := h.finish_of_quiet false here (fun _ => nofun)
  by_cases effective : writable = true ∧ lost = false
  · obtain ⟨rfl, rfl⟩ := effective
    obtain ⟨-, commits, fails⟩ := h.finish_of_open here
    refine ⟨_, ⟨fun done => shows_of_committed (commits done),
      fun fault failed => shows_of_committed (fails fault failed), gives.1,
      shows_of_committed gives.2⟩, fun _ => ?_, fun idle => absurd ⟨rfl, rfl⟩ idle⟩
    rw [h.ledger rfl]
    exact Tables.lists_contents _
  · have quiet := h.finish_of_quiet true here fun kind _ =>
      (Bool.not_eq_false _).mp fun opened => effective ⟨kind, opened⟩
    refine ⟨_, ⟨fun _ => shows_of_committed quiet.2, fun fault failed => ?_, gives.1,
      shows_of_committed gives.2⟩, fun now => absurd now effective, fun _ => rfl⟩
    cases quiet.1.symm.trans failed

theorem atRest_ofStore (path : String) (c : Contents) :
    AtRest (.ofStore { open_ path with committed := .ofContents c }) := ⟨nofun, nofun⟩

theorem atRest_of_finish {s : Labelled State Handle} {labels : List (String × Nat)} {r : Replay}
    (alone : Alone start id) (inside : id < start.transactions.length)
    (reached : Follows.Reached (InBlock start) (fun _ => Stands id) labels s r) (keep : Bool) :
    AtRest (s.withStore (finish id keep s.store).2) := by
  obtain ⟨t, found⟩ : ∃ t, start.transactions[id]? = some t := ⟨_, List.getElem?_eq_getElem inside⟩
  have transactions : (finish id keep s.store).2.transactions =
      start.transactions.set id { t with active := false } := by
    unfold finish
    rw [reached.state.transactions, found]
    dsimp only
    split_ifs <;> rfl
  refine ⟨fun u member => ?_, fun label h given => ?_⟩
  · obtain ⟨j, there⟩ := List.getElem?_of_mem member
    rw [Labelled.withStore, transactions] at there
    exact ended_of_set (·.active = false) (fun j u older apart => alone j u older apart) rfl there
  · rw [Labelled.withStore, transactions, List.length_set]
    exact Nat.lt_of_le_of_lt (reached.handles label h given).begun inside

theorem takes {s : Labelled State Handle} (rest : AtRest s) {writable : Bool} {tx : String}
    {ops : List Operation} (plain : ∀ op ∈ ops, op.isPlain = true) {reply : Reply}
    (begun : (perform fileAdapter s (.begin writable tx)).1 = .ok reply) :
    Takes fileAdapter false ledger (writable = true ∧ .close ∉ ops) s writable tx ops := by
  obtain ⟨id, next, began, start⟩ := begin_of_perform begun
  obtain ⟨alone, here, before, reached⟩ := reached_of_begin rest tx began
  have more : ∀ op ∈ ops ++ [.setLock .none], op.isPlain = true :=
    List.forall_mem_append.mpr ⟨plain, by simp [Operation.isPlain]⟩
  have inside := (follows alone).run plain reached
  have later := (follows alone).run more reached
  have unlocked := later.state.finish_of_unlocked here (by rw [after_concat]; rfl)
  obtain ⟨new, ends, lists, nothing⟩ := inside.state.ends here
  have opened : (replay fileAdapter false (.start (ledger s.store))
      ⟨next, (tx, id) :: s.transactions, s.handles⟩ ops).closed = false ↔ .close ∉ ops := by
    rw [← Bool.not_eq_true, closed_replay]
    simp [Replay.start]
  rw [opened] at lists nothing
  rw [before] at ends nothing
  unfold Takes
  rw [start]
  exact ⟨_, new, shows_of_committed rfl, ends.settles inside.labels later.labels unlocked, lists,
    nothing⟩

theorem AtRest.block {s : Labelled State Handle} (rest : AtRest s) {writable : Bool} {tx : String}
    {ops : List Operation} (plain : ∀ op ∈ ops, op.isPlain = true) {reply : Reply}
    (begun : (perform fileAdapter s (.begin writable tx)).1 = .ok reply) :
    ∀ last ∈ [.finish tx, .abort tx],
      AtRest (after fileAdapter s (.begin writable tx :: ops ++ [last])) := by
  obtain ⟨id, next, began, start⟩ := begin_of_perform begun
  obtain ⟨alone, here, -, reached⟩ := reached_of_begin rest tx began
  have known : id < next.transactions.length := (List.getElem?_eq_some_iff.mp here).1
  have inside := (follows alone).run plain reached
  intro last member
  rw [after_concat]
  show AtRest (perform fileAdapter (after fileAdapter
    (perform fileAdapter s (.begin writable tx)).2 ops) last).2
  rw [start]
  simp only [List.mem_cons, List.not_mem_nil, or_false] at member
  rcases member with rfl | rfl
  · rw [finish_of_labels inside.labels]
    exact atRest_of_finish alone known inside true
  · rw [abort_of_labels inside.labels]
    exact atRest_of_finish alone known inside false

end Cellstore.Store.File
