import Cellstore.Proofs.Store.Ending
import Cellstore.Proofs.Store.Memory

/-! The blocks of a store in memory.
Inside its block a transaction is the only one that is running, and what its copy holds is what the
replies say. A handle stands for its name as long as the name reaches its number. -/
namespace Cellstore.Store.Memory

theorem Mirrors.set_of_unreached {k : Working} {c : Contents} (h : Mirrors k c) {n : Nat}
    (unreached : ∀ name, k.names.get? name ≠ some n) (b : Bucket) :
    Mirrors { k with buckets := k.buckets.set n b } c := by
  refine ⟨fun name => ?_, fun name m reached => ?_, h.distinct⟩
  · rw [h.get? name]
    cases reached : k.names.get? name with
    | none => rfl
    | some m =>
      have apart : n ≠ m := fun same => unreached name (same ▸ reached)
      rw [Option.bind_some, Option.bind_some, List.getElem?_set_ne apart]
  · rw [List.length_set]
    exact h.bound name m reached

/-- No transaction is running, and every handle belongs to one that has ended. -/
structure AtRest (s : Labelled State Handle) : Prop where
  ended : ∀ t ∈ s.store.transactions, t.active = false
  handles : ∀ label h, s.handle? label = some h → h.transaction < s.store.transactions.length

def ledger (s : State) : Ledger := .ofContents s.contents

/-- A store inside the block of a transaction, with what the block would leave. -/
structure InBlock (old : Contents) (id : Nat) (writable : Bool) (s : State) (l : Ledger) : Prop where
  contents : s.contents = old
  busy : s.busy = true
  others : ∀ j, j ≠ id → running j s = .error .finished
  running : ∃ t c, running id s = .ok t ∧ l = .ofContents c ∧ t.working.isSome = writable ∧
    (∀ k, t.working = some k → Mirrors k c) ∧ (t.working = none → c = old)

/-- What a handle of the running transaction stands for. -/
structure Stands (id : Nat) (s : State) (h : Handle) (x : Option String) : Prop where
  begun : h.transaction ≤ id
  reaches : h.transaction = id → ∀ t k, writing id s = .ok (t, k) → ∃ n, h.target = .number n ∧
    n < k.buckets.length ∧ ∀ name, k.names.get? name = some n ↔ x = some name

variable {s s' : State} {id : Nat} {old : Contents} {writable : Bool} {l : Ledger}

theorem running_setWorking_of_ne {j : Nat} (apart : j ≠ id) (t : Transaction) (k : Working) :
    running j (setWorking id t k s) = running j s := by
  unfold running setWorking
  rw [List.getElem?_set_ne (Ne.symm apart)]

theorem transaction_of_running {t : Transaction} (runs : running id s = .ok t) :
    s.transactions[id]? = some t ∧ t.active = true := by
  unfold running at runs
  cases found : s.transactions[id]? with
  | none =>
    rw [found] at runs
    cases runs
  | some u =>
    simp only [found] at runs
    split_ifs at runs with active
    cases runs
    exact ⟨rfl, active⟩

theorem change_inv {α : Type} {h : Handle} {f : Bucket → α × Bucket} {x : α}
    (changed : change h f s = .ok (x, s')) : ∃ t k b, writing h.transaction s = .ok (t, k) ∧
      content h s = .ok b ∧ x = (f b).1 ∧ s' = match h.target with
        | .number n => setWorking h.transaction t { k with buckets := k.buckets.set n (f b).2 } s
        | .snapshot _ => s := by
  obtain ⟨⟨t, k⟩, writes, changed⟩ := bind_eq_ok_iff.mp changed
  obtain ⟨b, seen, changed⟩ := bind_eq_ok_iff.mp changed
  refine ⟨t, k, b, writes, seen, ?_⟩
  cases target : h.target <;> rw [target] at changed <;> cases changed <;> exact ⟨rfl, rfl⟩

namespace InBlock

theorem writing (h : InBlock old id writable s l) {j : Nat} {t : Transaction} {k : Working}
    (writes : writing j s = .ok (t, k)) : j = id ∧ ∃ c, Mirrors k c ∧ l = .ofContents c := by
  obtain ⟨runs, copy⟩ := running_of_writing writes
  obtain ⟨u, c, running, rest, -, mirrors, -⟩ := h.running
  by_cases here : j = id
  · subst here
    cases running.symm.trans runs
    exact ⟨rfl, c, mirrors k copy, rest⟩
  · rw [h.others j here] at runs
    cases runs

theorem setWorking (h : InBlock old id writable s l) {t : Transaction} {k m : Working} {c : Contents}
    (writes : Memory.writing id s = .ok (t, k)) (mirrors : Mirrors m c) :
    InBlock old id writable (setWorking id t m s) (.ofContents c) := by
  obtain ⟨runs, copy⟩ := running_of_writing writes
  refine ⟨h.contents, h.busy, fun j apart => ?_, _, c, running_setWorking runs m, rfl, ?_, ?_, nofun⟩
  · rw [running_setWorking_of_ne apart]
    exact h.others j apart
  · obtain ⟨u, _, running, -, kind, -⟩ := h.running
    cases running.symm.trans runs
    rw [← kind, copy]
    rfl
  · rintro _ ⟨⟩
    exact mirrors

end InBlock

/-- A handle keeps what it stands for as long as its number keeps its name. -/
theorem Stands.setWorking {g : Handle} {x y : Option String} (h : Stands id s g x) {t : Transaction}
    {k m : Working} (writes : Memory.writing id s = .ok (t, k))
    (longer : k.buckets.length ≤ m.buckets.length)
    (renamed : ∀ n < k.buckets.length, (∀ name, k.names.get? name = some n ↔ x = some name) →
      ∀ name, m.names.get? name = some n ↔ y = some name) :
    Stands id (setWorking id t m s) g y := by
  refine ⟨h.begun, fun same u v now => ?_⟩
  rw [writing_setWorking (running_of_writing writes).1] at now
  cases now
  obtain ⟨n, target, bound, named⟩ := h.reaches same t k writes
  exact ⟨n, target, Nat.lt_of_lt_of_le bound longer, renamed n bound named⟩

theorem stands_number {t : Transaction} {k : Working} {c : Contents} {name : String} {n : Nat}
    (mirrors : Mirrors k c) (writes : writing id s = .ok (t, k))
    (reached : k.names.get? name = some n) : Stands id s ⟨id, name, .number n⟩ (some name) := by
  refine ⟨Nat.le_refl _, fun _ u m again => ?_⟩
  cases writes.symm.trans again
  refine ⟨n, rfl, mirrors.bound name n reached, fun other => ⟨fun there => ?_, ?_⟩⟩
  · exact congrArg some (mirrors.distinct name other n reached there)
  · rintro ⟨⟩
    exact reached

/-- A handle changes the bucket of its name. One that stands for no name changes a bucket that nobody
sees. -/
theorem InBlock.change (h : InBlock old id writable s l) {α : Type} {g : Handle} {x : Option String}
    {f : Bucket → α × Bucket} {y : α} (usable : Stands id s g x)
    (changed : change g f s = .ok (y, s')) :
    ((x = none ∧ InBlock old id writable s' l) ∨
      ∃ name c b, x = some name ∧ l = .ofContents c ∧ c.get? name = some b ∧ y = (f b).1 ∧
        InBlock old id writable s' (.ofContents (c.insert name (f b).2))) ∧
    ∀ g x, Stands id s g x → Stands id s' g x := by
  obtain ⟨t, k, b, writes, seen, rfl, rfl⟩ := change_inv changed
  obtain ⟨same, c, mirrors, rfl⟩ := h.writing writes
  rw [same] at writes ⊢
  obtain ⟨n, target, bound, named⟩ := usable.reaches same t k writes
  rw [target]
  refine ⟨?_, fun g x stands => stands.setWorking writes (by simp) fun _ _ named => named⟩
  cases x with
  | none =>
    have unreached (name : String) : k.names.get? name ≠ some n := fun reached =>
      nomatch (named name).mp reached
    exact .inl ⟨rfl, h.setWorking writes (mirrors.set_of_unreached unreached _)⟩
  | some name =>
    have reached : k.names.get? name = some n := (named name).mpr rfl
    obtain ⟨d, stored, found⟩ := mirrors.get?_of_names reached
    have content : b = d := by
      have handle : g = ⟨id, g.name, .number n⟩ := by rw [← same, ← target]
      rw [handle, content_of_number writes, stored] at seen
      exact (Except.ok.inj seen).symm
    subst content
    exact .inr ⟨name, c, b, rfl, rfl, found, rfl, h.setWorking writes (mirrors.set reached _)⟩

/-- A store in memory follows the replay, where a deletion detaches. -/
theorem follows (old : Contents) (id : Nat) (writable : Bool) :
    Follows memoryAdapter true (fun _ => InBlock old id writable) (Stands id) where
  begin {closed s l} kind h := by
    show ∃ fault, begin kind s = .error fault
    unfold Memory.begin
    split_ifs with lost busy
    · exact ⟨_, rfl⟩
    · exact ⟨_, rfl⟩
    · exact absurd h.busy busy
  bucket {closed s l j name g} h found := by
    obtain ⟨u, c, runs, rfl, -, mirrors, -⟩ := h.running
    obtain ⟨t, here, found⟩ := bind_eq_ok_iff.mp found
    have same : j = id := by
      by_contra apart
      rw [h.others j apart] at here
      cases here
    subst same
    cases runs.symm.trans here
    cases copy : u.working with
    | none =>
      simp only [copy, pure, Except.pure, Except.ok.injEq, Option.map_eq_some_iff] at found
      obtain ⟨b, -, rfl⟩ := found
      refine ⟨rfl, Nat.le_refl _, fun _ t k writes => ?_⟩
      obtain ⟨again, writing⟩ := running_of_writing writes
      cases runs.symm.trans again
      rw [copy] at writing
      cases writing
    | some k =>
      simp only [copy, pure, Except.pure, Except.ok.injEq, Option.map_eq_some_iff] at found
      obtain ⟨n, reached, rfl⟩ := found
      have writes : writing j s = .ok (u, k) := by
        rw [writing, runs]
        simp only [bind, Except.bind, copy]
        rfl
      exact ⟨rfl, stands_number (mirrors k copy) writes reached⟩
  create {closed s l j name g s'} h made := by
    obtain ⟨t, k, writes, -, made⟩ := create_inv made
    obtain ⟨rfl, c, mirrors, rfl⟩ := h.writing writes
    -- A bucket that is there is given out again. A new one gets a number that no handle has.
    rcases made with ⟨n, reached, rfl, rfl⟩ | ⟨missing, rfl, rfl⟩
    · obtain ⟨b, -, found⟩ := mirrors.get?_of_names reached
      have listed : (Ledger.ofContents c).counters name = some b.sequence := by
        show (c.get? name).map _ = _
        rw [found]
        rfl
      rw [Ledger.create_of_listed listed]
      exact ⟨h, stands_number mirrors writes reached, fun _ _ stands => stands⟩
    · have unlisted : c.get? name = none := by
        rw [mirrors.get?, missing]
        rfl
      rw [Ledger.create_ofContents unlisted]
      have writes' := writing_setWorking (running_of_writing writes).1
        ⟨k.names.insert name k.buckets.length, k.buckets ++ [Bucket.empty]⟩
      have mirrors' := mirrors.create name
      refine ⟨h.setWorking writes mirrors',
        stands_number mirrors' writes' (SortedMap.get?_insert_self ..), fun g x stands => ?_⟩
      refine stands.setWorking writes (by simp) fun n bound named other => ?_
      rw [SortedMap.get?_insert, ← named]
      split_ifs with here
      · subst here
        rw [missing]
        simp [Nat.ne_of_gt bound]
      · rfl
  deleteBucket {closed s l j name s'} h deleted := by
    obtain ⟨⟨t, k⟩, writes, deleted⟩ := bind_eq_ok_iff.mp deleted
    obtain ⟨rfl, c, mirrors, rfl⟩ := h.writing writes
    dsimp only at deleted
    split_ifs at deleted
    cases deleted
    rw [Ledger.deleteBucket_ofContents]
    refine ⟨h.setWorking writes (mirrors.erase name), fun g x stands => ?_⟩
    -- The number stays in the copy, but no name has it any more.
    refine stands.setWorking writes (Nat.le_refl _) fun n bound named other => ?_
    rw [SortedMap.get?_erase, if_pos rfl, Option.filter_eq_some_iff, ← named]
    split_ifs with here
    · simp [here]
    · simp [Ne.symm here]
  put {closed s l g x key value s'} h usable written := by
    obtain ⟨⟨_, s'⟩, changed, rfl⟩ := map_eq_ok_iff.mp written
    -- A handle of a deleted bucket writes to what nobody sees.
    obtain ⟨⟨rfl, there⟩ | ⟨name, c, b, rfl, rfl, found, -, there⟩, keeps⟩ := h.change usable changed
    · exact ⟨there, keeps⟩
    · rw [← Ledger.put_ofContents found] at there
      exact ⟨there, keeps⟩
  delete {closed s l g x key s'} h usable removed := by
    obtain ⟨⟨_, s'⟩, changed, rfl⟩ := map_eq_ok_iff.mp removed
    obtain ⟨⟨rfl, there⟩ | ⟨name, c, b, rfl, rfl, found, -, there⟩, keeps⟩ := h.change usable changed
    · exact ⟨there, keeps⟩
    · rw [← Ledger.delete_ofContents found] at there
      exact ⟨there, keeps⟩
  nextSequence {closed s l g x n s'} h usable counted := by
    have changed : change g (Bucket.nextSequence .endless) s = .ok (n, s') := counted
    obtain ⟨⟨rfl, there⟩ | ⟨name, c, b, rfl, rfl, found, rfl, there⟩, keeps⟩ := h.change usable changed
    · exact ⟨there, keeps⟩
    · refine ⟨?_, keeps⟩
      show InBlock _ _ _ _ ((Ledger.ofContents c).count name _)
      rw [Ledger.count_ofContents found]
      exact there
  close h := ⟨⟨h.contents, h.busy, h.others, h.running⟩,
    fun _ _ stands => ⟨stands.begun, stands.reaches⟩⟩
  setLock _ h := ⟨h, fun _ _ stands => stands⟩

theorem shows_of_contents {s : Labelled State Handle} {c : Contents} (same : s.store.contents = c) :
    Shows memoryAdapter s c := same ▸ rfl

theorem begin_inv {next : State} (begun : begin writable s = .ok (id, next)) :
    id = s.transactions.length ∧ next = { s with
      busy := true
      transactions := s.transactions ++ [⟨s.opening,
        if writable then some (.ofContents s.contents) else none, true⟩] } := by
  unfold begin at begun
  split_ifs at begun with _ _ kind
  · cases begun
    exact ⟨rfl, by rw [if_pos kind]⟩
  · cases begun
    exact ⟨rfl, by rw [if_neg kind]⟩

theorem reached_of_begin {s : Labelled State Handle} (rest : AtRest s) (tx : String) {next : State}
    (begun : begin writable s.store = .ok (id, next)) :
    Follows.Reached (fun _ => InBlock s.store.contents id writable) (Stands id)
      ((tx, id) :: s.transactions) ⟨next, (tx, id) :: s.transactions, s.handles⟩
      (.start (ledger s.store)) := by
  obtain ⟨rfl, rfl⟩ := begin_inv begun
  refine ⟨⟨rfl, rfl, fun j apart => ?_, ?_⟩, rfl, fun label h given => ?_⟩
  · unfold running
    dsimp only
    cases found : (s.store.transactions ++ [_])[j]? with
    | none => rfl
    | some t =>
      have ended := ended_of_append (·.active = false) (fun j t older => rest.ended t
        (List.mem_of_getElem? older)) found (Ne.symm apart)
      dsimp only
      rw [ended]
      rfl
  · refine ⟨⟨s.store.opening, if writable then some (.ofContents s.store.contents) else none, true⟩,
      s.store.contents, ?_, rfl, ?_, ?_, fun _ => rfl⟩
    · unfold running
      rw [List.getElem?_concat_length]
      rfl
    · cases writable <;> rfl
    · intro k copy
      cases writable <;> cases copy
      exact .ofContents _
  · have before := rest.handles label h given
    exact ⟨Nat.le_of_lt before, fun same => absurd same (Nat.ne_of_lt before)⟩

/-- The end of a block replaces the contents by its copy, or leaves them. -/
theorem InBlock.finish (h : InBlock old id writable s l) : ∃ new, l.Lists new ∧
    (writable = false → new = old) ∧ ∀ keep, (finish id keep s).1 = .ok () ∧
      (finish id keep s).2.contents = if keep then new else old := by
  obtain ⟨t, c, runs, rfl, kind, mirrors, viewing⟩ := h.running
  refine ⟨c, Ledger.lists_ofContents c, fun view => viewing ?_, fun keep => ?_⟩
  · rw [view] at kind
    simpa using kind
  · unfold Memory.finish
    rw [(transaction_of_running runs).1]
    refine ⟨rfl, ?_⟩
    dsimp only
    cases copy : t.working with
    | none =>
      rw [h.contents, viewing copy]
      cases keep <;> rfl
    | some k =>
      dsimp only
      rw [h.contents, (mirrors k copy).contents_eq]

theorem InBlock.ends {s : Labelled State Handle} (h : InBlock old id writable s.store l) :
    ∃ new, Ends memoryAdapter id s old new ∧ l.Lists new ∧ (writable = false → new = old) := by
  obtain ⟨new, lists, viewing, ends⟩ := h.finish
  refine ⟨new, ⟨fun _ => shows_of_contents (ends true).2, fun fault failed => ?_, (ends false).1,
    shows_of_contents (ends false).2⟩, lists, viewing⟩
  cases (ends true).1.symm.trans failed

theorem atRest_ofStore (path : String) (c : Contents) :
    AtRest (.ofStore { open_ path with contents := c }) := ⟨nofun, nofun⟩

theorem atRest_of_finish {s : Labelled State Handle} {labels : List (String × Nat)} {r : Replay}
    (reached : Follows.Reached (fun _ => InBlock old id writable) (Stands id) labels s r)
    (keep : Bool) : AtRest (s.withStore (finish id keep s.store).2) := by
  obtain ⟨t, c, runs, -⟩ := reached.state.running
  have found := (transaction_of_running runs).1
  have inside : id < s.store.transactions.length := (List.getElem?_eq_some_iff.mp found).1
  have transactions : (finish id keep s.store).2.transactions =
      s.store.transactions.set id { t with active := false } := by
    unfold finish
    rw [found]
  refine ⟨fun u member => ?_, fun label h given => ?_⟩
  · obtain ⟨j, there⟩ := List.getElem?_of_mem member
    rw [Labelled.withStore, transactions] at there
    refine ended_of_set (·.active = false) (fun j u older apart => ?_) rfl there
    have ended := reached.state.others j (Ne.symm apart)
    unfold running at ended
    rw [older] at ended
    dsimp only at ended
    split_ifs at ended with active
    simpa using active
  · rw [Labelled.withStore, transactions, List.length_set]
    exact Nat.lt_of_le_of_lt (reached.handles label h given).begun inside

theorem takes {s : Labelled State Handle} (rest : AtRest s) {tx : String} {ops : List Operation}
    (plain : ∀ op ∈ ops, op.isPlain = true) {reply : Reply}
    (begun : (perform memoryAdapter s (.begin writable tx)).1 = .ok reply) :
    Takes memoryAdapter true ledger (writable = true) s writable tx ops := by
  obtain ⟨id, next, began, start⟩ := begin_of_perform begun
  have run {ops : List Operation} (plain : ∀ op ∈ ops, op.isPlain = true) :=
    (follows s.store.contents id writable).run plain (reached_of_begin rest tx began)
  have more : ∀ op ∈ ops ++ [.setLock .none], op.isPlain = true :=
    List.forall_mem_append.mpr ⟨plain, by simp [Operation.isPlain]⟩
  have inside := run plain
  have later := run more
  obtain ⟨new, ends, lists, viewing⟩ := inside.state.ends
  obtain ⟨_, -, -, unlocked⟩ := later.state.finish
  unfold Takes
  rw [start]
  exact ⟨s.store.contents, new, shows_of_contents rfl,
    ends.settles inside.labels later.labels (unlocked true).1, fun _ => lists,
    fun view => viewing (by simpa using view)⟩

theorem AtRest.block {s : Labelled State Handle} (rest : AtRest s) {tx : String}
    {ops : List Operation} (plain : ∀ op ∈ ops, op.isPlain = true) {reply : Reply}
    (begun : (perform memoryAdapter s (.begin writable tx)).1 = .ok reply) :
    ∀ last ∈ [.finish tx, .abort tx],
      AtRest (after memoryAdapter s (.begin writable tx :: ops ++ [last])) := by
  obtain ⟨id, next, began, start⟩ := begin_of_perform begun
  have inside := (follows s.store.contents id writable).run plain
    (reached_of_begin rest tx began)
  intro last member
  rw [after_concat]
  show AtRest (perform memoryAdapter (after memoryAdapter
    (perform memoryAdapter s (.begin writable tx)).2 ops) last).2
  rw [start]
  simp only [List.mem_cons, List.not_mem_nil, or_false] at member
  rcases member with rfl | rfl
  · rw [finish_of_labels inside.labels]
    exact atRest_of_finish inside true
  · rw [abort_of_labels inside.labels]
    exact atRest_of_finish inside false

end Cellstore.Store.Memory
