import Cellstore.Proofs.Store.Contract
import Cellstore.Proofs.Store.Tables

/-! Stores in files do what every store does.
The committed tables represent the contents, and the tables of a running update its copy.
Nobody else holds a lock here, and a counter has to stay below its limit. -/
namespace Cellstore.Store.File

/-- The store agrees with the contract, and nobody has locked its file. -/
structure Agrees (s : State) (r : Contract) : Prop where
  path : s.path = r.path
  closed : s.closed = r.closed
  unlocked : s.lock = .none
  committed : Represents s.committed r.contents
  busy : s.busy = r.block.isSome
  begun : s.transactions.map (·.writable) = r.begun
  ended : ∀ id t, s.transactions[id]? = some t → (∀ b, r.block = some b → b.id ≠ id) →
    t.active = false
  block : ∀ b, r.block = some b → s.closed = false ∧ Option.Rel Represents s.working b.copy ∧
    ∃ t, s.transactions[b.id]? = some t ∧ t.active = true ∧ t.opening = s.opening ∧
      t.writable = b.copy.isSome

def matching : Matching State Handle where
  state := Agrees
  handle h k _ r := h.transaction = k.transaction ∧ h.name = k.name ∧ k.Live r

/-- Two sides of one running transaction. -/
structure Runs (s : State) (r : Contract) (id : Nat) (b : Block) : Prop where
  block : r.block = some b
  number : b.id = id
  running : r.running id = .ok b
  tables : tables id s = .ok (s.working.getD s.committed)
  writable : writable id s = if b.copy.isSome then .ok () else .error .readOnly
  working : Option.Rel Represents s.working b.copy

namespace Agrees

variable {s : State} {r : Contract} {id : Nat}

theorem getElem?_begun (h : Agrees s r) (id : Nat) :
    r.begun[id]? = (s.transactions[id]?).map (·.writable) := by
  rw [← h.begun, List.getElem?_map]

theorem running_cases (h : Agrees s r) (id : Nat) : (∃ b, Runs s r id b) ∨
    (tables id s = .error .finished ∧ r.running id = .error .finished) := by
  by_cases here : ∃ b, r.block = some b ∧ b.id = id
  · obtain ⟨b, block, rfl⟩ := here
    obtain ⟨opened, working, t, found, active, opening, writes⟩ := h.block b block
    refine Or.inl ⟨b, block, rfl, ?_, ?_, ?_, working⟩
    · rw [Contract.running, block]
      exact if_pos rfl
    · unfold File.tables
      simp [found, active, opening, opened, h.unlocked]
    · unfold File.writable
      simp [found, writes]
  · refine Or.inr ⟨?_, ?_⟩
    · unfold File.tables
      split
      · rfl
      · rename_i t found
        have ended := h.ended id t found fun b block same => here ⟨b, block, same⟩
        rw [ended]
        rfl
    · unfold Contract.running
      split
      · rename_i b block
        exact if_neg fun same => here ⟨b, block, same⟩
      · rfl

theorem represents (h : Agrees s r) {b : Block} (runs : Runs s r id b) :
    Represents (s.working.getD s.committed) (b.copy.getD r.contents) := by
  have working := runs.working
  cases here : s.working <;> cases copy : b.copy <;> rw [here, copy] at working <;> cases working
  · exact h.committed
  · assumption

theorem write (h : Agrees s r) {c d : Contents} {t : Tables} (runs : Runs s r id ⟨id, some c⟩)
    (represents : Represents t d) : Agrees (write t s) (r.write id d) := by
  obtain ⟨opened, _, u, found, active, opening, writes⟩ := h.block _ runs.block
  refine ⟨h.path, h.closed, h.unlocked, h.committed, ?_, h.begun, fun other u found apart => ?_, ?_⟩
  · show s.busy = true
    rw [h.busy, runs.block]
    rfl
  · refine h.ended other u found fun b block same => ?_
    rw [runs.block, Option.some.injEq] at block
    subst block
    exact apart _ rfl same
  · rintro b ⟨⟩
    exact ⟨opened, .some represents, u, found, active, opening, writes⟩

theorem step (h : Agrees s r) {c d : Contents} {t : Tables} (runs : Runs s r id ⟨id, some c⟩)
    (represents : Represents t d) {removed : Option String}
    (kept : ∀ name, removed ≠ some name → c.contains name = true → d.contains name = true) :
    matching.Step s r (File.write t s) (r.write id d) removed := by
  refine ⟨h.write runs represents, ?_⟩
  rintro g j other ⟨transaction, name, b, block, number, inside⟩
  rw [runs.block, Option.some.injEq] at block
  subst block
  exact ⟨transaction, name, _, rfl, number, kept _ other inside⟩

/-- A transaction may write on both sides, or is refused on both before it reads its tables. -/
theorem writing_cases (h : Agrees s r) {id : Nat} (current : ¬ r.IsEndedView id) :
    (∃ t c, Runs s r id ⟨id, some c⟩ ∧ s.working = some t ∧ Represents t c ∧
      writable id s = .ok () ∧ tables id s = .ok t ∧ r.writing id = .ok c) ∨
    ∃ fault, r.writing id = .error fault ∧ ∀ {α : Type} (f : Tables → Except StoreFault α),
      (do writable id s; let t ← tables id s; f t) = .error fault := by
  rcases h.running_cases id with ⟨b, runs⟩ | ⟨file, contract⟩
  · have working := runs.working
    have number := runs.number
    have writes := runs.writable
    have reads := runs.tables
    obtain ⟨_, copy⟩ := b
    simp only at number working writes
    subst number
    unfold Contract.writing
    rw [runs.running, writes]
    cases here : s.working <;> cases copy <;> rw [here] at working reads <;> cases working
    · exact Or.inr ⟨.readOnly, rfl, fun _ => rfl⟩
    · rename_i t c represents
      exact Or.inl ⟨t, c, runs, rfl, represents, rfl, reads, rfl⟩
  · have writer : r.begun[id]? = some true := by
      by_contra view
      exact current ⟨contract, view⟩
    rw [h.getElem?_begun] at writer
    refine Or.inr ⟨.finished, ?_, fun f => ?_⟩
    · rw [Contract.writing, contract]
    · unfold File.writable
      rw [writer, file]
      rfl

theorem ended_of_idle (h : Agrees s r) (idle : r.block = none) (id : Nat) (t : Transaction)
    (found : s.transactions[id]? = some t) : t.active = false := by
  refine h.ended id t found fun b block => ?_
  rw [idle] at block
  cases block

theorem begin (h : Agrees s r) (writable : Bool) :
    SameOutcome (fun x y => x.1 = y.1 ∧ Agrees x.2 y.2) (File.begin writable s)
      (r.begin writable) := by
  have count : s.transactions.length = r.begun.length := by rw [← h.begun, List.length_map]
  unfold File.begin Contract.begin
  rw [← h.closed, ← h.busy, ← h.path]
  by_cases closed : s.closed = true
  · rw [if_pos closed, if_pos closed]
    rfl
  by_cases busy : s.busy = true
  · rw [if_neg closed, if_neg closed, if_pos busy, if_pos busy]
    rfl
  have unlocked : ¬ (writable = true ∧ (s.lock = .immediate ∨ s.lock = .exclusive)) := by
    simp [h.unlocked]
  rw [if_neg closed, if_neg closed, if_neg busy, if_neg busy, if_neg unlocked]
  have idle : r.block = none := by simpa [h.busy] using busy
  refine ⟨count, rfl, rfl, h.unlocked, h.committed, rfl, ?_, fun id t found apart => ?_, ?_⟩
  · simp [h.begun]
  · have next : s.transactions.length ≠ id := count ▸ apart _ rfl
    exact ended_of_append (·.active = false) (h.ended_of_idle idle) found next
  · rintro b ⟨⟩
    refine ⟨by simpa using closed, ?_, ⟨s.opening, writable, true⟩, ?_, rfl, rfl, ?_⟩
    · cases writable
      · exact .none
      · exact .some h.committed
    · rw [← count]
      simp
    · cases writable <;> rfl

theorem finish (h : Agrees s r) {b : Block} (keep : Bool) (block : r.block = some b) :
    ∃ s', File.finish b.id keep s = (.ok (), s') ∧ Agrees s' (r.settle b keep) := by
  obtain ⟨opened, working, t, found, active, opening, writes⟩ := h.block b block
  have kept : Represents (if t.writable = true ∧ keep = true then s.working.getD s.committed
      else s.committed) (r.settle b keep).contents := by
    unfold Contract.settle
    cases here : s.working <;> cases copy : b.copy <;> rw [here, copy] at working <;>
      cases working
    · cases keep <;> simp [writes, copy, h.committed]
    · rename_i represents
      cases keep <;> simp [writes, copy, h.committed, represents]
  refine ⟨{ s with
    committed := if t.writable = true ∧ keep = true then s.working.getD s.committed else s.committed
    working := none
    hasJournal := false
    busy := false
    transactions := s.transactions.set b.id { t with active := false } },
    ?_, h.path, h.closed, h.unlocked, kept, rfl, ?_, fun id u there _ => ?_, ?_⟩
  · unfold File.finish
    by_cases writing : t.writable = true ∧ keep = true <;>
      simp [found, opening, opened, h.unlocked, writing]
  · show (s.transactions.set b.id { t with active := false }).map (·.writable) = r.begun
    rw [List.map_set, ← h.begun]
    apply List.ext_getElem?
    intro i
    rw [List.getElem?_set]
    split_ifs with here inside
    · rw [← here, List.getElem?_map, found]
      rfl
    · rw [← here, List.getElem?_eq_none (Nat.le_of_not_lt inside)]
    · rfl
  · refine ended_of_set (·.active = false) (fun id u older apart => ?_) rfl there
    refine h.ended id u older fun d same => ?_
    rw [block, Option.some.injEq] at same
    exact same ▸ apart
  · rintro d ⟨⟩

theorem bucket (h : Agrees s r) (id : Nat) (name : String) :
    SameOutcome (Option.Rel fun g k => matching.handle g k s r) (File.bucket id name s)
      (r.bucket id name) := by
  unfold File.bucket Contract.bucket Contract.visible
  rcases h.running_cases id with ⟨b, runs⟩ | ⟨file, contract⟩
  · rw [runs.tables, runs.running]
    simp only [bind, Except.bind, Except.map, (h.represents runs).contains_eq]
    split_ifs with inside
    · exact .some ⟨rfl, rfl, b, runs.block, runs.number, inside⟩
    · exact .none
  · rw [file, contract]
    rfl

theorem names (h : Agrees s r) (id : Nat) : File.names id s = r.names id := by
  unfold File.names Contract.names Contract.visible
  rcases h.running_cases id with ⟨b, runs⟩ | ⟨file, contract⟩
  · rw [runs.tables, runs.running]
    simp only [Except.map, (h.represents runs).keys_eq]
  · rw [file, contract]
    rfl

theorem create (h : Agrees s r) {id : Nat} (name : String)
    (current : name ≠ "" → ¬ r.IsEndedView id) :
    SameOutcome (fun x y => matching.handle x.1 y.1 x.2 y.2 ∧ matching.Step s r x.2 y.2 none)
      (File.create id name s) (r.create id name) := by
  unfold File.create Contract.create
  by_cases unnamed : name = ""
  · rw [if_pos unnamed, if_pos unnamed]
    rfl
  rw [if_neg unnamed, if_neg unnamed]
  rcases h.writing_cases (current unnamed) with ⟨t, c, runs, _, represents, writes, reads, copy⟩ |
    ⟨fault, copy, refused⟩
  · rw [writes, reads, copy]
    simp only [bind, Except.bind, Except.map, represents.contains_eq]
    cases found : c.get? name with
    | some b =>
      have inside : c.contains name = true := SortedMap.contains_eq_true_iff.mpr ⟨b, found⟩
      rw [if_pos inside, Option.getD_some, SortedMap.insert_of_get? found,
        Contract.write_of_writing copy]
      exact ⟨⟨rfl, rfl, _, runs.block, rfl, inside⟩, h, fun _ _ _ usable => usable⟩
    | none =>
      have outside : ¬ c.contains name = true := by simp [SortedMap.contains, found]
      have inside (other : String) (there : c.contains other = true ∨ name = other) :
          (c.insert name Bucket.empty).contains other = true := by
        rw [SortedMap.contains, SortedMap.get?_insert]
        split_ifs with here
        · rfl
        · exact there.resolve_right here
      rw [if_neg outside, Option.getD_none]
      exact ⟨⟨rfl, rfl, _, rfl, rfl, inside name (Or.inr rfl)⟩,
        h.step runs (represents.create found) fun other _ there => inside other (Or.inl there)⟩
  · rw [copy]
    dsimp only
    rw [refused]
    rfl

theorem deleteBucket (h : Agrees s r) {id : Nat} (name : String) (current : ¬ r.IsEndedView id) :
    SameOutcome (fun s' r' => matching.Step s r s' r' (some name))
      (File.deleteBucket id name s) (r.deleteBucket id name) := by
  unfold File.deleteBucket Contract.deleteBucket
  rcases h.writing_cases current with ⟨t, c, runs, _, represents, writes, reads, copy⟩ |
    ⟨fault, copy, refused⟩
  · rw [writes, reads, copy]
    simp only [bind, Except.bind, represents.contains_eq]
    split_ifs
    · refine h.step runs (represents.deleteBucket name) fun other different there => ?_
      rw [SortedMap.contains, SortedMap.get?_erase, if_neg fun same => different (congrArg some same)]
      exact there
    · rfl
  · rw [copy]
    dsimp only
    rw [refused]
    rfl

theorem handle_runs (h : Agrees s r) {g : Handle} {k : Contract.Handle}
    (usable : matching.handle g k s r) : ∃ b d, Runs s r k.transaction b ∧
      (b.copy.getD r.contents).get? k.name = some d ∧ r.content k = .ok d := by
  obtain ⟨_, _, b, block, number, inside⟩ := usable
  obtain ⟨d, found⟩ := SortedMap.contains_eq_true_iff.mp inside
  rcases h.running_cases k.transaction with ⟨e, runs⟩ | ⟨_, ended⟩
  · have same := runs.block
    rw [block, Option.some.injEq] at same
    subst same
    refine ⟨b, d, runs, found, ?_⟩
    rw [Contract.content, Contract.visible, runs.running]
    simp [Except.map, found]
  · rw [Contract.running, block] at ended
    simp [number] at ended

theorem get (h : Agrees s r) {g : Handle} {k : Contract.Handle}
    (usable : matching.handle g k s r) (key : Bytes) :
    File.get g key s = (r.content k).map (·.get? key) := by
  obtain ⟨b, d, runs, found, content⟩ := h.handle_runs usable
  rw [File.get, usable.1, usable.2.1, runs.tables, content]
  simp only [Except.map, (h.represents runs).get?_eq found]

theorem items (h : Agrees s r) {g : Handle} {k : Contract.Handle}
    (usable : matching.handle g k s r) (lead : Bytes) :
    File.items g lead s = (r.content k).map (·.items lead) := by
  obtain ⟨b, d, runs, found, content⟩ := h.handle_runs usable
  rw [File.items, usable.1, usable.2.1, runs.tables, content]
  simp only [Except.map, (h.represents runs).scan_eq found]

/-- A handle that can be used writes to its bucket on both sides, or is refused on both before
the tables are read. -/
theorem handle_writes (h : Agrees s r) {g : Handle} {k : Contract.Handle}
    (usable : matching.handle g k s r) :
    (∃ t c d, Runs s r k.transaction ⟨k.transaction, some c⟩ ∧ Represents t c ∧
      c.get? k.name = some d ∧ writable k.transaction s = .ok () ∧
      tables k.transaction s = .ok t ∧ r.writing k.transaction = .ok c) ∨
    ∃ fault, r.writing k.transaction = .error fault ∧
      ∀ {α : Type} (f : Tables → Except StoreFault α),
        (do writable k.transaction s; let t ← tables k.transaction s; f t) = .error fault := by
  obtain ⟨b, d, runs', found, _⟩ := h.handle_runs usable
  have current : ¬ r.IsEndedView k.transaction := by
    rintro ⟨ended, _⟩
    rw [runs'.running] at ended
    cases ended
  rcases h.writing_cases current with ⟨t, c, runs, _, represents, writes, reads, copy⟩ | refused
  · have same := runs.block
    rw [runs'.block, Option.some.injEq] at same
    subst same
    exact Or.inl ⟨t, c, d, runs, represents, found, writes, reads, copy⟩
  · exact Or.inr refused

private theorem change (h : Agrees s r) {k : Contract.Handle} {c : Contents} {b : Bucket}
    {t : Tables} (runs : Runs s r k.transaction ⟨k.transaction, some c⟩)
    (represents : Represents t (c.insert k.name b)) :
    matching.Step s r (File.write t s) (r.write k.transaction (c.insert k.name b)) none := by
  refine h.step runs represents fun other _ there => ?_
  rw [SortedMap.contains, SortedMap.get?_insert]
  split_ifs
  · rfl
  · exact there

theorem put (h : Agrees s r) {g : Handle} {k : Contract.Handle}
    (usable : matching.handle g k s r) (key value : Bytes) :
    SameOutcome (fun s' r' => matching.Step s r s' r' none) (File.put g key value s)
      ((r.change k fun b => ((), b.put key value)).map (·.2)) := by
  unfold File.put
  rw [usable.1, usable.2.1]
  rcases h.handle_writes usable with
    ⟨t, c, d, runs, represents, found, writes, reads, copy⟩ | ⟨fault, copy, refused⟩
  · rw [writes, reads, Contract.change_of_writing copy found]
    exact h.change runs (represents.put found key value)
  · rw [Contract.change, copy, refused]
    rfl

theorem delete (h : Agrees s r) {g : Handle} {k : Contract.Handle}
    (usable : matching.handle g k s r) (key : Bytes) :
    SameOutcome (fun s' r' => matching.Step s r s' r' none) (File.delete g key s)
      ((r.change k fun b => ((), b.delete key)).map (·.2)) := by
  unfold File.delete
  rw [usable.1, usable.2.1]
  rcases h.handle_writes usable with
    ⟨t, c, d, runs, represents, found, writes, reads, copy⟩ | ⟨fault, copy, refused⟩
  · rw [writes, reads, Contract.change_of_writing copy found]
    simp only [bind, Except.bind, Except.map, represents.get?_eq found]
    cases stored : d.get? key with
    | some value => exact h.change runs (represents.delete found key)
    | none =>
      -- The table is left alone, and so is the bucket: it has no such key.
      rw [Bucket.delete_of_get?_eq_none stored, SortedMap.insert_of_get? found,
        Contract.write_of_writing copy]
      exact .refl h
  · rw [Contract.change, copy, refused]
    rfl

theorem nextSequence (h : Agrees s r) {g : Handle} {k : Contract.Handle}
    (usable : matching.handle g k s r) :
    SameOutcome (fun x y => x.1 = y.1 ∧ matching.Step s r x.2 y.2 none) (File.nextSequence g s)
      (r.change k (Bucket.nextSequence .signed64)) := by
  unfold File.nextSequence
  rw [usable.1, usable.2.1]
  rcases h.handle_writes usable with
    ⟨t, c, d, runs, represents, found, writes, reads, copy⟩ | ⟨fault, copy, refused⟩
  · have listed : t.buckets.get? k.name = some d.sequence := by
      rw [represents.counters, found, Option.map_some]
    rw [writes, reads, Contract.change_of_writing copy found]
    simp only [bind, Except.bind, listed]
    exact ⟨rfl, h.change runs (represents.count found (Counting.signed64.next d.sequence))⟩
  · rw [Contract.change, copy, refused]
    rfl

theorem dump (h : Agrees s r) : File.dump s = (r.begin false).map fun _ => r.contents := by
  have same := h.begin false
  unfold File.dump
  cases begun : r.begin false with
  | error fault =>
    rw [begun] at same
    rw [same.error]
    rfl
  | ok next =>
    rw [begun] at same
    obtain ⟨⟨id, s'⟩, opened, number, agrees⟩ := same.ok
    obtain ⟨id', r'⟩ := next
    obtain ⟨_, rfl, rfl⟩ := Contract.begin_eq_ok begun
    simp only at number
    subst number
    rw [opened]
    rcases agrees.running_cases r.begun.length with ⟨b, runs⟩ | ⟨_, ended⟩
    · have seen := agrees.represents runs
      have block := runs.block
      cases block
      show (do let t ← tables r.begun.length s'; return t.contents : Except _ _) = _
      rw [runs.tables]
      exact congrArg Except.ok seen.contents_eq
    · exact absurd rfl (Contract.running_eq_error_iff.mp ended _ rfl)

theorem reopen (h : Agrees s r) (idle : r.block = none) : ∃ s', File.reopen s = (.ok (), s') ∧
    Agrees s' { r with closed := false, block := none } := by
  have unlocked : (close s).lock ≠ .exclusive := by simp [close, h.unlocked]
  refine ⟨{ close s with opening := s.opening + 1, closed := false, busy := false }, ?_, h.path, rfl,
    h.unlocked, h.committed, rfl, h.begun, fun id t found _ => ?_, ?_⟩
  · unfold File.reopen
    dsimp only
    rw [if_neg unlocked]
    rfl
  · exact h.ended_of_idle idle id t found
  · rintro b ⟨⟩

theorem close (h : Agrees s r) (idle : r.block = none) :
    Agrees (File.close s) { r with closed := true } :=
  { h with
    closed := rfl
    block := fun b block => by rw [idle] at block; cases block }

end Agrees

theorem agrees_open (path : String) : Agrees (open_ path) (.open_ path) where
  path := rfl
  closed := rfl
  unlocked := rfl
  committed := .empty
  busy := rfl
  begun := rfl
  ended := by simp [open_]
  block := by simp [Contract.open_]

theorem simulation : Simulation fileAdapter matching .signed64 where
  live _ usable := usable.2.2
  named usable := usable.2.1
  begin writable h := h.begin writable
  finish keep h block := h.finish keep block
  bucket id name h := h.bucket id name
  names id h := h.names id
  create name h current := h.create name current
  deleteBucket name h current := h.deleteBucket name current
  get key h usable := h.get usable key
  items lead h usable := h.items usable lead
  put key value h usable := h.put usable key value
  delete key h usable := h.delete usable key
  nextSequence h usable := h.nextSequence usable
  close h idle := h.close idle
  reopen h idle := h.reopen idle
  closed h := h.closed
  dump h := h.dump

/-- A view is refused for being a view before it is seen to have ended. -/
theorem refusesEndedViews : RefusesEndedViews fileAdapter matching .readOnly := by
  have refused {s : State} {r : Contract} {id : Nat} (h : Agrees s r) (ended : r.IsEndedView id) :
      writable id s = .error .readOnly := by
    have view := ended.2
    rw [h.getElem?_begun] at view
    refine if_neg fun writes => view ?_
    exact (Option.getD_eq_iff.mp writes).resolve_right fun none => nomatch none.2
  constructor
  · intro s r id name h ended named
    show File.create id name s = _
    rw [File.create, if_neg named, refused h ended]
    rfl
  · intro s r id name h ended
    show File.deleteBucket id name s = _
    rw [File.deleteBucket, refused h ended]
    rfl

end Cellstore.Store.File
