import Mathlib.Tactic.SplitIfs
import Cellstore.Proofs.Store.Contract

/-! Stores in memory do what every store does.
The copy of an update gives every bucket a number of its own. As long as a name reaches the
number, the handle that was given out for it and the name stand for the same bucket. -/
namespace Cellstore.Store.Memory

/-- The names of a copy reach the buckets of some contents, each its own. -/
structure Mirrors (k : Working) (c : Contents) : Prop where
  get? : ∀ name, c.get? name = (k.names.get? name).bind fun n => k.buckets[n]?
  bound : ∀ name n, k.names.get? name = some n → n < k.buckets.length
  distinct : ∀ name other n, k.names.get? name = some n → k.names.get? other = some n → name = other

namespace Mirrors

variable {k : Working} {c : Contents}

theorem get?_of_names (h : Mirrors k c) {name : String} {n : Nat}
    (reached : k.names.get? name = some n) : ∃ b, k.buckets[n]? = some b ∧ c.get? name = some b := by
  have bound := h.bound name n reached
  refine ⟨k.buckets[n], List.getElem?_eq_getElem bound, ?_⟩
  rw [h.get?, reached, Option.bind_some, List.getElem?_eq_getElem bound]

theorem contains_eq (h : Mirrors k c) (name : String) :
    k.names.contains name = c.contains name := by
  unfold SortedMap.contains
  cases reached : k.names.get? name with
  | none => simp [h.get?, reached]
  | some n =>
    obtain ⟨b, _, found⟩ := h.get?_of_names reached
    simp [found]

theorem keys_eq (h : Mirrors k c) : k.names.keys = c.keys := by
  refine SortedMap.eq_of_pairwise_lt k.names.keys_pairwise c.keys_pairwise fun name => ?_
  rw [SortedMap.mem_keys_iff, SortedMap.mem_keys_iff, ← SortedMap.contains_eq_true_iff,
    ← SortedMap.contains_eq_true_iff, h.contains_eq]

theorem ofContents (c : Contents) : Mirrors (.ofContents c) c := by
  have number (name : String) (n : Nat) : (Working.ofContents c).names.get? name = some n ↔
      ∃ b, c.entries[n]? = some (name, b) := by
    rw [← SortedMap.mem_entries_iff]
    simp only [Working.ofContents, List.mem_map, Prod.mk.injEq, Prod.exists]
    constructor
    · rintro ⟨name, b, n, member, rfl, rfl⟩
      exact ⟨b, List.mem_zipIdx_iff_getElem?.mp member⟩
    · rintro ⟨b, found⟩
      exact ⟨name, b, n, List.mem_zipIdx_iff_getElem?.mpr found, rfl, rfl⟩
  have bucket (n : Nat) : (Working.ofContents c).buckets[n]? = (c.entries[n]?).map (·.2) := by
    simp [Working.ofContents]
  refine ⟨fun name => ?_, fun name n reached => ?_, fun name other n here there => ?_⟩
  · cases reached : (Working.ofContents c).names.get? name with
    | none =>
      rw [Option.bind_none, SortedMap.get?_eq_none_iff]
      intro b member
      obtain ⟨n, found⟩ := List.mem_iff_getElem?.mp member
      rw [(number name n).mpr ⟨b, found⟩] at reached
      cases reached
    | some n =>
      obtain ⟨b, found⟩ := (number name n).mp reached
      rw [Option.bind_some, bucket, found]
      exact SortedMap.mem_entries_iff.mp (List.mem_of_getElem? found)
  · obtain ⟨b, found⟩ := (number name n).mp reached
    have bound := (List.getElem?_eq_some_iff.mp found).1
    simpa [Working.ofContents] using bound
  · obtain ⟨b, found⟩ := (number name n).mp here
    obtain ⟨d, again⟩ := (number other n).mp there
    rw [found, Option.some.injEq, Prod.mk.injEq] at again
    exact again.1

private theorem get?_foldl_contents (buckets : List Bucket) {entries : List (String × Nat)}
    (distinct : entries.Pairwise fun d e => d.1 ≠ e.1) (acc : Contents) (name : String) :
    (entries.foldl (fun c e => match buckets[e.2]? with
        | some b => c.insert e.1 b
        | none => c) acc).get? name =
      ((entries.find? (SortedMap.hasKey name)).bind fun e => buckets[e.2]?).or (acc.get? name) := by
  induction entries generalizing acc with
  | nil => rfl
  | cons e entries ih =>
    obtain ⟨apart, distinct⟩ := List.pairwise_cons.mp distinct
    rw [List.foldl_cons, ih distinct]
    by_cases here : e.1 = name
    · have once : entries.find? (SortedMap.hasKey name) = none := by
        rw [List.find?_eq_none]
        exact fun d member hit => apart d member (here.trans (SortedMap.hasKey_iff.mp hit).symm)
      rw [once, List.find?_cons_of_pos (SortedMap.hasKey_iff.mpr here)]
      cases found : buckets[e.2]? <;> simp [found, here]
    · rw [List.find?_cons_of_neg fun hit => here (SortedMap.hasKey_iff.mp hit)]
      cases buckets[e.2]? with
      | none => rfl
      | some b => rw [SortedMap.get?_insert_of_ne acc b here]

theorem contents_eq (h : Mirrors k c) : k.contents = c := by
  apply SortedMap.ext_get?
  intro name
  have distinct : k.names.entries.Pairwise fun d e => d.1 ≠ e.1 :=
    k.names.ascending.imp KeyOrder.ne_of_lt
  refine (get?_foldl_contents k.buckets distinct .empty name).trans ?_
  have found : k.names.get? name =
      (k.names.entries.find? (SortedMap.hasKey name)).map (·.2) := rfl
  rw [h.get? name, found, SortedMap.get?_empty, Option.or_none]
  cases k.names.entries.find? (SortedMap.hasKey name) <;> rfl

theorem create (h : Mirrors k c) (name : String) :
    Mirrors ⟨k.names.insert name k.buckets.length, k.buckets ++ [Bucket.empty]⟩
      (c.insert name .empty) := by
  have older {other : String} {n : Nat} (reached : k.names.get? other = some n) :
      (k.buckets ++ [Bucket.empty])[n]? = k.buckets[n]? :=
    List.getElem?_append_left (h.bound other n reached)
  refine ⟨fun other => ?_, fun other n reached => ?_, fun first second n one two => ?_⟩
  · rw [SortedMap.get?_insert, SortedMap.get?_insert]
    split_ifs with here
    · simp
    · rw [h.get? other]
      cases reached : k.names.get? other with
      | none => rfl
      | some n => simp only [Option.bind_some, older reached]
  · rw [SortedMap.get?_insert] at reached
    rw [List.length_append, List.length_singleton]
    split_ifs at reached
    · cases reached
      omega
    · exact Nat.lt_succ_of_lt (h.bound other n reached)
  · rw [SortedMap.get?_insert] at one two
    split_ifs at one two with here there there
    · exact here.symm.trans there
    · cases one
      exact absurd (h.bound second _ two) (Nat.lt_irrefl _)
    · cases two
      exact absurd (h.bound first _ one) (Nat.lt_irrefl _)
    · exact h.distinct first second n one two

theorem erase (h : Mirrors k c) (name : String) :
    Mirrors { k with names := k.names.erase name } (c.erase name) := by
  refine ⟨fun other => ?_, fun other n reached => ?_, fun first second n one two => ?_⟩
  · rw [SortedMap.get?_erase, SortedMap.get?_erase, h.get? other]
    split_ifs <;> rfl
  · rw [SortedMap.get?_erase] at reached
    split_ifs at reached
    exact h.bound other n reached
  · rw [SortedMap.get?_erase] at one two
    split_ifs at one two
    exact h.distinct first second n one two

theorem set (h : Mirrors k c) {name : String} {n : Nat} (reached : k.names.get? name = some n)
    (b : Bucket) : Mirrors { k with buckets := k.buckets.set n b } (c.insert name b) := by
  refine ⟨fun other => ?_, fun other m there => ?_, h.distinct⟩
  · rw [SortedMap.get?_insert]
    split_ifs with here
    · subst here
      rw [reached, Option.bind_some, List.getElem?_set_self (h.bound name n reached)]
    · rw [h.get? other]
      cases there : k.names.get? other with
      | none => rfl
      | some m =>
        have apart : n ≠ m := fun same => here (h.distinct name other n reached (same ▸ there))
        rw [Option.bind_some, Option.bind_some, List.getElem?_set_ne apart]
  · rw [List.length_set]
    exact h.bound other m there

end Mirrors

/-- The store agrees with the contract. Of its transactions only the one of the running block
is active, and works on a copy that mirrors the copy of the block. -/
structure Agrees (s : State) (r : Contract) : Prop where
  path : s.path = r.path
  contents : s.contents = r.contents
  closed : s.closed = r.closed
  busy : s.busy = r.block.isSome
  count : s.transactions.length = r.begun.length
  ended : ∀ id t, s.transactions[id]? = some t → (∀ b, r.block = some b → b.id ≠ id) →
    t.active = false
  block : ∀ b, r.block = some b → ∃ t, s.transactions[b.id]? = some t ∧ t.active = true ∧
    t.opening = s.opening ∧ Option.Rel Mirrors t.working b.copy

/-- What a handle stands for: a number that the name still reaches, or a bucket as a view found
it. -/
inductive Reaches (s : State) (t : Transaction) (name : String) : Target → Prop
  | number {w : Working} {n : Nat} (working : t.working = some w)
    (reached : w.names.get? name = some n) : Reaches s t name (.number n)
  | snapshot {d : Bucket} (viewing : t.working = none) (found : s.contents.get? name = some d) :
    Reaches s t name (.snapshot d)

def matching : Matching State Handle where
  state := Agrees
  handle h k s r := h.transaction = k.transaction ∧ h.name = k.name ∧ ∃ b t, r.block = some b ∧
    b.id = k.transaction ∧ s.transactions[k.transaction]? = some t ∧ Reaches s t k.name h.target

/-- Two sides of one running transaction. -/
structure Runs (s : State) (r : Contract) (id : Nat) (t : Transaction) (b : Block) : Prop where
  transaction : s.transactions[id]? = some t
  active : t.active = true
  opening : t.opening = s.opening
  block : r.block = some b
  number : b.id = id
  working : Option.Rel Mirrors t.working b.copy

namespace Runs

variable {s : State} {r : Contract} {id : Nat} {t : Transaction} {b : Block}

theorem running (h : Runs s r id t b) : Memory.running id s = .ok t := by
  rw [Memory.running, h.transaction]
  exact if_pos h.active

theorem running_contract (h : Runs s r id t b) : r.running id = .ok b := by
  rw [Contract.running, h.block]
  exact if_pos h.number

end Runs

namespace Agrees

variable {s : State} {r : Contract} {id : Nat}

theorem running_cases (h : Agrees s r) (id : Nat) : (∃ t b, Runs s r id t b) ∨
    (Memory.running id s = .error .finished ∧ r.running id = .error .finished) := by
  by_cases here : ∃ b, r.block = some b ∧ b.id = id
  · obtain ⟨b, block, rfl⟩ := here
    obtain ⟨t, found, active, opening, working⟩ := h.block b block
    exact Or.inl ⟨t, b, found, active, opening, block, rfl, working⟩
  · refine Or.inr ⟨?_, ?_⟩
    · unfold Memory.running
      split
      · rename_i t found
        have ended := h.ended id t found fun b block same => here ⟨b, block, same⟩
        rw [ended]
        rfl
      · rfl
    · unfold Contract.running
      split
      · rename_i b block
        exact if_neg fun same => here ⟨b, block, same⟩
      · rfl

theorem setWorking (h : Agrees s r) {t : Transaction} {b : Block} (runs : Runs s r id t b)
    {w : Working} {c : Contents} (mirrors : Mirrors w c) :
    Agrees (setWorking id t w s) (r.write id c) ∧
      Runs (Memory.setWorking id t w s) (r.write id c) id { t with working := some w }
        ⟨id, some c⟩ := by
  have bound : id < s.transactions.length := (List.getElem?_eq_some_iff.mp runs.transaction).1
  have here : (Memory.setWorking id t w s).transactions[id]? = some { t with working := some w } :=
    List.getElem?_set_self bound
  have runs' : Runs (Memory.setWorking id t w s) (r.write id c) id { t with working := some w }
      ⟨id, some c⟩ :=
    ⟨here, runs.active, runs.opening, rfl, rfl, .some mirrors⟩
  refine ⟨⟨h.path, h.contents, h.closed, ?_, ?_, fun other u found apart => ?_, ?_⟩, runs'⟩
  · show s.busy = true
    rw [h.busy, runs.block]
    rfl
  · exact (List.length_set ..).trans h.count
  · have different : id ≠ other := apart _ rfl
    refine h.ended other u ?_ fun d block same => ?_
    · rw [← found]
      exact (List.getElem?_set_ne different).symm
    · rw [runs.block, Option.some.injEq] at block
      rw [← block, runs.number] at same
      exact different same
  · rintro d ⟨⟩
    exact ⟨_, here, runs.active, runs.opening, .some mirrors⟩

theorem writing_cases (h : Agrees s r) (id : Nat) :
    (∃ t w c, Runs s r id t ⟨id, some c⟩ ∧ t.working = some w ∧ Mirrors w c ∧
      writing id s = .ok (t, w) ∧ r.writing id = .ok c) ∨
    ∃ fault, writing id s = .error fault ∧ r.writing id = .error fault := by
  rcases h.running_cases id with ⟨t, b, runs⟩ | ⟨memory, contract⟩
  · have working := runs.working
    have number := runs.number
    obtain ⟨_, copy⟩ := b
    simp only at number working
    subst number
    unfold writing Contract.writing
    rw [runs.running, runs.running_contract]
    cases here : t.working <;> cases copy <;> rw [here] at working <;> cases working
    · exact Or.inr ⟨.readOnly, by simp [bind, Except.bind, here]; rfl, rfl⟩
    · rename_i w c mirrors
      exact Or.inl ⟨t, w, c, runs, here, mirrors, by simp [bind, Except.bind, here]; rfl, rfl⟩
  · refine Or.inr ⟨.finished, ?_, ?_⟩
    · rw [writing, memory]
      rfl
    · rw [Contract.writing, contract]

/-- Handles keep standing for their buckets as long as their names keep their numbers. -/
theorem step (h : Agrees s r) {t : Transaction} {w v : Working} {c d : Contents}
    (runs : Runs s r id t ⟨id, some c⟩) (working : t.working = some w) (mirrors : Mirrors v d)
    {removed : Option String} (kept : ∀ name n, removed ≠ some name →
      w.names.get? name = some n → v.names.get? name = some n) :
    matching.Step s r (Memory.setWorking id t v s) (r.write id d) removed := by
  obtain ⟨agrees, runs'⟩ := h.setWorking runs mirrors
  refine ⟨agrees, ?_⟩
  rintro g j other ⟨transaction, name, b, u, block, number, found, reaches⟩
  rw [runs.block, Option.some.injEq] at block
  subst block
  simp only at number
  subst number
  rw [runs.transaction, Option.some.injEq] at found
  subst found
  refine ⟨transaction, name, _, _, runs'.block, rfl, runs'.transaction, ?_⟩
  generalize g.target = target at reaches
  cases reaches with
  | number old reached =>
    rw [working, Option.some.injEq] at old
    subst old
    exact .number rfl (kept _ _ other reached)
  | snapshot viewing =>
    rw [working] at viewing
    cases viewing

theorem handle_runs (h : Agrees s r) {g : Handle} {k : Contract.Handle}
    (usable : matching.handle g k s r) :
    ∃ t b, Runs s r k.transaction t b ∧ Reaches s t k.name g.target := by
  obtain ⟨_, _, b, t, block, number, found, reaches⟩ := usable
  rcases h.running_cases k.transaction with ⟨u, d, runs⟩ | ⟨_, ended⟩
  · have same := runs.transaction
    rw [found, Option.some.injEq] at same
    exact ⟨u, d, runs, same ▸ reaches⟩
  · rw [Contract.running, block] at ended
    simp [number] at ended

theorem content_spec (h : Agrees s r) {g : Handle} {k : Contract.Handle}
    (usable : matching.handle g k s r) : ∃ d, content g s = .ok d ∧ r.content k = .ok d ∧
      ∃ b, r.block = some b ∧ b.id = k.transaction ∧
        (b.copy.getD r.contents).get? k.name = some d := by
  obtain ⟨t, b, runs, reaches⟩ := h.handle_runs usable
  have working := runs.working
  have found : ∃ d, content g s = .ok d ∧ (b.copy.getD r.contents).get? k.name = some d := by
    have same : g.transaction = k.transaction := usable.1
    unfold content
    rw [same, runs.running]
    generalize g.target = target at reaches
    cases reaches with
    | number copy reached =>
      rw [copy] at working
      cases here : b.copy <;> rw [here] at working <;> cases working
      rename_i mirrors
      obtain ⟨d, stored, named⟩ := mirrors.get?_of_names reached
      exact ⟨d, by simp [bind, Except.bind, copy, stored]; rfl, named⟩
    | snapshot viewing found =>
      rw [viewing] at working
      cases here : b.copy <;> rw [here] at working <;> cases working
      exact ⟨_, rfl, h.contents ▸ found⟩
  obtain ⟨d, memory, named⟩ := found
  refine ⟨d, memory, ?_, b, runs.block, runs.number, named⟩
  rw [Contract.content, Contract.visible, runs.running_contract]
  simp [Except.map, named]

theorem change (h : Agrees s r) {α : Type} {g : Handle} {k : Contract.Handle}
    (usable : matching.handle g k s r) (f : Bucket → α × Bucket) :
    SameOutcome (fun x y => x.1 = y.1 ∧ matching.Step s r x.2 y.2 none)
      (Memory.change g f s) (r.change k f) := by
  obtain ⟨d, memory, _, b, block, _, named⟩ := h.content_spec usable
  obtain ⟨t', b', runs', reaches⟩ := h.handle_runs usable
  have same : g.transaction = k.transaction := usable.1
  unfold Memory.change Contract.change
  rw [same]
  rcases h.writing_cases k.transaction with ⟨t, w, c, runs, working, mirrors, copy, writes⟩ |
    ⟨fault, copy, writes⟩
  · have here := runs.transaction
    rw [runs'.transaction, Option.some.injEq] at here
    subst here
    rw [runs.block, Option.some.injEq] at block
    subst block
    simp only [Option.getD_some] at named
    rw [copy, writes]
    generalize g.target = target at reaches
    cases reaches with
    | number old reached =>
      rw [working, Option.some.injEq] at old
      subst old
      simp only [bind, Except.bind, memory, Except.map, named, Option.getD_some]
      exact ⟨rfl, h.step runs working (mirrors.set reached _) fun _ _ _ kept => kept⟩
    | snapshot viewing =>
      rw [working] at viewing
      cases viewing
  · rw [copy, writes]
    rfl

end Agrees

theorem agrees_open (path : String) : Agrees (open_ path) (.open_ path) where
  path := rfl
  contents := rfl
  closed := rfl
  busy := rfl
  count := rfl
  ended := by simp [open_]
  block := by simp [Contract.open_]

namespace Agrees

variable {s : State} {r : Contract}

theorem ended_of_idle (h : Agrees s r) (idle : r.block = none) (id : Nat) (t : Transaction)
    (found : s.transactions[id]? = some t) : t.active = false := by
  refine h.ended id t found fun b block => ?_
  rw [idle] at block
  cases block

theorem begin (h : Agrees s r) (writable : Bool) :
    SameOutcome (fun x y => x.1 = y.1 ∧ Agrees x.2 y.2) (Memory.begin writable s)
      (r.begin writable) := by
  unfold Memory.begin Contract.begin
  rw [← h.closed, ← h.busy, ← h.path]
  by_cases closed : s.closed = true
  · rw [if_pos closed, if_pos closed]
    rfl
  by_cases busy : s.busy = true
  · rw [if_neg closed, if_neg closed, if_pos busy, if_pos busy]
    rfl
  rw [if_neg closed, if_neg closed, if_neg busy, if_neg busy]
  have idle : r.block = none := by simpa [h.busy] using busy
  refine ⟨h.count, rfl, h.contents, rfl, rfl, ?_, fun id t found apart => ?_, ?_⟩
  · simp [h.count]
  · have next : s.transactions.length ≠ id := h.count ▸ apart _ rfl
    exact ended_of_append (·.active = false) (h.ended_of_idle idle) found next
  · rintro b ⟨⟩
    refine ⟨⟨s.opening, if writable then some (.ofContents s.contents) else none, true⟩, ?_, rfl,
      rfl, ?_⟩
    · rw [← h.count]
      simp
    · rw [h.contents]
      cases writable
      · exact .none
      · exact .some (.ofContents _)

theorem finish (h : Agrees s r) {b : Block} (keep : Bool) (block : r.block = some b) :
    ∃ s', Memory.finish b.id keep s = (.ok (), s') ∧ Agrees s' (r.settle b keep) := by
  obtain ⟨t, found, active, opening, working⟩ := h.block b block
  refine ⟨{ s with
    contents := (r.settle b keep).contents
    busy := s.busy && t.opening != s.opening
    transactions := s.transactions.set b.id { t with active := false } }, ?_, h.path, rfl, h.closed,
    ?_, (List.length_set ..).trans h.count, fun id u there _ => ?_, ?_⟩
  · rw [Memory.finish, found, Contract.settle]
    cases here : t.working <;> cases copy : b.copy <;> rw [here, copy] at working <;> cases working
    · simp [h.contents, here]
    · rename_i mirrors
      simp [h.contents, here, mirrors.contents_eq]
  · simp [Contract.settle, opening]
  · refine ended_of_set (·.active = false) (fun id u older apart => ?_) rfl there
    refine h.ended id u older fun d same => ?_
    rw [block, Option.some.injEq] at same
    exact same ▸ apart
  · rintro d ⟨⟩

theorem bucket (h : Agrees s r) (id : Nat) (name : String) :
    SameOutcome (Option.Rel fun g k => matching.handle g k s r) (Memory.bucket id name s)
      (r.bucket id name) := by
  unfold Memory.bucket Contract.bucket Contract.visible
  rcases h.running_cases id with ⟨t, b, runs⟩ | ⟨memory, contract⟩
  · have working := runs.working
    rw [runs.running, runs.running_contract]
    simp only [bind, Except.bind, Except.map]
    cases here : t.working <;> cases copy : b.copy <;> rw [here, copy] at working <;>
      cases working
    · simp only [Option.getD_none, SortedMap.contains, ← h.contents]
      cases found : s.contents.get? name with
      | none => exact .none
      | some d =>
        exact .some ⟨rfl, rfl, b, t, runs.block, runs.number, runs.transaction,
          .snapshot here found⟩
    · rename_i w c mirrors
      rw [Option.getD_some, ← mirrors.contains_eq, SortedMap.contains]
      dsimp only
      cases reached : w.names.get? name with
      | none => exact .none
      | some n =>
        exact .some ⟨rfl, rfl, b, t, runs.block, runs.number, runs.transaction,
          .number here reached⟩
  · rw [memory, contract]
    rfl

theorem names (h : Agrees s r) (id : Nat) : Memory.names id s = r.names id := by
  unfold Memory.names Contract.names Contract.visible
  rcases h.running_cases id with ⟨t, b, runs⟩ | ⟨memory, contract⟩
  · have working := runs.working
    rw [runs.running, runs.running_contract]
    simp only [bind, Except.bind, Except.map]
    cases here : t.working <;> cases copy : b.copy <;> rw [here, copy] at working <;>
      cases working
    · simp [h.contents]
      rfl
    · rename_i mirrors
      simp [mirrors.keys_eq]
      rfl
  · rw [memory, contract]
    rfl

theorem create (h : Agrees s r) (id : Nat) (name : String) :
    SameOutcome (fun x y => matching.handle x.1 y.1 x.2 y.2 ∧ matching.Step s r x.2 y.2 none)
      (Memory.create id name s) (r.create id name) := by
  unfold Memory.create Contract.create
  split_ifs with unnamed
  · rfl
  · rcases h.writing_cases id with ⟨t, w, c, runs, working, mirrors, copy, writes⟩ |
      ⟨fault, copy, writes⟩
    · rw [copy, writes]
      simp only [bind, Except.bind, Except.map]
      cases reached : w.names.get? name with
      | some n =>
        obtain ⟨d, _, found⟩ := mirrors.get?_of_names reached
        rw [found, Option.getD_some, SortedMap.insert_of_get? found,
          Contract.write_of_writing writes]
        exact ⟨⟨rfl, rfl, _, t, runs.block, rfl, runs.transaction, .number working reached⟩, h,
          fun _ _ _ usable => usable⟩
      | none =>
        have missing : c.get? name = none := by rw [mirrors.get?, reached, Option.bind_none]
        have added := mirrors.create name
        obtain ⟨_, runs'⟩ := h.setWorking runs added
        rw [missing, Option.getD_none]
        refine ⟨⟨rfl, rfl, _, _, runs'.block, rfl, runs'.transaction,
          .number rfl (SortedMap.get?_insert_self ..)⟩, ?_⟩
        refine h.step runs working added fun other n _ older => ?_
        rw [SortedMap.get?_insert_of_ne _ _ fun same => ?_]
        · exact older
        · rw [← same, reached] at older
          cases older
    · rw [copy, writes]
      rfl

theorem deleteBucket (h : Agrees s r) (id : Nat) (name : String) :
    SameOutcome (fun s' r' => matching.Step s r s' r' (some name))
      (Memory.deleteBucket id name s) (r.deleteBucket id name) := by
  unfold Memory.deleteBucket Contract.deleteBucket
  rcases h.writing_cases id with ⟨t, w, c, runs, working, mirrors, copy, writes⟩ |
    ⟨fault, copy, writes⟩
  · rw [copy, writes]
    simp only [bind, Except.bind, mirrors.contains_eq]
    split_ifs
    · refine h.step runs working (mirrors.erase name) fun other n different reached => ?_
      rw [SortedMap.get?_erase_of_ne _ fun same => different (congrArg some same)]
      exact reached
    · rfl
  · rw [copy, writes]
    rfl

end Agrees

theorem simulation : Simulation memoryAdapter matching .endless where
  live h usable := by
    obtain ⟨d, _, _, b, block, number, named⟩ := h.content_spec usable
    exact ⟨b, block, number, SortedMap.contains_eq_true_iff.mpr ⟨d, named⟩⟩
  named usable := usable.2.1
  begin writable h := h.begin writable
  finish keep h block := h.finish keep block
  bucket id name h := h.bucket id name
  names id h := h.names id
  create name h _ := h.create _ name
  deleteBucket name h _ := h.deleteBucket _ name
  get key h usable := by
    obtain ⟨d, memory, contract, _⟩ := h.content_spec usable
    show (content _ _).map _ = _
    rw [memory, contract]
  items lead h usable := by
    obtain ⟨d, memory, contract, _⟩ := h.content_spec usable
    show (content _ _).map _ = _
    rw [memory, contract]
  put key value h usable := (h.change usable fun b => ((), b.put key value)).map fun _ _ => And.right
  delete key h usable := (h.change usable fun b => ((), b.delete key)).map fun _ _ => And.right
  nextSequence h usable := h.change usable (Bucket.nextSequence .endless)
  close h idle := { h with closed := rfl }
  reopen h idle := by
    refine ⟨_, rfl, h.path, h.contents, rfl, rfl, h.count, fun id t found _ => ?_, ?_⟩
    · exact h.ended_of_idle idle id t found
    · rintro b ⟨⟩
  closed h := h.closed
  dump {s r} h := by
    have same := h.begin false
    show (do let _ ← begin false s; return s.contents : Except StoreFault Contents) = _
    cases begun : r.begin false with
    | error fault =>
      rw [begun] at same
      rw [same.error]
      rfl
    | ok next =>
      rw [begun] at same
      obtain ⟨x, opened, _⟩ := same.ok
      rw [opened]
      exact congrArg Except.ok h.contents

theorem refusesEndedViews : RefusesEndedViews memoryAdapter matching .finished := by
  have refused {s : State} {r : Contract} {id : Nat} (h : Agrees s r) (ended : r.IsEndedView id) :
      writing id s = .error .finished := by
    rcases h.running_cases id with ⟨t, b, runs⟩ | ⟨memory, _⟩
    · have runs := runs.running_contract
      rw [ended.1] at runs
      cases runs
    · rw [writing, memory]
      rfl
  constructor
  · intro s r id name h ended named
    show Memory.create id name s = _
    rw [Memory.create, if_neg named, refused h ended]
    rfl
  · intro s r id name h ended
    show Memory.deleteBucket id name s = _
    rw [Memory.deleteBucket, refused h ended]
    rfl

end Cellstore.Store.Memory
