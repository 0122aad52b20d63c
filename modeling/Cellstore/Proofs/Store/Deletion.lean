import Cellstore.Proofs.Store.Usage

/-! What deleted buckets leave behind.
It comes down to what single calls of a store do. In memory an old handle still writes after the
deletion, but to a bucket that no name reaches any more, so nothing stays. -/
namespace Cellstore.Store

section
variable {σ η : Type} (a : Adapter σ η)

def after (s : Labelled σ η) : List Operation → Labelled σ η
  | [] => s
  | op :: rest => after (perform a s op).2 rest

def along (s : Labelled σ η) : List Operation → List (Labelled σ η × Operation)
  | [] => []
  | op :: rest => (s, op) :: along (perform a s op).2 rest

/-- What is stored belongs to a listed bucket, a deleted bucket is not listed, and one that is not
listed begins without entries and counts from one. -/
structure LeavesNothing (stored : σ → String → Bytes → Option Bytes) (s : Labelled σ η) : Prop where
  listed : ∀ tx name key value names, stored s.store name key = some value →
    performAll a s [.begin false tx, .names tx] = [.ok (.flag false), .ok (.names names)] →
    name ∈ names
  deleted : ∀ tx name reply, (perform a s (.deleteBucket tx name)).1 = .ok reply →
    ∃ names, performAll a s [.deleteBucket tx name, .names tx] =
      [.ok .done, .ok (.names names)] ∧ name ∉ names
  created : ∀ tx label name names reply lead, (perform a s (.names tx)).1 = .ok (.names names) →
    name ∉ names → (perform a s (.create tx label name)).1 = .ok reply →
    performAll a s [.create tx label name, .items label lead, .nextSequence label] =
      [.ok (.bucket (some name)), .ok (.entries []), .ok (.count 1)]

variable {a} {s s' : Labelled σ η} {op : Operation}

theorem ok_of_perform {reply : Reply} (plain : op.isPlain = true)
    (done : (perform a s op).1 = .ok reply) : ∃ s', attempt a s op = .ok (reply, s') := by
  cases attempted : attempt a s op with
  | error fault =>
    rw [perform_error plain attempted] at done
    cases done
  | ok result =>
    rw [perform_ok plain attempted] at done
    cases done
    exact ⟨result.2, rfl⟩

theorem performAll_cons (s : Labelled σ η) (op : Operation) (rest : List Operation) :
    performAll a s (op :: rest) = (perform a s op).1 :: performAll a (perform a s op).2 rest := rfl

theorem performAll_cons_of_ok {reply : Reply} (plain : op.isPlain = true)
    (done : attempt a s op = .ok (reply, s')) (rest : List Operation) :
    performAll a s (op :: rest) = .ok reply :: performAll a s' rest := by
  rw [performAll_cons, perform_ok plain done]

private theorem names_of_perform {tx : String} {names : List String}
    (done : (perform a s (.names tx)).1 = .ok (.names names)) :
    ∃ id, s.transaction tx = .ok id ∧ a.names id s.store = .ok names := by
  obtain ⟨s', attempted⟩ := ok_of_perform rfl done
  obtain ⟨id, found, attempted⟩ := bind_eq_ok_iff.mp attempted
  obtain ⟨names, listed, same⟩ := bind_eq_ok_iff.mp attempted
  cases same
  exact ⟨id, found, listed⟩

theorem onHandle_of_some {label : String} {h : η} (given : s.handle? label = some h)
    (f : η → Except StoreFault (Reply × σ)) :
    onHandle s label f = (f h).map fun r => (r.1, s.withStore r.2) := by
  rw [onHandle, given]

/-- It is enough to know what single calls do. -/
theorem leavesNothing_of_calls {stored : σ → String → Bytes → Option Bytes}
    (listed : ∀ id next names name key value, a.begin false s.store = .ok (id, next) →
      a.names id next = .ok names → stored s.store name key = some value → name ∈ names)
    (deleted : ∀ id name next, a.deleteBucket id name s.store = .ok next →
      ∃ names, a.names id next = .ok names ∧ name ∉ names)
    (created : ∀ id name names h next, a.names id s.store = .ok names → name ∉ names →
      a.create id name s.store = .ok (h, next) → a.nameOf h = name ∧
      (∀ lead, a.items h lead next = .ok []) ∧ ∃ last, a.nextSequence h next = .ok (1, last)) :
    LeavesNothing a stored s := by
  constructor
  · intro tx name key value names kept replies
    rw [performAll_cons, performAll_cons, List.cons.injEq, List.cons.injEq] at replies
    obtain ⟨begun, seen, -⟩ := replies
    obtain ⟨s', attempted⟩ := ok_of_perform rfl begun
    rw [perform_ok rfl attempted] at seen
    obtain ⟨⟨id, next⟩, began, same⟩ := bind_eq_ok_iff.mp attempted
    cases same
    obtain ⟨other, found, seen⟩ := names_of_perform seen
    have this : other = id := by
      unfold Labelled.transaction at found
      rw [List.lookup_cons_self] at found
      exact (Except.ok.inj found).symm
    subst this
    exact listed other next names name key value began seen kept
  · intro tx name reply done
    obtain ⟨s', attempted⟩ := ok_of_perform rfl done
    obtain ⟨id, found, attempted⟩ := bind_eq_ok_iff.mp attempted
    obtain ⟨next, removed, same⟩ := bind_eq_ok_iff.mp attempted
    obtain ⟨names, seen, absent⟩ := deleted id name next removed
    refine ⟨names, ?_, absent⟩
    have first : attempt a s (.deleteBucket tx name) = .ok (.done, s.withStore next) := by
      rw [attempt, found]
      show a.deleteBucket id name s.store >>= _ = _
      rw [removed]
      rfl
    have second : attempt a (s.withStore next) (.names tx) = .ok (.names names, s.withStore next) := by
      rw [attempt, show (s.withStore next).transaction tx = .ok id from found]
      show a.names id next >>= _ = _
      rw [seen]
      rfl
    rw [performAll_cons_of_ok rfl first, performAll_cons_of_ok rfl second, performAll]
  · intro tx label name names reply lead seen absent done
    obtain ⟨id, found, seen⟩ := names_of_perform seen
    obtain ⟨s', attempted⟩ := ok_of_perform rfl done
    obtain ⟨other, again, attempted⟩ := bind_eq_ok_iff.mp attempted
    cases found.symm.trans again
    obtain ⟨⟨h, next⟩, made, same⟩ := bind_eq_ok_iff.mp attempted
    obtain ⟨named, empty, last, counted⟩ := created id name names h next seen absent made
    let s₁ := (s.withStore next).withHandle label (some h)
    have given : s₁.handle? label = some h := by
      rw [Labelled.handle?_withHandle, if_pos rfl]
    have first : attempt a s (.create tx label name) = .ok (.bucket (some name), s₁) := by
      rw [attempt, found]
      show a.create id name s.store >>= _ = _
      rw [made, ← named]
      rfl
    have second : attempt a s₁ (.items label lead) = .ok (.entries [], s₁) := by
      rw [attempt, onHandle_of_some given]
      show Except.map _ (a.items h lead next >>= _) = _
      rw [empty]
      rfl
    have third : attempt a s₁ (.nextSequence label) = .ok (.count 1, s₁.withStore last) := by
      rw [attempt, onHandle_of_some given]
      show Except.map _ (a.nextSequence h next >>= _) = _
      rw [counted]
      rfl
    rw [performAll_cons_of_ok rfl first, performAll_cons_of_ok rfl second,
      performAll_cons_of_ok rfl third, performAll]

end

namespace Memory

def stored (s : State) (name : String) (key : Bytes) : Option Bytes :=
  (s.contents.get? name).bind (·.get? key)

variable {s s' : State} {id : Nat} {t : Transaction} {w : Working} {name : String}

theorem running_of_writing (writes : writing id s = .ok (t, w)) :
    running id s = .ok t ∧ t.working = some w := by
  obtain ⟨u, runs, rest⟩ := bind_eq_ok_iff.mp writes
  cases copy : u.working with
  | none =>
    rw [copy] at rest
    cases rest
  | some v =>
    rw [copy] at rest
    cases rest
    exact ⟨runs, copy⟩

theorem running_setWorking (runs : running id s = .ok t) (w : Working) :
    running id (setWorking id t w s) = .ok { t with working := some w } := by
  unfold running at runs ⊢
  cases found : s.transactions[id]? with
  | none =>
    rw [found] at runs
    cases runs
  | some u =>
    simp only [found] at runs
    split_ifs at runs with active
    cases runs
    have inside : id < s.transactions.length := (List.getElem?_eq_some_iff.mp found).1
    simp [setWorking, inside, active]

theorem names_of_writing (writes : writing id s = .ok (t, w)) : names id s = .ok w.names.keys := by
  obtain ⟨runs, copy⟩ := running_of_writing writes
  unfold names
  rw [runs]
  simp only [bind, Except.bind, copy]
  rfl

theorem writing_setWorking (runs : running id s = .ok t) (w : Working) :
    writing id (setWorking id t w s) = .ok ({ t with working := some w }, w) := by
  rw [writing, running_setWorking runs]
  rfl

theorem not_mem_of_deleteBucket (deleted : deleteBucket id name s = .ok s') :
    ∃ left, names id s' = .ok left ∧ name ∉ left := by
  obtain ⟨⟨t, w⟩, writes, rest⟩ := bind_eq_ok_iff.mp deleted
  dsimp only at rest
  split_ifs at rest
  cases rest
  have next := writing_setWorking (running_of_writing writes).1 { w with names := w.names.erase name }
  refine ⟨_, names_of_writing next, ?_⟩
  rw [SortedMap.mem_keys_iff]
  rintro ⟨n, found⟩
  rw [SortedMap.get?_erase_self] at found
  cases found

theorem create_inv {h : Handle} (made : create id name s = .ok (h, s')) :
    ∃ t k, writing id s = .ok (t, k) ∧ name ≠ "" ∧
      ((∃ n, k.names.get? name = some n ∧ h = ⟨id, name, .number n⟩ ∧ s' = s) ∨
        (k.names.get? name = none ∧ h = ⟨id, name, .number k.buckets.length⟩ ∧ s' = setWorking id t
          ⟨k.names.insert name k.buckets.length, k.buckets ++ [Bucket.empty]⟩ s)) := by
  unfold create at made
  by_cases unnamed : name = ""
  · rw [if_pos unnamed] at made
    cases made
  rw [if_neg unnamed] at made
  obtain ⟨⟨t, k⟩, writes, made⟩ := (bind_eq_ok_iff (x := writing id s)).mp made
  refine ⟨t, k, writes, unnamed, ?_⟩
  cases reached : k.names.get? name with
  | none =>
    simp only [reached] at made
    cases made
    exact .inr ⟨rfl, rfl, rfl⟩
  | some n =>
    simp only [reached] at made
    cases made
    exact .inl ⟨n, rfl, rfl, rfl⟩

theorem create_of_absent {h : Handle} {listed : List String} (seen : names id s = .ok listed)
    (absent : name ∉ listed) (made : create id name s = .ok (h, s')) :
    ∃ (t : Transaction) (w : Working), running id s = .ok t ∧ h = ⟨id, name, .number w.buckets.length⟩ ∧
      s' = setWorking id t ⟨w.names.insert name w.buckets.length, w.buckets ++ [.empty]⟩ s := by
  obtain ⟨t, w, writes, -, made⟩ := create_inv made
  have keys : listed = w.names.keys := Except.ok.inj (seen.symm.trans (names_of_writing writes))
  have missing : w.names.get? name = none := by
    rw [keys, SortedMap.mem_keys_iff] at absent
    exact Option.eq_none_iff_forall_ne_some.mpr fun n found => absent ⟨n, found⟩
  rcases made with ⟨n, found, -, -⟩ | ⟨-, rfl, rfl⟩
  · rw [missing] at found
    cases found
  · exact ⟨t, w, (running_of_writing writes).1, rfl, rfl⟩

theorem content_of_number {n : Nat} (writes : writing id s = .ok (t, w)) :
    content ⟨id, name, .number n⟩ s = .ok ((w.buckets[n]?).getD .empty) := by
  obtain ⟨runs, copy⟩ := running_of_writing writes
  unfold content
  rw [runs]
  simp only [bind, Except.bind, copy]
  rfl

theorem change_of_number {α : Type} {n : Nat} (name : String) (writes : writing id s = .ok (t, w))
    (f : Bucket → α × Bucket) :
    ∃ s', change ⟨id, name, .number n⟩ f s = .ok ((f ((w.buckets[n]?).getD .empty)).1, s') := by
  unfold change
  rw [content_of_number writes]
  simp only [writes, bind, Except.bind]
  exact ⟨_, rfl⟩

theorem names_of_begin {next : State} {listed : List String} (began : begin false s = .ok (id, next))
    (seen : names id next = .ok listed) : listed = s.contents.keys := by
  unfold begin at began
  simp only [Bool.false_eq_true, if_false] at began
  split_ifs at began
  cases began
  have runs : running s.transactions.length
      { s with busy := true, transactions := s.transactions ++ [⟨s.opening, none, true⟩] } =
      .ok ⟨s.opening, none, true⟩ := by
    rw [running, List.getElem?_concat_length]
    rfl
  unfold names at seen
  rw [runs] at seen
  exact (Except.ok.inj seen).symm

theorem leavesNothing (s : Labelled State Handle) : LeavesNothing memoryAdapter stored s := by
  apply leavesNothing_of_calls
  · intro id next listed name key value began seen kept
    obtain ⟨b, found, -⟩ := Option.bind_eq_some_iff.mp kept
    rw [names_of_begin began seen, SortedMap.mem_keys_iff]
    exact ⟨b, found⟩
  · intro id name next deleted
    exact not_mem_of_deleteBucket deleted
  · intro id name listed h next seen absent made
    obtain ⟨t, w, runs, rfl, rfl⟩ := create_of_absent seen absent made
    have writes := writing_setWorking runs
      ⟨w.names.insert name w.buckets.length, w.buckets ++ [Bucket.empty]⟩
    have fresh : ((w.buckets ++ [Bucket.empty])[w.buckets.length]?).getD .empty = Bucket.empty := by
      rw [List.getElem?_concat_length]
      rfl
    refine ⟨rfl, fun lead => ?_, ?_⟩
    · show Except.map _ (content _ _) = _
      rw [content_of_number writes, fresh]
      rfl
    · obtain ⟨last, counted⟩ := change_of_number name writes (Bucket.nextSequence .endless)
      rw [fresh] at counted
      exact ⟨last, counted⟩

end Memory

end Cellstore.Store
