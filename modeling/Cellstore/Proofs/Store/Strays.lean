import Cellstore.Proofs.Store.Deletion
import Cellstore.Proofs.Store.Tables

/-! Entries without a bucket.
In a file a handle is only a name, and an entry that is put through it after the deletion of its
bucket stays in the table. Apart from such puts every entry belongs to a listed bucket. -/
namespace Cellstore.Store

namespace File

namespace Tables

/-- Every entry belongs to a listed bucket. -/
def IsClean (t : Tables) : Prop :=
  ∀ name key, (t.get? name key).isSome = true → t.buckets.contains name = true

variable {t : Tables} {name : String}

theorem isClean_ofContents (c : Contents) : (ofContents c).IsClean := by
  intro name key kept
  have represents := Represents.ofContents c
  rw [represents.contains_eq, SortedMap.contains]
  rw [get?, represents.entries] at kept
  cases found : c.get? name with
  | none =>
    rw [found] at kept
    cases kept
  | some b => rfl

theorem get?_put (t : Tables) (name other : String) (key k value : Bytes) :
    (t.put name key value).get? other k =
      if (name, key) = (other, k) then some value else t.get? other k := SortedMap.get?_insert ..

namespace IsClean

theorem put (h : t.IsClean) (listed : t.buckets.contains name = true) (key value : Bytes) :
    (t.put name key value).IsClean := by
  intro other k kept
  rw [get?_put] at kept
  split_ifs at kept with here
  · cases here
    exact listed
  · exact h other k kept

theorem delete (h : t.IsClean) (name : String) (key : Bytes) : (t.delete name key).IsClean := by
  intro other k kept
  refine h other k ?_
  rw [Tables.get?, Tables.delete, SortedMap.get?_erase] at kept
  split_ifs at kept
  · cases kept
  · exact kept

theorem count (h : t.IsClean) (name : String) (n : Int) :
    IsClean { t with buckets := t.buckets.insert name n } := by
  intro other k kept
  show ((t.buckets.insert name n).get? other).isSome = true
  rw [SortedMap.get?_insert]
  split_ifs
  · rfl
  · exact h other k kept

theorem create (h : t.IsClean) (name : String) : (t.create name).IsClean := by
  unfold Tables.create
  split_ifs
  · exact h
  · exact h.count name 0

theorem deleteBucket (h : t.IsClean) (name : String) : (t.deleteBucket name).IsClean := by
  intro other k kept
  rw [Tables.get?, Tables.deleteBucket, SortedMap.get?_filter] at kept
  have apart : name ≠ other := by
    rintro rfl
    cases found : t.entries.get? (name, k) <;> simp [found] at kept
  have before : (t.get? other k).isSome = true := by
    rw [Tables.get?]
    cases found : t.entries.get? (other, k) with
    | none => simp [found] at kept
    | some value => rfl
  show ((t.buckets.erase name).get? other).isSome = true
  rw [SortedMap.get?_erase_of_ne _ apart]
  exact h other k before

theorem scan_eq_nil (h : t.IsClean) (unlisted : t.buckets.contains name = false) (lead : Bytes) :
    t.scan name lead = [] := by
  have none : (t.entries.entries.filter fun e => e.1.1 == name && !KeyOrder.lt e.1.2 lead) = [] := by
    rw [List.filter_eq_nil_iff]
    rintro ⟨⟨other, key⟩, value⟩ member
    have kept : t.get? other key = some value := SortedMap.mem_entries_iff.mp member
    have listed := h other key (by rw [kept]; rfl)
    intro here
    rw [Bool.and_eq_true, beq_iff_eq] at here
    have same : other = name := here.1
    rw [same, unlisted] at listed
    cases listed
  unfold scan
  simp only [none, List.map_nil, List.takeWhile_nil]

end IsClean

theorem scan_create (t : Tables) (name other : String) (lead : Bytes) :
    (t.create name).scan other lead = t.scan other lead := by
  unfold create
  split_ifs
  · rfl
  · rfl

theorem not_isClean_put (unlisted : t.buckets.contains name = false) (key value : Bytes) :
    ¬ (t.put name key value).IsClean := by
  intro clean
  have listed : t.buckets.contains name = true :=
    clean name key (by rw [get?_put, if_pos rfl]; rfl)
  rw [unlisted] at listed
  cases listed

end Tables

/-- Is an entry to be put through a handle whose bucket is not listed any more? -/
def IsStray (s : Labelled State Handle) : Operation → Bool
  | .put label _ _ => match s.handle? label with
    | none => false
    | some h => match tables h.transaction s.store with
      | .error _ => false
      | .ok t => !t.buckets.contains h.name
  | _ => false

/-- Neither the file nor the copy of a running update holds entries without a bucket. -/
structure IsClean (s : State) : Prop where
  committed : s.committed.IsClean
  working : ∀ t, s.working = some t → t.IsClean

variable {s s' : State} {id : Nat} {t : Tables} {h : Handle} {name : String}

theorem tables_write {u : Tables} (seen : tables id s = .ok u) (t : Tables) :
    tables id (write t s) = .ok t := by
  have kept : (write t s).transactions[id]? = s.transactions[id]? := rfl
  unfold tables at seen ⊢
  rw [kept]
  cases found : s.transactions[id]? with
  | none =>
    rw [found] at seen
    cases seen
  | some u =>
    simp only [found] at seen
    split_ifs at seen with ended lost locked
    simp only [write, ended, lost, locked]
    rfl

theorem create_inv (made : create id name s = .ok (h, s')) : ∃ t, tables id s = .ok t ∧
    writable id s = .ok () ∧ h = ⟨id, name⟩ ∧ s' = if t.buckets.contains name then s else write (t.create name) s := by
  unfold create at made
  by_cases unnamed : name = ""
  · rw [if_pos unnamed] at made
    cases made
  rw [if_neg unnamed] at made
  obtain ⟨_, writes, made⟩ := (bind_eq_ok_iff (x := writable id s)).mp made
  obtain ⟨t, seen, made⟩ := bind_eq_ok_iff.mp made
  cases made
  exact ⟨t, seen, writes, rfl, rfl⟩

theorem writable_write (t : Tables) : writable id (write t s) = writable id s := rfl

namespace IsClean

theorem tables (clean : IsClean s) (seen : File.tables id s = .ok t) : t.IsClean := by
  unfold File.tables at seen
  cases found : s.transactions[id]? with
  | none =>
    rw [found] at seen
    cases seen
  | some u =>
    simp only [found] at seen
    split_ifs at seen
    cases seen
    cases copy : s.working with
    | none => exact clean.committed
    | some w => exact clean.working w copy

theorem write (clean : IsClean s) (next : t.IsClean) : IsClean (write t s) where
  committed := clean.committed
  working := by
    rintro _ ⟨⟩
    exact next

theorem begin {writable : Bool} (clean : IsClean s) (began : begin writable s = .ok (id, s')) :
    IsClean s' := by
  unfold File.begin at began
  split_ifs at began <;> cases began
  · refine ⟨clean.committed, ?_⟩
    rintro _ ⟨⟩
    exact clean.committed
  · refine ⟨clean.committed, ?_⟩
    rintro _ ⟨⟩

theorem finish (clean : IsClean s) (id : Nat) (keep : Bool) : IsClean (finish id keep s).2 := by
  unfold File.finish
  cases s.transactions[id]? with
  | none => exact clean
  | some u =>
    dsimp only
    split_ifs
    · exact ⟨clean.committed, clean.working⟩
    · exact ⟨clean.committed, clean.working⟩
    · refine ⟨?_, nofun⟩
      cases copy : s.working with
      | none => exact clean.committed
      | some w => exact clean.working w copy
    · exact ⟨clean.committed, nofun⟩
    · exact ⟨clean.committed, nofun⟩

theorem create (clean : IsClean s) (made : create id name s = .ok (h, s')) : IsClean s' := by
  obtain ⟨t, seen, -, -, rfl⟩ := create_inv made
  split_ifs
  · exact clean
  · exact clean.write ((clean.tables seen).create name)

theorem deleteBucket (clean : IsClean s) (deleted : deleteBucket id name s = .ok s') : IsClean s' := by
  obtain ⟨-, -, deleted⟩ := bind_eq_ok_iff.mp deleted
  obtain ⟨t, seen, deleted⟩ := bind_eq_ok_iff.mp deleted
  split_ifs at deleted
  cases deleted
  exact clean.write ((clean.tables seen).deleteBucket name)

theorem put {key value : Bytes} (clean : IsClean s) (written : put h key value s = .ok s')
    (listed : ∀ t, File.tables h.transaction s = .ok t → t.buckets.contains h.name = true) :
    IsClean s' := by
  obtain ⟨-, -, written⟩ := bind_eq_ok_iff.mp written
  obtain ⟨t, seen, written⟩ := bind_eq_ok_iff.mp written
  cases written
  exact clean.write ((clean.tables seen).put (listed t seen) key value)

theorem delete {key : Bytes} (clean : IsClean s) (removed : delete h key s = .ok s') :
    IsClean s' := by
  obtain ⟨-, -, removed⟩ := bind_eq_ok_iff.mp removed
  obtain ⟨t, seen, removed⟩ := bind_eq_ok_iff.mp removed
  split_ifs at removed <;> cases removed
  · exact clean.write ((clean.tables seen).delete h.name key)
  · exact clean

theorem deleteAll {keys : List Bytes} (clean : IsClean s)
    (removed : deleteAll fileAdapter h keys s = .ok s') : IsClean s' := by
  induction keys generalizing s with
  | nil =>
    cases removed
    exact clean
  | cons key rest ih =>
    unfold Store.deleteAll at removed
    split at removed
    · rename_i first
      exact ih (clean.delete first) removed
    · cases removed

theorem nextSequence {n : Int} (clean : IsClean s) (counted : nextSequence h s = .ok (n, s')) :
    IsClean s' := by
  obtain ⟨-, -, counted⟩ := bind_eq_ok_iff.mp counted
  obtain ⟨t, seen, counted⟩ := bind_eq_ok_iff.mp counted
  split at counted
  · cases counted
  · cases counted
    exact clean.write ((clean.tables seen).count h.name _)

theorem close (clean : IsClean s) : IsClean (close s) := ⟨clean.committed, nofun⟩

theorem reopen (clean : IsClean s) : IsClean (reopen s).2 := by
  unfold File.reopen
  dsimp only
  split_ifs
  · exact clean.close
  · exact ⟨clean.committed, nofun⟩

theorem onHandle {s s' : Labelled State Handle} {label : String} {reply : Reply}
    {f : Handle → Except StoreFault (Reply × State)}
    (each : ∀ h reply next, s.handle? label = some h → f h = .ok (reply, next) → IsClean next)
    (clean : IsClean s.store) (done : onHandle s label f = .ok (reply, s')) : IsClean s'.store := by
  unfold Store.onHandle at done
  cases given : s.handle? label with
  | none =>
    rw [given] at done
    cases done
    exact clean
  | some h =>
    rw [given] at done
    obtain ⟨⟨reply, next⟩, result, same⟩ := map_eq_ok_iff.mp done
    cases same
    exact each h reply next given result

theorem attempt {s s' : Labelled State Handle} {op : Operation} {reply : Reply}
    (clean : IsClean s.store) (tidy : IsStray s op = false)
    (done : attempt fileAdapter s op = .ok (reply, s')) : IsClean s'.store := by
  -- Only a put can leave an entry without its bucket, and the stray ones are excluded.
  cases op with
  | begin writable tx =>
    obtain ⟨⟨id, next⟩, began, same⟩ := bind_eq_ok_iff.mp done
    cases same
    exact clean.begin began
  | bucket tx label name =>
    obtain ⟨id, -, done⟩ := bind_eq_ok_iff.mp done
    obtain ⟨h, -, same⟩ := bind_eq_ok_iff.mp done
    cases same
    exact clean
  | create tx label name =>
    obtain ⟨id, -, done⟩ := bind_eq_ok_iff.mp done
    obtain ⟨⟨h, next⟩, made, same⟩ := bind_eq_ok_iff.mp done
    cases same
    exact clean.create made
  | deleteBucket tx name =>
    obtain ⟨id, -, done⟩ := bind_eq_ok_iff.mp done
    obtain ⟨next, deleted, same⟩ := bind_eq_ok_iff.mp done
    cases same
    exact clean.deleteBucket deleted
  | names tx =>
    obtain ⟨id, -, done⟩ := bind_eq_ok_iff.mp done
    obtain ⟨names, -, same⟩ := bind_eq_ok_iff.mp done
    cases same
    exact clean
  | get label key =>
    refine onHandle (fun h reply next given done => ?_) clean done
    obtain ⟨value, -, same⟩ := bind_eq_ok_iff.mp done
    cases same
    exact clean
  | put label key value =>
    refine onHandle (fun h reply next given done => ?_) clean done
    obtain ⟨next, written, same⟩ := bind_eq_ok_iff.mp done
    cases same
    refine clean.put written fun t seen => ?_
    simpa [IsStray, given, seen] using tidy
  | delete label key =>
    refine onHandle (fun h reply next given done => ?_) clean done
    obtain ⟨next, removed, same⟩ := bind_eq_ok_iff.mp done
    cases same
    exact clean.delete removed
  | items label lead =>
    refine onHandle (fun h reply next given done => ?_) clean done
    obtain ⟨entries, -, same⟩ := bind_eq_ok_iff.mp done
    cases same
    exact clean
  | itemsDeleting label lead =>
    refine onHandle (fun h reply next given done => ?_) clean done
    obtain ⟨entries, -, done⟩ := bind_eq_ok_iff.mp done
    obtain ⟨next, removed, same⟩ := bind_eq_ok_iff.mp done
    cases same
    exact clean.deleteAll removed
  | nextSequence label =>
    refine onHandle (fun h reply next given done => ?_) clean done
    obtain ⟨⟨n, next⟩, counted, same⟩ := bind_eq_ok_iff.mp done
    cases same
    exact clean.nextSequence counted
  | close =>
    cases done
    exact clean.close
  | setLock lock =>
    cases done
    exact ⟨clean.committed, clean.working⟩
  | dump =>
    obtain ⟨contents, -, same⟩ := bind_eq_ok_iff.mp done
    cases same
    exact clean
  | closed | path | finish _ | abort _ | reopen | openOther _ =>
    cases done
    exact clean

theorem endBlock {s : Labelled State Handle} (clean : IsClean s.store) (tx : String) (keep : Bool)
    (reply : Reply) : IsClean (endBlock fileAdapter s tx keep reply).2.store := by
  unfold Store.endBlock
  cases s.transaction tx with
  | error fault => exact clean
  | ok id => exact clean.finish id keep

theorem perform {s : Labelled State Handle} {op : Operation} (clean : IsClean s.store)
    (tidy : IsStray s op = false) : IsClean (perform fileAdapter s op).2.store := by
  by_cases plain : op.isPlain = true
  · cases attempted : Store.attempt fileAdapter s op with
    | error fault =>
      rw [perform_error plain attempted]
      exact clean
    | ok result =>
      rw [perform_ok plain attempted]
      exact clean.attempt tidy attempted
  · cases op with
    | finish tx => exact clean.endBlock tx true .done
    | abort tx => exact clean.endBlock tx false .aborted
    | reopen => exact clean.reopen
    | openOther path => exact ⟨clean.committed, clean.working⟩
    | _ => exact absurd rfl plain

end IsClean

/-- A stray put that is not refused leaves an entry without a bucket. -/
theorem not_isClean_of_stray {s : Labelled State Handle} {label : String} {key value : Bytes}
    {reply : Reply} (stray : IsStray s (.put label key value) = true)
    (done : (perform fileAdapter s (.put label key value)).1 = .ok reply) :
    ¬ IsClean (perform fileAdapter s (.put label key value)).2.store := by
  obtain ⟨s', attempted⟩ := ok_of_perform rfl done
  rw [perform_ok rfl attempted]
  cases given : s.handle? label with
  | none => simp [IsStray, given] at stray
  | some h =>
    replace attempted : onHandle s label (fun h => do
      return (.done, ← put h key value s.store)) = .ok (reply, s') := attempted
    rw [onHandle_of_some given] at attempted
    obtain ⟨result, answered, same⟩ := map_eq_ok_iff.mp attempted
    obtain ⟨next, written, paired⟩ := bind_eq_ok_iff.mp answered
    cases paired
    cases same
    obtain ⟨-, -, written⟩ := bind_eq_ok_iff.mp written
    obtain ⟨t, seen, written⟩ := bind_eq_ok_iff.mp written
    cases written
    have unlisted : t.buckets.contains h.name = false := by
      simpa [IsStray, given, seen] using stray
    intro clean
    exact Tables.not_isClean_put unlisted key value (clean.working _ rfl)

/-- The entry under a key of a committed bucket, listed or not. -/
def stored (s : State) (name : String) (key : Bytes) : Option Bytes := s.committed.get? name key

theorem names_of_tables (seen : tables id s = .ok t) : names id s = .ok t.buckets.keys := by
  rw [names, seen]
  rfl

theorem tables_of_names {listed : List String} (seen : names id s = .ok listed) :
    ∃ t, tables id s = .ok t ∧ t.buckets.keys = listed := map_eq_ok_iff.mp seen

theorem not_mem_keys_iff : name ∉ t.buckets.keys ↔ t.buckets.contains name = false := by
  rw [SortedMap.mem_keys_iff, ← SortedMap.contains_eq_true_iff, Bool.not_eq_true]

theorem names_of_begin {listed : List String} (began : begin false s = .ok (id, s'))
    (seen : names id s' = .ok listed) : listed = s.committed.buckets.keys := by
  unfold begin at began
  simp only [Bool.false_eq_true, false_and, if_false] at began
  split_ifs at began
  cases began
  obtain ⟨t, found, rfl⟩ := tables_of_names seen
  unfold tables at found
  simp only [List.getElem?_concat_length] at found
  split_ifs at found
  cases found
  rfl

theorem not_mem_of_deleteBucket (deleted : deleteBucket id name s = .ok s') :
    ∃ left, names id s' = .ok left ∧ name ∉ left := by
  obtain ⟨-, -, deleted⟩ := bind_eq_ok_iff.mp deleted
  obtain ⟨t, seen, deleted⟩ := bind_eq_ok_iff.mp deleted
  split_ifs at deleted
  cases deleted
  refine ⟨_, names_of_tables (tables_write seen _), ?_⟩
  rw [SortedMap.mem_keys_iff]
  rintro ⟨n, found⟩
  rw [Tables.deleteBucket, SortedMap.get?_erase_self] at found
  cases found

theorem isClean_after {s : Labelled State Handle} {ops : List Operation} (clean : IsClean s.store)
    (tidy : ∀ e ∈ along fileAdapter s ops, IsStray e.1 e.2 = false) :
    IsClean (after fileAdapter s ops).store := by
  induction ops generalizing s with
  | nil => exact clean
  | cons op rest ih =>
    obtain ⟨first, others⟩ := List.forall_mem_cons.mp tidy
    exact ih (clean.perform first) others

theorem leavesNothing {s : Labelled State Handle} (clean : IsClean s.store) :
    LeavesNothing fileAdapter stored s := by
  apply leavesNothing_of_calls
  · intro id next listed name key value began seen kept
    rw [names_of_begin began seen, SortedMap.mem_keys_iff, ← SortedMap.contains_eq_true_iff]
    exact clean.committed name key (Option.isSome_of_eq_some kept)
  · intro id name next deleted
    exact not_mem_of_deleteBucket deleted
  · intro id name listed h next seen absent made
    obtain ⟨t, found, rfl⟩ := tables_of_names seen
    obtain ⟨u, again, writes, rfl, rfl⟩ := create_inv made
    cases found.symm.trans again
    have unlisted := not_mem_keys_iff.mp absent
    rw [unlisted, if_neg Bool.false_ne_true]
    have next := tables_write found (t.create name)
    refine ⟨rfl, fun lead => ?_, ?_⟩
    · show Except.map _ (tables id _) = _
      rw [next, ← (clean.tables found).scan_eq_nil unlisted lead, ← Tables.scan_create t name name]
      rfl
    · have counter : (t.create name).buckets.get? name = some 0 := by
        rw [Tables.create, if_neg (by rw [unlisted]; exact Bool.false_ne_true)]
        exact SortedMap.get?_insert_self ..
      refine ⟨write { t.create name with buckets := (t.create name).buckets.insert name 1 }
        (write (t.create name) s.store), ?_⟩
      show nextSequence _ _ = _
      unfold nextSequence
      simp only [writable_write, writes, next, bind, Except.bind, counter]
      rfl

end File

/-- Whatever is stored at first: in memory nothing stays behind of a deleted bucket, and in a file
nothing does unless an entry is put through a handle whose bucket has been deleted. -/
theorem deleted_buckets_leave_nothing (path : String) (c : Contents) (ops : List Operation) :
    LeavesNothing memoryAdapter Memory.stored
      (after memoryAdapter (.ofStore { Memory.open_ path with contents := c }) ops) ∧
    ((∀ e ∈ along fileAdapter (.ofStore { File.open_ path with committed := .ofContents c }) ops,
        File.IsStray e.1 e.2 = false) →
      LeavesNothing fileAdapter File.stored
        (after fileAdapter (.ofStore { File.open_ path with committed := .ofContents c }) ops)) := by
  refine ⟨Memory.leavesNothing _, fun tidy => File.leavesNothing ?_⟩
  have start : File.IsClean { File.open_ path with committed := .ofContents c } :=
    ⟨File.Tables.isClean_ofContents c, nofun⟩
  exact File.isClean_after start tidy

theorem deleted_buckets_leave_nothing_shelf :
    let ops : List Operation := [.begin true "t", .create "t" "b" "x", .put "b" [1] [2],
      .deleteBucket "t" "x", .delete "b" [1], .nextSequence "b", .create "t" "c" "x", .put "b" [3] [4],
      .finish "t"]
    let shelf : Contents := .ofList [("x", ⟨.ofList [([5], [6])], 7⟩)]
    (∀ e ∈ along fileAdapter (.ofStore { File.open_ "shelf" with committed := .ofContents shelf }) ops,
      File.IsStray e.1 e.2 = false) ∧
    LeavesNothing fileAdapter File.stored
      (after fileAdapter (.ofStore { File.open_ "shelf" with committed := .ofContents shelf }) ops) :=
  ⟨by decide, (deleted_buckets_leave_nothing "shelf" _ _).2 (by decide)⟩

/-- In a file a put through an old handle is found again in the next bucket of that name. -/
theorem stray_entry_remains :
    ¬ ∀ (path : String) (c : Contents) (ops : List Operation), LeavesNothing fileAdapter File.stored
      (after fileAdapter (.ofStore { File.open_ path with committed := .ofContents c }) ops) := by
  intro clean
  have fresh := (clean "store" .empty [.begin true "t", .create "t" "b" "x", .deleteBucket "t" "x",
    .put "b" [1] [2]]).created "t" "c" "x" [] (.bucket (some "x")) [] (by rfl) (by simp) (by rfl)
  cases fresh

end Cellstore.Store
