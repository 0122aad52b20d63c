import Cellstore.Proofs.Store.Usage

/-! What the labels say about a store.
The running transaction is the block that runs, and the others have ended. Only a draw lets a
counter grow, so no counter is above the number of draws. -/
namespace Cellstore.Store

/-- No counter is above `n`. -/
def Below (n : Int) (c : Contents) : Prop := ∀ name b, c.get? name = some b → b.sequence ≤ n

namespace Below

variable {n : Int} {c : Contents}

theorem mono {m : Int} (h : Below n c) (le : n ≤ m) : Below m c :=
  fun name b found => Int.le_trans (h name b found) le

theorem insert (h : Below n c) (name : String) {b : Bucket} (bound : b.sequence ≤ n) :
    Below n (c.insert name b) := by
  intro other d found
  rw [SortedMap.get?_insert] at found
  split_ifs at found
  · cases found
    exact bound
  · exact h other d found

theorem erase (h : Below n c) (name : String) : Below n (c.erase name) := by
  intro other d found
  rw [SortedMap.get?_erase] at found
  split_ifs at found
  exact h other d found

theorem getD (h : Below n c) (nonneg : 0 ≤ n) (name : String) :
    ((c.get? name).getD .empty).sequence ≤ n := by
  cases found : c.get? name with
  | none => exact nonneg
  | some b => exact h name b found

end Below

namespace Contract

/-- No counter of the contents, or of the copy of the running block, is above `n`. -/
structure Counted (n : Nat) (r : Contract) : Prop where
  contents : Below n r.contents
  copy : ∀ b c, r.block = some b → b.copy = some c → Below n c

/-- A step inside the blocks: the same ones were begun and the same one is running. -/
structure Moves (drawn : Nat) (r r' : Contract) : Prop where
  begun : r'.begun = r.begun
  block : r'.block.map (·.id) = r.block.map (·.id)
  counted : ∀ n, r.Counted n → r'.Counted (n + drawn)

variable {r r' : Contract} {id : Nat} {drawn : Nat}

theorem Counted.mono {n m : Nat} (h : r.Counted n) (le : n ≤ m) : r.Counted m :=
  ⟨h.contents.mono (by omega), fun b c block copy => (h.copy b c block copy).mono (by omega)⟩

theorem Moves.refl (r : Contract) : r.Moves drawn r :=
  ⟨rfl, rfl, fun _ counted => counted.mono (Nat.le_add_right ..)⟩

theorem Moves.trans {r'' : Contract} (h : r.Moves 0 r') (h' : r'.Moves drawn r'') :
    r.Moves drawn r'' :=
  ⟨h'.begun.trans h.begun, h'.block.trans h.block, fun n counted =>
    h'.counted n (h.counted n counted)⟩

theorem moves_write {c d : Contents} (writes : r.writing id = .ok c)
    (below : ∀ n : Nat, Below n c → Below ((n + drawn : Nat) : Int) d) :
    r.Moves drawn (r.write id d) := by
  have block := block_of_writing writes
  refine ⟨rfl, ?_, fun n counted => ⟨counted.contents.mono (by omega), ?_⟩⟩
  · rw [block]
    rfl
  · rintro b e ⟨⟩ ⟨⟩
    exact below n (counted.copy _ c block rfl)

theorem moves_create {name : String} {k : Handle} (created : r.create id name = .ok (k, r')) :
    r.Moves 0 r' := by
  unfold create at created
  split_ifs at created
  cases writes : r.writing id with
  | error fault =>
    rw [writes] at created
    cases created
  | ok c =>
    rw [writes] at created
    cases created
    exact moves_write writes fun n below => below.insert name (below.getD (by omega) name)

theorem moves_deleteBucket {name : String} (deleted : r.deleteBucket id name = .ok r') :
    r.Moves 0 r' := by
  unfold deleteBucket at deleted
  cases writes : r.writing id with
  | error fault =>
    rw [writes] at deleted
    cases deleted
  | ok c =>
    rw [writes] at deleted
    dsimp only at deleted
    split_ifs at deleted
    cases deleted
    exact moves_write writes fun n below => below.erase name

theorem moves_change {α : Type} {k : Handle} {f : Bucket → α × Bucket} {x : α}
    (draws : ∀ b, (f b).2.sequence ≤ b.sequence + drawn) (changed : r.change k f = .ok (x, r')) :
    r.Moves drawn r' := by
  unfold change at changed
  cases writes : r.writing k.transaction with
  | error fault =>
    rw [writes] at changed
    cases changed
  | ok c =>
    rw [writes] at changed
    cases changed
    refine moves_write writes fun n below => (below.mono (by omega)).insert k.name ?_
    have before := below.getD (by omega) k.name
    have drawn := draws ((c.get? k.name).getD .empty)
    omega

theorem moves_put {k : Handle} {key value : Bytes} (put : adapter.put k key value r = .ok r') :
    r.Moves 0 r' := by
  obtain ⟨⟨_, r'⟩, changed, rfl⟩ := map_eq_ok_iff.mp put
  exact moves_change (fun b => by simp) changed

theorem moves_delete {k : Handle} {key : Bytes} (deleted : adapter.delete k key r = .ok r') :
    r.Moves 0 r' := by
  obtain ⟨⟨_, r'⟩, changed, rfl⟩ := map_eq_ok_iff.mp deleted
  exact moves_change (fun b => by simp) changed

theorem moves_deleteAll {k : Handle} {keys : List Bytes}
    (deleted : deleteAll adapter k keys r = .ok r') : r.Moves 0 r' := by
  induction keys generalizing r with
  | nil =>
    cases deleted
    exact .refl _
  | cons key rest ih =>
    rw [deleteAll] at deleted
    split at deleted
    · rename_i next first
      exact (moves_delete first).trans (ih deleted)
    · cases deleted

theorem moves_attempt {s s' : Labelled Contract Handle} {op : Operation} {reply : Reply}
    (inside : ∀ writable tx, op ≠ .begin writable tx)
    (done : attempt adapter s op = .ok (reply, s')) :
    s'.transactions = s.transactions ∧ s.store.Moves op.isDraw.toNat s'.store := by
  -- A lost handle changes nothing, and the others reach the contract.
  have handle {label : String} {drawn : Nat} {f : Handle → Except StoreFault (Reply × Contract)}
      (done : onHandle s label f = .ok (reply, s'))
      (moves : ∀ k next, f k = .ok next → s.store.Moves drawn next.2) :
      s'.transactions = s.transactions ∧ s.store.Moves drawn s'.store := by
    unfold onHandle at done
    split at done
    · cases done
      exact ⟨rfl, .refl _⟩
    · obtain ⟨next, changed, same⟩ := map_eq_ok_iff.mp done
      cases same
      exact ⟨rfl, moves _ _ changed⟩
  cases op with
  | begin writable tx => exact absurd rfl (inside writable tx)
  | bucket tx label name =>
    obtain ⟨id, _, done⟩ := bind_eq_ok_iff.mp done
    obtain ⟨k, _, done⟩ := bind_eq_ok_iff.mp done
    cases done
    exact ⟨rfl, .refl _⟩
  | create tx label name =>
    obtain ⟨id, _, done⟩ := bind_eq_ok_iff.mp done
    obtain ⟨⟨k, r'⟩, created, done⟩ := bind_eq_ok_iff.mp done
    cases done
    exact ⟨rfl, moves_create created⟩
  | deleteBucket tx name =>
    obtain ⟨id, _, done⟩ := bind_eq_ok_iff.mp done
    obtain ⟨r', deleted, done⟩ := bind_eq_ok_iff.mp done
    cases done
    exact ⟨rfl, moves_deleteBucket deleted⟩
  | names tx =>
    obtain ⟨id, _, done⟩ := bind_eq_ok_iff.mp done
    obtain ⟨names, _, done⟩ := bind_eq_ok_iff.mp done
    cases done
    exact ⟨rfl, .refl _⟩
  | get label key | items label lead =>
    refine handle done fun k next found => ?_
    obtain ⟨_, _, found⟩ := bind_eq_ok_iff.mp found
    cases found
    exact .refl _
  | put label key value =>
    refine handle done fun k next called => ?_
    obtain ⟨r', put, same⟩ := bind_eq_ok_iff.mp called
    cases same
    exact moves_put put
  | delete label key =>
    refine handle done fun k next called => ?_
    obtain ⟨r', deleted, same⟩ := bind_eq_ok_iff.mp called
    cases same
    exact moves_delete deleted
  | itemsDeleting label lead =>
    refine handle done fun k next called => ?_
    obtain ⟨entries, _, called⟩ := bind_eq_ok_iff.mp called
    obtain ⟨r', deleted, same⟩ := bind_eq_ok_iff.mp called
    cases same
    exact moves_deleteAll deleted
  | nextSequence label =>
    refine handle done fun k next called => ?_
    obtain ⟨⟨n, r'⟩, changed, same⟩ := bind_eq_ok_iff.mp called
    cases same
    exact moves_change (f := Bucket.nextSequence .endless) (fun b => Int.le_refl _) changed
  | dump =>
    obtain ⟨contents, _, done⟩ := bind_eq_ok_iff.mp done
    cases done
    exact ⟨rfl, .refl _⟩
  | close =>
    cases done
    exact ⟨rfl, rfl, rfl, fun n counted => ⟨counted.contents, counted.copy⟩⟩
  | _ =>
    cases done
    exact ⟨rfl, .refl _⟩

theorem Counted.content {n : Nat} (h : r.Counted n) {k : Handle} {b : Bucket}
    (content : r.content k = .ok b) : b.sequence ≤ n := by
  obtain ⟨c, visible, rfl⟩ := map_eq_ok_iff.mp content
  obtain ⟨d, runs, rfl⟩ := map_eq_ok_iff.mp visible
  refine Below.getD ?_ (by omega) k.name
  cases copy : d.copy with
  | none => exact h.contents
  | some c => exact h.copy d c (running_eq_ok_iff.mp runs).1 copy

theorem Counted.settle {n : Nat} (h : r.Counted n) {b : Block} (block : r.block = some b)
    (keep : Bool) : (r.settle b keep).Counted n := by
  refine ⟨?_, fun _ _ none => nomatch none⟩
  unfold Contract.settle
  cases copy : b.copy with
  | none => cases keep <;> exact h.contents
  | some c =>
    cases keep
    · exact h.contents
    · exact h.copy b c block copy

theorem Counted.finish {n : Nat} (h : r.Counted n) (id : Nat) (keep : Bool) :
    (r.finish id keep).2.Counted n := by
  unfold Contract.finish
  cases runs : r.running id with
  | error fault => exact h
  | ok b => exact h.settle (running_eq_ok_iff.mp runs).1 keep

theorem Counted.begin {n : Nat} (h : r.Counted n) {writable : Bool}
    (begun : r.begin writable = .ok (id, r')) : r'.Counted n := by
  obtain ⟨_, _, rfl⟩ := begin_eq_ok begun
  refine ⟨h.contents, ?_⟩
  rintro b c ⟨⟩ copy
  dsimp only at copy
  split_ifs at copy
  cases copy
  exact h.contents

theorem Counted.perform {n : Nat} {s : Labelled Contract Handle} (h : s.store.Counted n)
    (op : Operation) : (perform adapter s op).2.store.Counted (n + op.isDraw.toNat) := by
  have ended (tx : String) (keep : Bool) (reply : Reply) :
      (endBlock adapter s tx keep reply).2.store.Counted n := by
    unfold endBlock
    cases s.transaction tx with
    | error fault => exact h
    | ok id => exact h.finish id keep
  by_cases plain : op.isPlain = true
  · cases done : attempt adapter s op with
    | error fault =>
      rw [perform_error plain done]
      exact h.mono (Nat.le_add_right ..)
    | ok next =>
      rw [perform_ok plain done]
      by_cases inside : ∃ writable tx, op = .begin writable tx
      · obtain ⟨writable, tx, rfl⟩ := inside
        obtain ⟨⟨id, r'⟩, begun, same⟩ := bind_eq_ok_iff.mp done
        cases same
        exact h.begin begun
      · have moves := moves_attempt (fun writable tx same => inside ⟨writable, tx, same⟩) done
        exact moves.2.counted n h
  · cases op with
    | finish tx | abort tx => exact ended tx _ _
    | reopen => exact ⟨h.contents, fun _ _ none => nomatch none⟩
    | openOther path => exact h
    | _ => exact absurd rfl plain

end Contract

namespace Usage

/-- The labels of transactions follow the blocks of a store. -/
structure Tracks (u : Usage) (r : Labelled Contract Contract.Handle) : Prop where
  running : ∀ tx, u.running = some tx →
    ∃ b, r.store.block = some b ∧ r.transactions.lookup tx = some b.id
  idle : u.running = none → r.store.block = none
  blocks : ∀ tx, u.blocks.lookup tx =
    (r.transactions.lookup tx).bind fun id => r.store.begun[id]?
  older : ∀ tx id, r.transactions.lookup tx = some id → id < r.store.begun.length
  distinct : ∀ tx other id, r.transactions.lookup tx = some id →
    r.transactions.lookup other = some id → tx = other

namespace Tracks

variable {u v : Usage} {r r' : Labelled Contract Contract.Handle}

theorem start (path : String) : Tracks .start (.ofStore (.open_ path)) where
  running _ none := nomatch none
  idle _ := rfl
  blocks _ := rfl
  older _ _ missing := nomatch missing
  distinct _ _ _ missing := nomatch missing

/-- Steps inside the blocks are not seen by the labels of transactions. -/
theorem of_moves {drawn : Nat} (h : Tracks u r) (blocks : v.blocks = u.blocks)
    (running : v.running = u.running) (transactions : r'.transactions = r.transactions)
    (moves : r.store.Moves drawn r'.store) : Tracks v r' := by
  refine ⟨fun tx here => ?_, fun idle => ?_, fun tx => ?_, fun tx id found => ?_, ?_⟩
  · obtain ⟨b, block, found⟩ := h.running tx (running ▸ here)
    have number := moves.block
    rw [block, Option.map_some] at number
    obtain ⟨d, block', number⟩ := Option.map_eq_some_iff.mp number
    exact ⟨d, block', by rw [transactions, found, number]⟩
  · have number := moves.block
    rw [h.idle (running ▸ idle), Option.map_none] at number
    exact Option.map_eq_none_iff.mp number
  · rw [blocks, transactions, moves.begun]
    exact h.blocks tx
  · rw [moves.begun]
    exact h.older tx id (transactions ▸ found)
  · rw [transactions]
    exact h.distinct

theorem begin {writable : Bool} {tx : String} {id : Nat} {next : Contract} (h : Tracks u r)
    (begun : r.store.begin writable = .ok (id, next)) (reply : Reply) :
    Tracks (u.after (.begin writable tx) (.ok reply))
      { r with store := next, transactions := (tx, id) :: r.transactions } := by
  obtain ⟨_, rfl, rfl⟩ := Contract.begin_eq_ok begun
  refine ⟨fun other here => ?_, fun idle => (nomatch idle), fun other => ?_, fun other id found => ?_,
    fun first second id one two => ?_⟩
  · cases here
    exact ⟨_, rfl, by rw [lookup_cons, if_pos rfl]⟩
  · show ((tx, writable) :: u.blocks).lookup other = _
    rw [lookup_cons, lookup_cons]
    by_cases here : other = tx
    · simp [here]
    · rw [if_neg here, if_neg here, h.blocks other]
      cases found : r.transactions.lookup other with
      | none => rfl
      | some id =>
        rw [Option.bind_some, Option.bind_some, List.getElem?_append_left (h.older other id found)]
  · rw [lookup_cons] at found
    rw [List.length_append, List.length_singleton]
    split_ifs at found
    · cases found
      omega
    · exact Nat.lt_succ_of_lt (h.older other id found)
  · rw [lookup_cons] at one two
    split_ifs at one two with here there there
    · exact here.trans there.symm
    · cases one
      exact absurd (h.older second _ two) (Nat.lt_irrefl _)
    · cases two
      exact absurd (h.older first _ one) (Nat.lt_irrefl _)
    · exact h.distinct first second id one two

theorem running_eq_error (h : Tracks u r) {tx : String} {id : Nat}
    (found : r.transactions.lookup tx = some id) (ended : u.running ≠ some tx) :
    r.store.running id = .error .finished := by
  refine Contract.running_eq_error_iff.mpr fun b block same => ?_
  cases running : u.running with
  | none =>
    rw [h.idle running] at block
    cases block
  | some other =>
    obtain ⟨d, block', found'⟩ := h.running other running
    rw [block, Option.some.injEq] at block'
    subst block'
    rw [same] at found'
    exact ended (running.trans (congrArg some (h.distinct other tx id found' found)))

theorem hasEndedView_iff (h : Tracks u r) {tx : String} {id : Nat}
    (found : r.transactions.lookup tx = some id) :
    u.hasEndedView tx = true ↔ r.store.IsEndedView id := by
  have written := h.blocks tx
  have bound := h.older tx id found
  rw [found, Option.bind_some, List.getElem?_eq_getElem bound] at written
  unfold hasEndedView Contract.IsEndedView
  rw [written, List.getElem?_eq_getElem bound]
  simp only [Bool.and_eq_true, bne_iff_ne, beq_iff_eq, Option.some.injEq, ne_eq,
    Bool.not_eq_true]
  refine and_congr_left fun _ => ⟨h.running_eq_error found, fun ended here => ?_⟩
  obtain ⟨b, block, found'⟩ := h.running tx here
  rw [found, Option.some.injEq] at found'
  exact Contract.running_eq_error_iff.mp ended b block found'.symm

theorem settle (h : Tracks u r) (b : Block) (keep : Bool) :
    Tracks { u.losing fun _ => true with running := none }
      (r.withStore (r.store.settle b keep)) where
  running _ none := nomatch none
  idle _ := rfl
  blocks := h.blocks
  older := h.older
  distinct := h.distinct

theorem endBlock {tx : String} (h : Tracks u r) (running : u.running = some tx) (keep : Bool)
    (reply : Reply) : ∃ b, r.store.block = some b ∧ r.transactions.lookup tx = some b.id ∧
      endBlock Contract.adapter r tx keep reply =
        (.ok reply, r.withStore (r.store.settle b keep)) := by
  obtain ⟨b, block, found⟩ := h.running tx running
  refine ⟨b, block, found, ?_⟩
  have ends : r.store.finish b.id keep = (.ok (), r.store.settle b keep) := by
    rw [Contract.finish, Contract.running_eq_ok_iff.mpr ⟨block, rfl⟩]
  unfold Store.endBlock Labelled.transaction
  rw [found]
  show (Except.map _ (r.store.finish b.id keep).1, r.withStore (r.store.finish b.id keep).2) = _
  rw [ends]
  rfl

private theorem inside {op : Operation} (h : Tracks u r) (plain : op.isPlain = true)
    (inside : ∀ writable tx, op ≠ .begin writable tx) :
    Tracks (u.after op (Store.perform Contract.adapter r op).1)
      (Store.perform Contract.adapter r op).2 := by
  cases done : attempt Contract.adapter r op with
  | error fault =>
    rw [perform_error plain done, after_error u fault plain]
    exact h
  | ok next =>
    obtain ⟨transactions, moves⟩ := Contract.moves_attempt inside done
    obtain ⟨blocks, running⟩ := after_of_inside u (.ok next.1) plain inside
    rw [perform_ok plain done]
    exact h.of_moves blocks running transactions moves

theorem perform {op : Operation} (h : Tracks u r) (allowed : u.allows op = true) :
    Tracks (u.after op (perform Contract.adapter r op).1) (perform Contract.adapter r op).2 := by
  cases op with
  | finish tx | abort tx =>
    obtain ⟨b, _, _, ends⟩ := h.endBlock (by simpa [allows] using allowed) _ _
    rw [Store.perform, ends]
    exact h.settle b _
  | reopen =>
    have idle : u.running = none := by simpa [allows] using allowed
    refine ⟨fun tx (here : u.running = some tx) => ?_, fun _ => rfl, h.blocks, h.older, h.distinct⟩
    rw [idle] at here
    cases here
  | openOther path => cases allowed
  | begin writable tx =>
    cases begun : r.store.begin writable with
    | error fault =>
      have failed : attempt Contract.adapter r (.begin writable tx) = .error fault := by
        simp only [attempt, Contract.adapter, begun, bind, Except.bind]
      rw [perform_error rfl failed]
      exact h
    | ok next =>
      have done : attempt Contract.adapter r (.begin writable tx) = .ok (.flag writable,
          { r with store := next.2, transactions := (tx, next.1) :: r.transactions }) := by
        simp only [attempt, Contract.adapter, begun, bind, Except.bind, pure, Except.pure]
      rw [perform_ok rfl done]
      exact h.begin begun _
  | _ =>
    refine h.inside rfl ?_
    rintro _ _ ⟨⟩

end Tracks

end Usage

end Cellstore.Store
