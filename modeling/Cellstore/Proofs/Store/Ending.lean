import Cellstore.Proofs.Store.Replay

/-! The end of a block.
A block is left normally or by a failure, and a commit can fail. It is judged by what the next opening
of the path shows. -/
namespace Cellstore.Store

section
variable {σ η : Type} (a : Adapter σ η)

/-- What the next opening of the path shows, once nobody else holds a lock. -/
def Shows (s : Labelled σ η) (c : Contents) : Prop :=
  performAll a s [.setLock .none, .reopen, .dump] = [.ok .done, .ok .done, .ok (.contents c)]

/-- The block of a transaction that has begun at `s`. Its end is normal, or fails, or follows a
failure inside the block. Without foreign locks a normal end does not fail. -/
structure Settles (s : Labelled σ η) (tx : String) (ops : List Operation) (old new : Contents) :
    Prop where
  normal : (perform a (after a s ops) (.finish tx)).1 = .ok .done →
    Shows a (perform a (after a s ops) (.finish tx)).2 new
  failed : ∀ fault, (perform a (after a s ops) (.finish tx)).1 = .error fault →
    Shows a (perform a (after a s ops) (.finish tx)).2 old
  aborted : (perform a (after a s ops) (.abort tx)).1 = .ok .aborted ∧
    Shows a (perform a (after a s ops) (.abort tx)).2 old
  unlocked : (perform a (after a s (ops ++ [.setLock .none])) (.finish tx)).1 = .ok .done

/-- The contract of a block that begins at `s`: its end decides between what was shown before and the
writes of the block, or nothing is changed in any case. -/
def Takes (detaches : Bool) (ledger : σ → Ledger) (effective : Prop) (s : Labelled σ η)
    (writable : Bool) (tx : String) (ops : List Operation) : Prop :=
  ∃ old new, Shows a s old ∧ Settles a (perform a s (.begin writable tx)).2 tx ops old new ∧
    (effective → (replay a detaches (.start (ledger s.store)) (perform a s (.begin writable tx)).2
      ops).ledger.Lists new) ∧
    (¬ effective → new = old)

variable {a} {s : Labelled σ η}

theorem begin_of_perform {writable : Bool} {tx : String} {reply : Reply}
    (begun : (perform a s (.begin writable tx)).1 = .ok reply) : ∃ id next,
      a.begin writable s.store = .ok (id, next) ∧ (perform a s (.begin writable tx)).2 =
        ⟨next, (tx, id) :: s.transactions, s.handles⟩ := by
  obtain ⟨s', attempted⟩ := ok_of_perform rfl begun
  rw [perform_ok rfl attempted]
  obtain ⟨⟨id, next⟩, called, same⟩ := bind_eq_ok_iff.mp attempted
  cases same
  exact ⟨id, next, called, rfl⟩

variable {tx : String} {id : Nat} {labels : List (String × Nat)}

private theorem endBlock_of_labels (given : s.transactions = (tx, id) :: labels) (keep : Bool)
    (reply : Reply) : endBlock a s tx keep reply = ((a.finish id keep s.store).1.map fun _ => reply,
      s.withStore (a.finish id keep s.store).2) := by
  unfold endBlock Labelled.transaction
  rw [given, List.lookup_cons_self]

theorem finish_of_labels (given : s.transactions = (tx, id) :: labels) :
    perform a s (.finish tx) = ((a.finish id true s.store).1.map fun _ => .done,
      s.withStore (a.finish id true s.store).2) := endBlock_of_labels given ..

theorem abort_of_labels (given : s.transactions = (tx, id) :: labels) :
    perform a s (.abort tx) = ((a.finish id false s.store).1.map fun _ => .aborted,
      s.withStore (a.finish id false s.store).2) := endBlock_of_labels given ..

theorem after_concat (s : Labelled σ η) (ops : List Operation) (op : Operation) :
    after a s (ops ++ [op]) = (perform a (after a s ops) op).2 := by
  induction ops generalizing s with
  | nil => rfl
  | cons first rest ih => exact ih _

/-- The ways in which a transaction ends: it commits, its commit fails, or it is given up. -/
structure Ends (a : Adapter σ η) (id : Nat) (s : Labelled σ η) (old new : Contents) : Prop where
  commits : (a.finish id true s.store).1 = .ok () →
    Shows a (s.withStore (a.finish id true s.store).2) new
  fails : ∀ fault, (a.finish id true s.store).1 = .error fault →
    Shows a (s.withStore (a.finish id true s.store).2) old
  gives : (a.finish id false s.store).1 = .ok () ∧
    Shows a (s.withStore (a.finish id false s.store).2) old

theorem Ends.settles {ops : List Operation} {old new : Contents}
    (ends : Ends a id (after a s ops) old new)
    (given : (after a s ops).transactions = (tx, id) :: labels)
    (later : (after a s (ops ++ [.setLock .none])).transactions = (tx, id) :: labels)
    (unlocked : (a.finish id true (after a s (ops ++ [.setLock .none])).store).1 = .ok ()) :
    Settles a s tx ops old new := by
  constructor
  · rw [finish_of_labels given]
    intro done
    obtain ⟨_, ended, -⟩ := map_eq_ok_iff.mp done
    exact ends.commits ended
  · rw [finish_of_labels given]
    intro fault refused
    cases ended : (a.finish id true (after a s ops).store).1 with
    | ok _ =>
      rw [ended] at refused
      cases refused
    | error other => exact ends.fails other ended
  · rw [abort_of_labels given, ends.gives.1]
    exact ⟨rfl, ends.gives.2⟩
  · rw [finish_of_labels later, unlocked]
    rfl

end

end Cellstore.Store
