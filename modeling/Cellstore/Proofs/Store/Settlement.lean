import Cellstore.Proofs.Store.FileBlock
import Cellstore.Proofs.Store.MemoryBlock

/-! How a block takes effect.
Whatever is called inside it, what a later opening shows depends on the end of the block only: after a
normal end the writes of the block, all of them, and after any other end none. In a file there is one
gap. If the store is closed inside an update, the update is lost, and its end says nothing. -/
namespace Cellstore.Store

/-- Whatever is called inside a block, its end decides between all of its writes and none. A view has
no writes, and in a file an update has none either once the store was closed inside it. Afterwards the
store is at rest again, and the next block may begin. -/
theorem blocks_take_effect_by_their_end (writable : Bool) (tx : String) (ops : List Operation)
    (plain : ∀ op ∈ ops, op.isPlain = true) :
    (∀ s reply, Memory.AtRest s → (perform memoryAdapter s (.begin writable tx)).1 = .ok reply →
      Takes memoryAdapter true Memory.ledger (writable = true) s writable tx ops ∧
      ∀ last ∈ [.finish tx, .abort tx],
        Memory.AtRest (after memoryAdapter s (.begin writable tx :: ops ++ [last]))) ∧
    (∀ s reply, File.AtRest s → (perform fileAdapter s (.begin writable tx)).1 = .ok reply →
      Takes fileAdapter false File.ledger (writable = true ∧ .close ∉ ops) s writable tx ops ∧
      ∀ last ∈ [.finish tx, .abort tx],
        File.AtRest (after fileAdapter s (.begin writable tx :: ops ++ [last]))) :=
  ⟨fun _ _ rest begun => ⟨Memory.takes rest plain begun, rest.block plain begun⟩,
    fun _ _ rest begun => ⟨File.takes rest plain begun, rest.block plain begun⟩⟩

/-- A bucket is created and deleted, its old handle written to, and another is filled. -/
theorem blocks_take_effect_by_their_end_shelf :
    let ops : List Operation := [.create "t" "b" "x", .put "b" [1] [2], .deleteBucket "t" "x",
      .put "b" [3] [4], .begin true "u", .create "t" "c" "y", .nextSequence "c"]
    let s : Labelled File.State File.Handle := .ofStore (File.open_ "shelf")
    (∀ op ∈ ops, op.isPlain = true) ∧ File.AtRest s ∧
    Takes fileAdapter false File.ledger (true = true ∧ .close ∉ ops) s true "t" ops := by
  intro ops s
  have plain : ∀ op ∈ ops, op.isPlain = true := by simp [ops, Operation.isPlain]
  have rest : File.AtRest s := File.atRest_ofStore "shelf" .empty
  have begun : (perform fileAdapter s (.begin true "t")).1 = .ok (.flag true) := rfl
  exact ⟨plain, rest, ((blocks_take_effect_by_their_end true "t" ops plain).2 s _ rest begun).1⟩

/-- In a file the end of an update reports success although its writes are lost. -/
theorem closed_update_is_lost :
    ¬ ∀ (tx : String) (ops : List Operation) (s : Labelled File.State File.Handle) (reply : Reply),
      (∀ op ∈ ops, op.isPlain = true) → File.AtRest s →
      (perform fileAdapter s (.begin true tx)).1 = .ok reply →
      Takes fileAdapter false File.ledger (true = true) s true tx ops := by
  intro all
  let ops : List Operation := [.create "t" "b" "x", .close]
  have plain : ∀ op ∈ ops, op.isPlain = true := by simp [ops, Operation.isPlain]
  obtain ⟨old, new, -, settles, lists, -⟩ :=
    all "t" ops (.ofStore (File.open_ "store")) (.flag true) plain
      (File.atRest_ofStore "store" .empty) rfl
  have shown : ([.ok .done, .ok .done, .ok (.contents .empty)] : List (Except StoreFault Reply)) =
      [.ok .done, .ok .done, .ok (.contents new)] := settles.normal rfl
  cases shown
  have written : (none : Option Int) = some 0 := (lists rfl).counters "x"
  cases written

end Cellstore.Store
