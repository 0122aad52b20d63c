/-! Paths of files and directories.
A path is a root and its parts. Repeated slashes and single dots vanish when a path is read;
double dots stay. -/
namespace Cellstore

/-- A part of a path: neither empty nor a single dot, and without a slash. -/
def IsPathPart (part : String) : Prop := part ≠ "" ∧ part ≠ "." ∧ '/' ∉ part.toList

instance (part : String) : Decidable (IsPathPart part) :=
  inferInstanceAs (Decidable (_ ∧ _ ∧ _))

/-- Where a path starts. Exactly two slashes are a root of their own; more are like one. -/
inductive Root where
  | relative
  | slash
  | doubleSlash
  deriving DecidableEq, Repr

structure Path where
  root : Root
  parts : List String
  areParts : ∀ part ∈ parts, IsPathPart part
  deriving DecidableEq

namespace Path

/-- The pieces between slashes, empty ones included. -/
def pieces : List Char → List (List Char)
  | [] => [[]]
  | c :: rest =>
    if c = '/' then [] :: pieces rest
    else match pieces rest with
      | [] => [[c]]
      | piece :: more => (c :: piece) :: more

def rootOf : List Char → Root
  | '/' :: '/' :: '/' :: _ => .slash
  | '/' :: '/' :: _ => .doubleSlash
  | '/' :: _ => .slash
  | _ => .relative

def ofText (text : String) : Path :=
  ⟨rootOf text.toList,
    ((pieces text.toList).map String.ofList).filter fun part => decide (IsPathPart part),
    fun _ h => of_decide_eq_true (List.mem_filter.mp h).2⟩

def Root.text : Root → String
  | .relative => ""
  | .slash => "/"
  | .doubleSlash => "//"

/-- The normal text of a path. The relative path without parts is a single dot. -/
def toText (p : Path) : String :=
  if p.root = .relative ∧ p.parts = [] then "."
  else Root.text p.root ++ "/".intercalate p.parts

/-- The second path, starting from the first one. A path with a root starts anew. -/
def join (p q : Path) : Path :=
  if q.root = .relative then
    ⟨p.root, p.parts ++ q.parts, fun part h =>
      (List.mem_append.mp h).elim (p.areParts part) (q.areParts part)⟩
  else q

def parent (p : Path) : Path :=
  ⟨p.root, p.parts.dropLast, fun part h => p.areParts part (List.dropLast_subset _ h)⟩

@[simp] theorem join_of_relative {p q : Path} (h : q.root = .relative) :
    (p.join q).root = p.root ∧ (p.join q).parts = p.parts ++ q.parts := by
  simp [join, h]

theorem pieces_of_no_slash {s : List Char} (h : '/' ∉ s) : pieces s = [s] := by
  induction s with
  | nil => rfl
  | cons c rest ih =>
    obtain ⟨here, there⟩ := not_or.mp (mt List.mem_cons.mpr h)
    simp [pieces, Ne.symm here, ih there]

theorem ofText_of_isPathPart {text : String} (h : IsPathPart text) :
    (ofText text).root = .relative ∧ (ofText text).parts = [text] := by
  refine ⟨?_, ?_⟩
  · obtain ⟨_, _, noSlash⟩ := h
    simp only [ofText]
    unfold rootOf
    split <;> rename_i shape <;> first | rfl | (rw [shape] at noSlash; simp at noSlash)
  · simp [ofText, pieces_of_no_slash h.2.2, h]

end Path
end Cellstore
