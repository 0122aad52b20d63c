import Cellstore.Proofs.Statement.Grammar

/-! Clauses further along in a statement.
What a reader gives does not depend on the text before its tokens: values are cut out of the
statement, but the cuts move along with the tokens. -/
namespace Cellstore.Statement
open Cellstore.Token (Kind moved)

variable {α : Type}

def later (k : Nat) (r : α × Tokens) : α × Tokens := (r.1, r.2.map (moved k))

/-- A reader does not depend on the text before its tokens. -/
def Moves (read : List Char → Tokens → Except Cause (α × Tokens)) : Prop :=
  ∀ lead s ts, read (lead ++ s) (ts.map (moved lead.length)) = (read s ts).map (later lead.length)

theorem name?_moved (k : Nat) (t : Token) : (moved k t).name? = t.name? := rfl

theorem isKeyword_moved (k : Nat) (w : String) (t : Token) :
    (moved k t).isKeyword w = t.isKeyword w := rfl

theorem found_moved (k : Nat) (ts : Tokens) : found (ts.map (moved k)) = found ts := by
  cases ts <;> rfl

theorem slice_moved (lead s : List Char) (first last : Token) :
    Token.slice (lead ++ s) (moved lead.length first) (moved lead.length last) =
      Token.slice s first last := by
  simp only [Token.slice, moved, Nat.add_sub_add_right]
  rw [Nat.add_comm, List.drop_length_add_append]

theorem valueOf_moved (lead s : List Char) (first : Token) (more : Tokens) :
    valueOf (lead ++ s) (moved lead.length first) (more.map (moved lead.length)) =
      valueOf s first more := by
  simp only [valueOf, List.getLast?_map]
  cases more.getLast? with
  | none =>
    simp only [Option.map_none, slice_moved]
    rfl
  | some last => simp only [Option.map_some, slice_moved]

theorem moves_name (what : String) : Moves fun _ => name what := by
  intro lead s ts
  cases ts with
  | nil => rfl
  | cons t ts =>
    simp only [name, List.map_cons, name?_moved]
    cases t.name? <;> rfl

theorem symbol_moved (k : Nat) (kind : Kind) (what : String) (ts : Tokens) :
    symbol kind what (ts.map (moved k)) = (symbol kind what ts).map (·.map (moved k)) := by
  have same : atKind kind (ts.map (moved k)) = atKind kind ts := by cases ts <;> rfl
  simp only [symbol, same, found_moved, ← List.map_tail]
  split_ifs <;> rfl

theorem moves_value {stop : Token → Bool} (stays : ∀ k t, stop (moved k t) = stop t) :
    Moves fun s => value s stop := by
  intro lead s ts
  have same : (fun t => !stop t) ∘ moved lead.length = fun t => !stop t := by
    funext t
    simp [stays]
  simp only [value, List.takeWhile_map, List.dropWhile_map, same, found_moved]
  cases ts.takeWhile fun t => !stop t with
  | nil => rfl
  | cons t more => simp only [List.map_cons, valueOf_moved, Except.map, later]

theorem moves_predicate : Moves predicate := by
  intro lead s ts
  have named := moves_name "column name" lead s ts
  have valued := @moves_value endsComparedValue (fun _ _ => rfl) lead s
  simp only [predicate, bind, Except.bind] at named valued ⊢
  rw [named]
  cases name "column name" ts with
  | error e => rfl
  | ok r =>
    simp only [Except.map, later, symbol_moved]
    cases symbol .equals "'='" r.2 with
    | error e => rfl
    | ok after =>
      simp only [Except.map, valued]
      cases value s endsComparedValue after <;> rfl

theorem listing_moved {item : List Char → Tokens → Except Cause (α × Tokens)}
    {more : List Char → Tokens → Except Cause (List α × Tokens)} (first : Moves item)
    {lead s : List Char} {ts : Tokens}
    (others : ∀ a after, item s ts = .ok (a, after) →
      more (lead ++ s) (after.map (moved lead.length)) = (more s after).map (later lead.length)) :
    listing (item (lead ++ s)) (more (lead ++ s)) (ts.map (moved lead.length)) =
      (listing (item s) (more s) ts).map (later lead.length) := by
  simp only [Statement.listing, bind, Except.bind]
  rw [first]
  cases read : item s ts with
  | error e => rfl
  | ok r =>
    simp only [Except.map, later]
    rw [others r.1 r.2 read]
    cases more s r.2 <;> rfl

theorem moves_morePredicates : Moves morePredicates := by
  intro lead s ts
  induction size : ts.length using Nat.strongRecOn generalizing ts with
  | _ length ih =>
    subst size
    cases ts with
    | nil => simp [morePredicates, Except.map, later]
    | cons t ts =>
      by_cases word : t.isKeyword "AND" = true
      · have wordMoved : (moved lead.length t).isKeyword "AND" = true := word
        rw [List.map_cons, (goesOn_predicates _).step _ _ wordMoved,
          (goesOn_predicates s).step t ts word]
        refine listing_moved moves_predicate fun p after read => ih after.length ?_ after rfl
        have shorter := predicate_shortens read
        simp only [List.length_cons]
        omega
      · have stops : ∀ u ∈ (t :: ts).head?, u.isKeyword "AND" = false := by simpa using word
        have stopsMoved : ∀ u ∈ ((t :: ts).map (moved lead.length)).head?,
            u.isKeyword "AND" = false := by simpa [isKeyword_moved] using word
        rw [(goesOn_predicates _).stop _ stops, (goesOn_predicates _).stop _ stopsMoved]
        rfl

theorem moves_conditions : Moves conditions := by
  intro lead s ts
  exact listing_moved moves_predicate fun p after _ => moves_morePredicates lead s after

theorem finish_moved (k : Nat) (ts : Tokens) : finish (ts.map (moved k)) = finish ts := by
  have same : atKind .semicolon (ts.map (moved k)) = atKind .semicolon ts := by cases ts <;> rfl
  simp only [finish, same, ← List.map_tail, ← apply_ite (List.map (moved k)), List.isEmpty_map,
    found_moved]


end Cellstore.Statement
