import Cellstore.Filter
import Cellstore.Statement.Fault
import Cellstore.Token

/-! The clauses that statements are made of.
Every reader takes the tokens that are left and gives what it read with the tokens after
it, or the cause why there is no such clause at this place. -/
namespace Cellstore.Statement

abbrev Tokens := List Token

def found (ts : Tokens) : Option String := ts.head?.map (·.text)

def atKeyword (w : String) (ts : Tokens) : Bool := (ts.head?.map (·.isKeyword w)).getD false

def atKind (k : Token.Kind) (ts : Tokens) : Bool := (ts.head?.map (·.kind == k)).getD false

def keyword (w : String) (ts : Tokens) : Except Cause (Tokens) :=
  if atKeyword w ts then .ok ts.tail else .error (.expected w (found ts))

def symbol (k : Token.Kind) (what : String) (ts : Tokens) : Except Cause (Tokens) :=
  if atKind k ts then .ok ts.tail else .error (.expected what (found ts))

/-- A name; `what` tells in messages what it names. -/
def name (what : String) : Tokens → Except Cause (String × Tokens)
  | [] => .error (.expected what none)
  | t :: ts => match t.name? with
    | some n => .ok (n, ts)
    | none => .error (.expected what (some t.text))

def finish (ts : Tokens) : Except Cause Unit :=
  let rest := if atKind .semicolon ts then ts.tail else ts
  if rest.isEmpty then .ok () else .error (.unexpected (found rest))

/-- The value that a run of tokens writes: the content of a single quoted token, and
otherwise the characters of the statement as they stand. -/
def valueOf (source : List Char) (first : Token) (more : Tokens) : String :=
  match more.getLast? with
  | none => if first.isQuoted then first.text else Token.slice source first first
  | some last => Token.slice source first last

/-- A value: all tokens before one that satisfies `stop`, at least one. -/
def value (source : List Char) (stop : Token → Bool) (ts : Tokens) : Except Cause (String × Tokens) :=
  match ts.takeWhile fun t => !stop t with
  | [] => .error (.expected "a value" (found ts))
  | t :: more => .ok (valueOf source t more, ts.dropWhile fun t => !stop t)

def moreNames : Tokens → Except Cause (List String × Tokens)
  | [] => .ok ([], [])
  | t :: ts =>
    if t.kind = .comma then
      match ts with
      | [] => .error (.expected "column name" none)
      | u :: ts => match u.name? with
        | none => .error (.expected "column name" (some u.text))
        | some n => (moreNames ts).map fun r => (n :: r.1, r.2)
    else .ok ([], t :: ts)

def names (ts : Tokens) : Except Cause (List String × Tokens) := do
  let (first, ts) ← name "column name" ts
  let (more, ts) ← moreNames ts
  return (first :: more, ts)

def nameList (ts : Tokens) : Except Cause (List String × Tokens) := do
  let ts ← symbol .leftParen "'('" ts
  let (columns, ts) ← names ts
  let ts ← symbol .rightParen "')'" ts
  return (columns, ts)

def endsListedValue (t : Token) : Bool := t.kind == .comma || t.kind == .rightParen

def endsAssignedValue (t : Token) : Bool := t.kind == .comma || t.isKeyword "WHERE"

def endsComparedValue (t : Token) : Bool := t.kind == .semicolon || t.isKeyword "AND"

theorem value_shortens {source : List Char} {stop : Token → Bool} {ts rest : Tokens}
    {v : String} (h : value source stop ts = .ok (v, rest)) : rest.length < ts.length := by
  simp only [value] at h
  split at h
  · simp at h
  · rename_i t more shape
    simp only [Except.ok.injEq, Prod.mk.injEq] at h
    obtain ⟨_, same⟩ := h
    have parts := congrArg List.length (List.takeWhile_append_dropWhile
      (p := fun t => !stop t) (l := ts))
    rw [List.length_append, shape, same, List.length_cons] at parts
    omega

def moreValues (source : List Char) (ts : Tokens) : Except Cause (List String × Tokens) :=
  match ts with
  | [] => .ok ([], [])
  | t :: rest =>
    if t.kind = .comma then
      match _h : value source endsListedValue rest with
      | .error e => .error e
      | .ok (v, after) => (moreValues source after).map fun r => (v :: r.1, r.2)
    else .ok ([], t :: rest)
termination_by ts.length
decreasing_by
  have := value_shortens _h
  simp only [List.length_cons]
  omega

def valueList (source : List Char) (ts : Tokens) : Except Cause (List String × Tokens) := do
  let ts ← symbol .leftParen "'('" ts
  let (first, ts) ← value source endsListedValue ts
  let (more, ts) ← moreValues source ts
  let ts ← symbol .rightParen "')'" ts
  return (first :: more, ts)

def predicate (source : List Char) (ts : Tokens) : Except Cause (Predicate × Tokens) := do
  let (column, ts) ← name "column name" ts
  let ts ← symbol .equals "'='" ts
  let (v, ts) ← value source endsComparedValue ts
  return (⟨column, v⟩, ts)

theorem name_shortens {what n : String} {ts rest : Tokens}
    (h : name what ts = .ok (n, rest)) : rest.length < ts.length := by
  cases ts with
  | nil => simp [name] at h
  | cons t ts =>
    simp only [name] at h
    split at h
    · simp only [Except.ok.injEq, Prod.mk.injEq] at h
      simp [h.2]
    · simp at h

theorem symbol_shortens {k : Token.Kind} {what : String} {ts rest : Tokens}
    (h : symbol k what ts = .ok rest) : rest.length ≤ ts.length := by
  simp only [symbol] at h
  split at h
  · cases h
    simp
  · simp at h

theorem predicate_shortens {source : List Char} {ts rest : Tokens} {p : Predicate}
    (h : predicate source ts = .ok (p, rest)) : rest.length < ts.length := by
  simp only [predicate, bind, Except.bind, pure, Except.pure] at h
  split at h
  · simp at h
  · rename_i named hNamed
    split at h
    · simp at h
    · rename_i marked hMarked
      split at h
      · simp at h
      · rename_i valued hValued
        simp only [Except.ok.injEq, Prod.mk.injEq] at h
        obtain ⟨_, same⟩ := h
        have one := name_shortens (show name "column name" ts = .ok (named.1, named.2) from hNamed)
        have two := symbol_shortens hMarked
        have three := value_shortens
          (show value source endsComparedValue marked = .ok (valued.1, valued.2) from hValued)
        rw [← same]
        omega

def morePredicates (source : List Char) (ts : Tokens) : Except Cause (Filter × Tokens) :=
  match ts with
  | [] => .ok ([], [])
  | t :: rest =>
    if t.isKeyword "AND" then
      match _h : predicate source rest with
      | .error e => .error e
      | .ok (p, after) => (morePredicates source after).map fun r => (p :: r.1, r.2)
    else .ok ([], t :: rest)
termination_by ts.length
decreasing_by
  have := predicate_shortens _h
  simp only [List.length_cons]
  omega

def conditions (source : List Char) (ts : Tokens) : Except Cause (Filter × Tokens) := do
  let (first, ts) ← predicate source ts
  let (more, ts) ← morePredicates source ts
  return (first :: more, ts)

end Cellstore.Statement
