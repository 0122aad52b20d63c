import Cellstore.Grid
import Cellstore.Text.Blank

/-! The interactive shell.
It prompts, reads a line, runs it, and shows the result, until the exit command or the end
of the input. The database is closed however the loop ends. -/
namespace Cellstore

/-- What a shell talks to. An error of `execute` ends the shell. -/
structure Service (σ : Type) where
  execute : String → σ → Except Failure Result × σ
  close : σ → σ

def Engine.service [Json.Room] : Service Engine where
  execute text e := e.execute text
  close e := e.close.2

namespace Shell

/-- Lines with their ends; only a line feed ends a line. -/
def splitLines : List Char → List (List Char)
  | [] => []
  | c :: rest =>
    if c = '\n' then [c] :: splitLines rest
    else match splitLines rest with
      | [] => [[c]]
      | line :: lines => (c :: line) :: lines

/-- The exit command in any case, with or without semicolons after it. -/
def isExit (line : String) : Bool :=
  let s := Text.dropRightWhile (· == ';') (Text.trim line.toList)
  Text.upper (Text.trim s) == "EXIT".toList

structure Settings where
  prompt : String
  width : Int

inductive Ending where
  | normal
  | failed (failure : Failure)
  /-- A result row is longer than the headers, and cannot be shown. -/
  | unshowable
  deriving DecidableEq, Repr

structure Finish (σ : Type) where
  output : String
  ending : Ending
  service : σ

variable {σ : Type}

inductive Step (σ : Type) where
  | next (shown : String) (state : σ)
  | stop (ending : Ending) (state : σ)

def step (v : Service σ) (width : Int) (state : σ) (line : String) : Step σ :=
  if isExit line then .stop .normal state
  else match v.execute line state with
    | (.error failure, state) => .stop (.failed failure) state
    | (.ok result, state) => match Grid.render width result with
      | none => .stop .unshowable state
      | some text => .next text state

def loop (v : Service σ) (s : Settings) (state : σ) : List String → Finish σ
  | [] => ⟨s.prompt ++ "\n", .normal, state⟩
  | line :: rest => match step v s.width state line with
    | .stop ending state => ⟨s.prompt, ending, state⟩
    | .next text state =>
      let last := loop v s state rest
      { last with output := s.prompt ++ text ++ last.output }

def run (v : Service σ) (s : Settings) (state : σ) (lines : List String) : Finish σ :=
  let last := loop v s state lines
  { last with service := v.close last.service }

def runText (v : Service σ) (s : Settings) (state : σ) (input : String) : Finish σ :=
  run v s state ((splitLines input.toList).map String.ofList)

theorem splitLines_flatten (s : List Char) : (splitLines s).flatten = s := by
  induction s with
  | nil => rfl
  | cons c rest ih =>
    rw [splitLines]
    split
    · rw [List.flatten_cons, ih]
      rfl
    · split
      · rename_i none
        rw [none] at ih
        rw [← ih]
        rfl
      · rename_i line lines some
        rw [some, List.flatten_cons] at ih
        rw [List.flatten_cons, ← ih]
        rfl

end Shell
end Cellstore
