import Cellstore.Log
import Cellstore.Path
import Cellstore.Text.Digit
import Cellstore.Text.Quoted

/-! The command line.
Long options may be shortened as long as one option fits, and take their argument after an
equals sign or as the next word; short options also take it directly. A double dash that is
the argument itself leaves the option without a value. -/
namespace Cellstore.CommandLine

inductive Flag where
  | help
  | dataDirectory
  | database
  | execute
  | logLevel
  | version
  deriving DecidableEq, Repr

/-- The names of the options in the order in which messages list them. -/
def names : List (String × Flag) := [
  ("-h", .help), ("--help", .help), ("--data-dir", .dataDirectory), ("--database", .database),
  ("-e", .execute), ("--execute", .execute), ("--log-level", .logLevel), ("--version", .version)]

def Flag.title (f : Flag) : String :=
  "/".intercalate ((names.filter fun n => n.2 == f).map (·.1))

def Flag.takesArgument : Flag → Bool
  | .help => false
  | .version => false
  | _ => true

inductive Fault where
  | ambiguous (text : String) (matching : List String)
  | argumentExpected (f : Flag)
  | argumentIgnored (f : Flag) (text : String)
  | noSuchLevel (name : String)
  | unrecognized (texts : List String)
  deriving DecidableEq, Repr

def Fault.message : Fault → String
  | .ambiguous text matching =>
    s!"ambiguous option: {text} could match " ++ ", ".intercalate matching
  | .argumentExpected f => s!"argument {f.title}: expected one argument"
  | .argumentIgnored f text =>
    s!"argument {f.title}: ignored explicit argument {Text.Quoted.text text}"
  | .noSuchLevel name =>
    s!"argument {Flag.logLevel.title}: invalid choice: {Text.Quoted.text name} (choose from " ++
      ", ".intercalate (Log.Level.all.map fun l => Text.Quoted.text l.name) ++ ")"
  | .unrecognized texts => "unrecognized arguments: " ++ " ".intercalate texts

inductive Word where
  | plain (text : String)
  /-- The double dash, after which all words are plain. -/
  | separator
  | option (short : Bool) (f : Flag) (argument : Option String)
  /-- It looks like an option, but there is none of that name. -/
  | unknown (text : String)
  deriving DecidableEq, Repr

def splitArgument (s : List Char) : List Char × Option String :=
  (s.takeWhile (· ≠ '='),
    match s.dropWhile (· ≠ '=') with
    | [] => none
    | _ :: rest => some (String.ofList rest))

def isShort (name : List Char) : Bool := (name.drop 1).head? != some '-'

def candidates (s : List Char) : List (String × Flag × Option String) :=
  match s with
  | '-' :: '-' :: _ =>
    let (lead, argument) := splitArgument s
    (names.filter fun n => lead.isPrefixOf n.1.toList).map fun n => (n.1, n.2, argument)
  | _ =>
    (names.filter fun n => n.1.toList == s.take 2).map fun n =>
      (n.1, n.2, some (String.ofList (s.drop 2)))

/-- A number below zero is no option. A line feed may end it. -/
def isNegativeNumber (s : List Char) : Bool :=
  match s with
  | '-' :: rest =>
    let rest := if rest.getLast? = some '\n' then rest.dropLast else rest
    let whole := rest.takeWhile Text.isDecimalDigit
    match rest.dropWhile Text.isDecimalDigit with
    | [] => !whole.isEmpty
    | '.' :: places => !places.isEmpty && places.all Text.isDecimalDigit
    | _ => false
  | _ => false

def classifyDashed (text : String) : Except Fault Word :=
  let s := text.toList
  let (lead, argument) := splitArgument s
  match argument, names.lookup (String.ofList lead) with
  | some argument, some f => .ok (.option (isShort lead) f (some argument))
  | _, _ => match candidates s with
    | [(_, f, argument)] => .ok (.option (isShort s) f argument)
    | [] => .ok (if isNegativeNumber s ∨ ' ' ∈ s then .plain text else .unknown text)
    | several => .error (.ambiguous text (several.map (·.1)))

def classify (text : String) : Except Fault Word :=
  match names.lookup text with
  | some f => .ok (.option (isShort text.toList) f none)
  | none => match text.toList with
    | '-' :: _ :: _ => classifyDashed text
    | _ => .ok (.plain text)

def words : List String → Except Fault (List Word)
  | [] => .ok []
  | text :: rest =>
    if text = "--" then .ok (.separator :: rest.map .plain)
    else do return (← classify text) :: (← words rest)

inductive Given (α : Type) where
  | nothing
  | value (a : α)
  deriving DecidableEq, Repr

namespace Given

variable {α β : Type}

def ofAttached (text : String) : Given String := if text = "--" then .nothing else .value text

def map (f : α → β) : Given α → Given β
  | .nothing => .nothing
  | .value a => .value (f a)

def value? : Given α → Option α
  | .nothing => none
  | .value a => some a

end Given

structure Arguments where
  dataDirectory : Option (Given Path)
  database : Option String
  /-- Statements to run in place of the shell. -/
  statements : List (Given String)
  logLevel : Option (Given Log.Level)

inductive Stop where
  | fault (f : Fault)
  | help
  | version
  deriving DecidableEq, Repr

/-- The option that gets what is attached to the option `f`, with what is left of that. The
text attached to a short option without argument is read as further short options. -/
def lastOption (short : Bool) (f : Flag) (attached : List Char) :
    Except Fault (Flag × Option String) :=
  if f.takesArgument then .ok (f, some (String.ofList attached))
  else match attached with
    | [] => .error (.argumentIgnored f "")
    | c :: rest => match short, names.lookup (String.ofList ['-', c]) with
      | true, some g => if rest.isEmpty then .ok (g, none) else lastOption true g rest
      | _, _ => .error (.argumentIgnored f (String.ofList attached))

namespace Arguments

def empty : Arguments := ⟨none, none, [], none⟩

def set (a : Arguments) (f : Flag) (given : Given String) : Except Stop Arguments :=
  match f with
  | .dataDirectory => .ok { a with dataDirectory := some (given.map Path.ofText) }
  | .database => .ok { a with database := given.value? }
  | .execute => .ok { a with statements := a.statements ++ [given] }
  | .logLevel => match given with
    | .nothing => .ok { a with logLevel := some .nothing }
    | .value text =>
      let name := Text.upperText text
      match Log.Level.all.find? fun l => l.name == name with
      | some l => .ok { a with logLevel := some (.value l) }
      | none => .error (.fault (.noSuchLevel name))
  | .help => .error .help
  | .version => .error .version

/-- Takes in words, and collects those that have no place. Of several short options in one
word the first one is the only that counts, since it ends the program. -/
def take (a : Arguments) (extras : List String) : List Word → Except Stop (Arguments × List String)
  | [] => .ok (a, extras)
  | .plain text :: rest => take a (extras ++ [text]) rest
  | .separator :: rest => take a (extras ++ ["--"]) rest
  | .unknown text :: rest => take a (extras ++ [text]) rest
  | .option short f attached :: rest =>
    let last := match attached with
      | some text => lastOption short f text.toList
      | none => .ok (f, none)
    match last with
    | .error fault => .error (.fault fault)
    | .ok (_, some text) => match a.set f (.ofAttached text) with
      | .ok a => take a extras rest
      | .error stop => .error stop
    | .ok (g, none) =>
      if g.takesArgument then
        match rest with
        | .plain text :: rest => match a.set f (.value text) with
          | .ok a => take a extras rest
          | .error stop => .error stop
        | _ => .error (.fault (.argumentExpected g))
      else match a.set f .nothing with
        | .ok a => take a extras rest
        | .error stop => .error stop

end Arguments

def read (texts : List String) : Except Stop Arguments :=
  match words texts with
  | .error fault => .error (.fault fault)
  | .ok ws => match Arguments.empty.take [] ws with
    | .error stop => .error stop
    | .ok (a, []) => .ok a
    | .ok (_, extras) => .error (.fault (.unrecognized extras))

end Cellstore.CommandLine
