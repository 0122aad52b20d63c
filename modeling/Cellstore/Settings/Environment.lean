import Cellstore.Json.Reader
import Cellstore.Number.Reading
import Cellstore.Settings

/-! Settings from environment variables.
A section is one variable with a JSON object, and each of its fields can be a variable of
its own, which goes before the object. Names count in any case. -/
namespace Cellstore.Settings
open Json (Value)

abbrev Members := List (String × Value)

inductive Misfit where
  | notOneOf
  | pattern
  | notNumber
  | notInteger
  | tooLong
  | tooSmall
  | belowLeast
  | tooLarge
  | notSection
  | notPath
  | notString
  | notUnicode
  | numberExpected
  | integerExpected
  | fractional
  | notFinite
  deriving DecidableEq, Repr

def Misfit.label : Misfit → String
  | .notOneOf => "literal_error"
  | .pattern => "string_pattern_mismatch"
  | .notNumber => "float_parsing"
  | .notInteger => "int_parsing"
  | .tooLong => "int_parsing_size"
  | .tooSmall => "greater_than"
  | .belowLeast => "greater_than_equal"
  | .tooLarge => "less_than_equal"
  | .notSection => "model_type"
  | .notPath => "path_type"
  | .notString => "string_type"
  | .notUnicode => "string_unicode"
  | .numberExpected => "float_type"
  | .integerExpected => "int_type"
  | .fractional => "int_from_float"
  | .notFinite => "finite_number"

inductive VariableFault where
  | unnamed
  | illegalName
  | embeddedNull
  deriving DecidableEq, Repr

def VariableFault.message : VariableFault → String
  | .unnamed => "[Errno 22] Invalid argument"
  | .illegalName => "illegal environment variable name"
  | .embeddedNull => "embedded null byte"

inductive Fault where
  | unstorable (fault : VariableFault)
  | unreadable (section_ : String)
  | tooDeep (section_ : String)
  | invalid (misfits : List (String × Misfit))
  deriving DecidableEq, Repr

/-! ### Values of fields -/

/-- The text of a string value. Half a surrogate pair is no text. -/
def textOf (v : Value) : Except Misfit String :=
  match v with
  | .string s => match Json.textOf? s with
    | some cs => .ok (String.ofList cs)
    | none => .error .notUnicode
  | _ => .error .notString

def pathOf (v : Value) : Except Misfit Path :=
  match textOf v with
  | .ok s => .ok (Path.ofText s)
  | .error _ => .error .notPath

def isSuffixLetter (c : Char) : Bool := c.isAlphanum || c == '_'

/-- A suffix is a point and at least one letter, digit or underscore. -/
def isSuffix (s : List Char) : Bool :=
  match s with
  | '.' :: c :: rest => (c :: rest).all isSuffixLetter
  | _ => false

def suffixOf (v : Value) : Except Misfit String :=
  match textOf v with
  | .ok s => if isSuffix s.toList then .ok s else .error .pattern
  | .error misfit => .error misfit

def choiceOf {α : Type} (label : α → String) (choices : List α) (v : Value) : Except Misfit α :=
  match textOf v with
  | .error .notUnicode => .error .notUnicode
  | .error _ => .error .notOneOf
  | .ok s => match choices.find? fun c => label c == s with
    | some c => .ok c
    | none => .error .notOneOf

def numberOf (v : Value) : Except Misfit Binary64 :=
  match v with
  | .string _ => do
    match Number.binary64? (← textOf v) with
    | some x => return x
    | none => throw .notNumber
  | .integer n => match Binary64.ofInt n with
    | .finite negative m e => .ok (.finite negative m e)
    | _ => .error .numberExpected
  | .decimal negative digits exponent => .ok (Binary64.ofDecimal negative digits exponent)
  | .special .nan => .ok .nan
  | .special .infinity => .ok (.infinity false)
  | .special .negativeInfinity => .ok (.infinity true)
  | .bool b => .ok (Binary64.ofInt (if b then 1 else 0))
  | _ => .error .numberExpected

/-- The longest time to wait for a lock, in seconds. -/
def timeoutLimit : Nat := 300

def timeoutOf (v : Value) : Except Misfit Binary64 :=
  match numberOf v with
  | .error misfit => .error misfit
  | .ok x =>
    if !x.isAtMost timeoutLimit then .error .tooLarge
    else if x.isAtMost 0 then .error .tooSmall
    else .ok x

def integerMisfit : Number.IntegerFault → Misfit
  | .malformed => .notInteger
  | .tooLong => .tooLong

/-- An integer as it is written in JSON. A number with a point counts if it has no fraction
and fits in 64 bits. -/
def integerOf (v : Value) : Except Misfit Int :=
  match v with
  | .string _ => do (Number.integer (← textOf v)).mapError integerMisfit
  | .integer n => .ok n
  | .bool b => .ok (if b then 1 else 0)
  | .decimal negative digits exponent => match Binary64.ofDecimal negative digits exponent with
    | .finite negative m e => match Binary64.whole? m e with
      | some n =>
        if n < 0x8000000000000000 then .ok (if negative then -(n : Int) else n)
        else .error .tooLong
      | none => .error .fractional
    | _ => .error .notFinite
  | .special _ => .error .notFinite
  | _ => .error .integerExpected

def optionOf {α : Type} (read : Value → Except Misfit α) (v : Value) : Except Misfit (Option α) :=
  match v with
  | .null => .ok none
  | _ => (read v).map some

def portLimit : Nat := 65535

def portOf (v : Value) : Except Misfit Nat :=
  match integerOf v with
  | .error misfit => .error misfit
  | .ok n =>
    if portLimit < n then .error .tooLarge
    else if n < 1 then .error .belowLeast
    else .ok n.toNat

/-! ### Sections -/

/-- Sets a member: one that is there keeps its place. -/
def set (m : Members) (name : String) (v : Value) : Members :=
  if m.any (fun e => e.1 == name) then m.map fun e => if e.1 == name then (name, v) else e
  else m ++ [(name, v)]

/-- Lower case as far as names of variables need it. -/
def lower (s : String) : String :=
  String.ofList (s.toList.map fun c => if c = '\u212a' then 'k' else c.toLower)

/-- The parts of a name between double underscores. -/
def nameParts : List Char → List (List Char)
  | '_' :: '_' :: rest => [] :: nameParts rest
  | [] => [[]]
  | c :: rest => match nameParts rest with
    | [] => [[c]]
    | part :: more => (c :: part) :: more

def afterLead? (lead name : String) : Option (List Char) :=
  if lead.toList.isPrefixOf name.toList then some (name.toList.drop lead.length) else none

/-- Adds the variable of one field. A name with more parts makes the field an object, unless
it has a value already. -/
def addVariable (m : Members) (parts : List (List Char)) (value : String) : Members :=
  match parts with
  | [] => m
  | [part] => set m (String.ofList part) (.string (Json.units value))
  | part :: _ =>
    let name := String.ofList part
    if m.any (fun e => e.1 == name) then m else set m name (.object [])

/-- Variables by their lower-case names, the later of two with one name. -/
def variablesOf (environment : List (String × String)) : List (String × String) :=
  environment.foldl (fun all e =>
    let name := lower e.1
    if all.any (fun d => d.1 == name) then all.map fun d => if d.1 == name then (name, e.2) else d
    else all ++ [(name, e.2)]) []

def fieldVariables (vars : List (String × String)) (lead : String) : Members :=
  vars.foldl (fun m e => match afterLead? lead e.1 with
    | some rest => addVariable m (nameParts rest) e.2
    | none => m) []

/-- The members of an object by lower-case name, of several with one name the last. -/
def fieldsOf (m : Members) : Members := m.foldl (fun all e => set all (lower e.1) e.2) []

def membersOf (object : List (Json.Units × Value)) : Members :=
  object.foldl (fun m e => match Json.textOf? e.1 with
    | some cs => set m (String.ofList cs) e.2
    | none => m) []

/-- What the variables say about a section: its members, or a value that is no object. -/
def sectionOf [Json.Room] (vars : List (String × String)) (name : String) :
    Except Fault (Except Misfit Members) :=
  let lead := "kvsql_" ++ name
  let single := fieldVariables vars (lead ++ "__")
  match vars.lookup lead with
  | none => .ok (.ok (fieldsOf single))
  | some text => match Json.read text with
    | .error .malformed => .error (.unreadable name)
    | .error (.tooDeep _) => .error (.tooDeep name)
    | .ok .null => .ok (.ok [])
    | .ok (.object members) =>
      .ok (.ok (fieldsOf (single.foldl (fun m e => set m e.1 e.2) (membersOf members))))
    | .ok _ => .ok (.error .notSection)

def field {α : Type} (m : Members) (name : String) (default : α)
    (read : Value → Except Misfit α) : Except Misfit α :=
  match m.lookup name with
  | some v => read v
  | none => .ok default

def misfit {α : Type} (place : String) : Except Misfit α → List (String × Misfit)
  | .ok _ => []
  | .error m => [(place, m)]

abbrev Reading (α : Type) := Except (List (String × Misfit)) α

def readStorage (m : Members) (d : StorageSettings) : Reading StorageSettings :=
  let directory := field m "data_dir" d.dataDirectory pathOf
  let suffix := field m "file_suffix" d.suffix suffixOf
  let backend := field m "backend" d.backend (choiceOf Backend.label [.file, .memory])
  let timeout := field m "lock_timeout_seconds" d.lockTimeout timeoutOf
  match directory, suffix, backend, timeout with
  | .ok directory, .ok suffix, .ok backend, .ok timeout => .ok ⟨directory, suffix, backend, timeout⟩
  | _, _, _, _ => .error (misfit "storage.backend" backend ++ misfit "storage.data_dir" directory ++
      misfit "storage.file_suffix" suffix ++ misfit "storage.lock_timeout_seconds" timeout)

def readShell (m : Members) (d : ShellSettings) : Reading ShellSettings :=
  match field m "prompt" d.prompt textOf with
  | .ok prompt => .ok ⟨prompt⟩
  | .error m => .error [("shell.prompt", m)]

def readObservability (m : Members) (d : ObservabilitySettings) : Reading ObservabilitySettings :=
  let level := field m "log_level" d.logLevel (choiceOf Log.Level.name Log.Level.all)
  let format := field m "log_format" d.logFormat (choiceOf LogFormat.label [.json, .console])
  let endpoint := field m "otel_endpoint" d.endpoint (optionOf textOf)
  let service := field m "otel_service_name" d.serviceName textOf
  let port := field m "metrics_port" d.metricsPort (optionOf portOf)
  match level, format, endpoint, service, port with
  | .ok level, .ok format, .ok endpoint, .ok service, .ok port =>
    .ok ⟨level, format, endpoint, service, port⟩
  | _, _, _, _, _ => .error (misfit "observability.log_format" format ++
      misfit "observability.log_level" level ++ misfit "observability.metrics_port" port ++
      misfit "observability.otel_endpoint" endpoint ++
      misfit "observability.otel_service_name" service)

/-- A section whose value is no object is one misfit as a whole. -/
def readSection {α : Type} (name : String) (members : Except Misfit Members)
    (read : Members → Reading α) : Reading α :=
  match members with
  | .ok m => read m
  | .error m => .error [(name, m)]

def misfitsOf {α : Type} : Reading α → List (String × Misfit)
  | .ok _ => []
  | .error misfits => misfits

def variableFault? (v : String × String) : Option VariableFault :=
  if '\x00' ∈ v.1.toList ∨ '\x00' ∈ v.2.toList then some .embeddedNull
  else if '=' ∈ v.1.toList then some .illegalName
  else if v.1 = "" then some .unnamed
  else none

def ofEnvironment [Json.Room] (environment : List (String × String)) :
    Except Fault Settings := do
  if let some fault := environment.findSome? variableFault? then throw (.unstorable fault)
  let vars := variablesOf environment
  let storage ← sectionOf vars "storage"
  let shell ← sectionOf vars "shell"
  let observability ← sectionOf vars "observability"
  let storage := readSection "storage" storage fun m => readStorage m default.storage
  let shell := readSection "shell" shell fun m => readShell m default.shell
  let observability := readSection "observability" observability fun m =>
    readObservability m default.observability
  match storage, shell, observability with
  | .ok storage, .ok shell, .ok observability => return ⟨storage, shell, observability⟩
  | _, _, _ => throw (.invalid (misfitsOf observability ++ misfitsOf shell ++ misfitsOf storage))

end Cellstore.Settings
