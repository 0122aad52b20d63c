import Cellstore.Store.Fault
import Cellstore.Text.Digit
import Cellstore.Text.Utf8

/-! Addresses of databases.
A database goes by the path of its file, or by an address: the word `file` with a colon, a
path, and options after a question mark. In an address, a percent sign with two hexadecimal
digits stands for a byte, and nothing counts from a number sign on. -/
namespace Cellstore
open Text (hexValue?)
open Text.Utf8 (encode decodeLossy)

inductive Mode where
  | read
  | write
  /-- Its file may be made as well. -/
  | create
  | memory
  deriving DecidableEq, Repr

namespace Mode

def ofText? : String → Option Mode
  | "ro" => some .read
  | "rw" => some .write
  | "rwc" => some .create
  | "memory" => some .memory
  | _ => none

def rank : Mode → Nat
  | .read => 0
  | .write => 1
  | .create => 2
  | .memory => 3

/-- May an option change the first mode to the second? It can only take access away, but
from memory any access goes. -/
def admits (m n : Mode) : Bool := n == .memory || n.rank ≤ m.rank

end Mode

structure Address where
  path : String
  mode : Mode
  /-- The database is in memory, and nothing else reaches it. -/
  isPrivate : Bool
  isReadOnly : Bool
  heedsLocks : Bool
  /-- Nobody writes to the file, so there is no journal to look for. -/
  isFixed : Bool
  deriving DecidableEq, Repr

namespace Address

/-- The bytes that a piece of an address writes. The byte zero ends the piece. -/
def bytes : List Char → Bytes
  | '%' :: a :: b :: rest =>
    match hexValue? a, hexValue? b with
    | some m, some n => if m + n = 0 then [] else UInt8.ofNat (m * 16 + n) :: bytes rest
    | _, _ => encode "%" ++ bytes (a :: b :: rest)
  | c :: rest => encode (String.ofList [c]) ++ bytes rest
  | [] => []

def piece (s : List Char) : String := decodeLossy (bytes s)

def cut (c : Char) (s : List Char) : List Char × List Char :=
  (s.takeWhile (· ≠ c), (s.dropWhile (· ≠ c)).drop 1)

/-- The options of an address, in order. Those without a name do not count. -/
def options (s : List Char) : List (String × String) :=
  let pairs := ((String.ofList s).splitOn "&").map fun o =>
    let (name, value) := cut '=' o.toList
    (piece name, piece value)
  pairs.filter fun o => o.1 ≠ ""

def modeAfter (m : Mode) : List (String × String) → Except Trouble Mode
  | [] => .ok m
  | (name, value) :: rest =>
    if name = "cache" ∧ value ≠ "shared" ∧ value ≠ "private" then .error (.noSuchMode name value)
    else if name = "mode" then
      match Mode.ofText? value with
      | none => .error (.noSuchMode "access" value)
      | some n => if m.admits n then modeAfter n rest else .error (.modeNotAllowed value)
    else modeAfter m rest

/-- Does an option say yes? A number does unless it is zero in eight bits. -/
def isTrue (value : String) : Bool :=
  let digits := value.toList.takeWhile Char.isDigit
  if digits.isEmpty then ["on", "yes", "true"].contains (String.ofList (value.toList.map Char.toLower))
  else
    let n := Nat.ofDigitChars 10 digits 0
    n < 0x80000000 && n % 256 != 0

/-- The ways to reach files, with those among them that heed no locks. -/
def systems : List (String × Bool) := [
  ("unix", true), ("unix-none", false), ("unix-dotfile", false), ("unix-excl", true),
  ("memdb", true)]

def ofParts (path : String) (options : List (String × String)) : Except Trouble Address := do
  let mode ← modeAfter .create options
  let system := ((options.filter fun o => o.1 = "vfs").getLast?.map (·.2)).getD "unix"
  let isSet := fun name => ((options.lookup name).map isTrue).getD false
  let inMemory := mode == .memory || path == "" || path == ":memory:"
  match systems.lookup system with
  | none => throw (.noSuchSystem system)
  | some heeds =>
    return {
      path, mode
      isPrivate := inMemory || system == "memdb"
      isReadOnly := mode == .read || isSet "immutable" && !inMemory
      heedsLocks := heeds && !isSet "nolock" && !isSet "immutable"
      isFixed := isSet "immutable" }

def ofText (text : String) : Except Trouble Address :=
  match text.toList with
  | 'f' :: 'i' :: 'l' :: 'e' :: ':' :: rest =>
    let (path, rest) := cut '?' (rest.takeWhile (· ≠ '#'))
    ofParts (piece path) (options rest)
  | _ => ofParts text []

end Address
end Cellstore
