import Cellstore.Storage
import Cellstore.Text.Digit

/-! The stored form of a storage: lines of words.
A line names a directory, a blank or foreign file, a database, a bucket of the database
before it, or an entry of the bucket before it. Names and bytes are written in hexadecimal digits. -/
namespace Cellstore.Storage.Image
open Text (hexValue?)
open Text.Utf8 (encode decode hexByte)

def hex (bs : Bytes) : String := String.ofList (bs.flatMap hexByte)

def bytes? : List Char → Option Bytes
  | [] => some []
  | a :: b :: rest => do
    return UInt8.ofNat ((← hexValue? a) * 16 + (← hexValue? b)) :: (← bytes? rest)
  | [_] => none

def text? (word : String) : Option String := (bytes? word.toList).bind fun bs => (decode bs).toOption

inductive Line where
  | directory (name : String)
  | blank (name : String)
  | foreign (name : String)
  | database (name : String)
  | bucket (name : String) (sequence : Int)
  | entry (key value : Bytes)
  deriving DecidableEq, Repr

def Line.text : Line → String
  | .directory name => "directory " ++ hex (encode name)
  | .blank name => "blank " ++ hex (encode name)
  | .foreign name => "foreign " ++ hex (encode name)
  | .database name => "database " ++ hex (encode name)
  | .bucket name sequence => "bucket " ++ hex (encode name) ++ " " ++ toString sequence
  | .entry key value => "entry " ++ hex key ++ " " ++ hex value

def Line.ofText? (s : String) : Option Line :=
  match s.splitOn " " with
  | ["directory", name] => (text? name).map .directory
  | ["blank", name] => (text? name).map .blank
  | ["foreign", name] => (text? name).map .foreign
  | ["database", name] => (text? name).map .database
  | ["bucket", name, sequence] => do return .bucket (← text? name) (← sequence.toInt?)
  | ["entry", key, value] => do return .entry (← bytes? key.toList) (← bytes? value.toList)
  | _ => none

def bucketLines (name : String) (b : Bucket) : List Line :=
  .bucket name b.sequence :: b.entries.entries.map fun e => .entry e.1 e.2

def nodeLines (name : String) : Node → List Line
  | .directory => [.directory name]
  | .blank => [.blank name]
  | .foreign => [.foreign name]
  | .database c => .database name :: c.entries.flatMap fun e => bucketLines e.1 e.2

def lines (s : Storage) : List Line := s.disk.nodes.entries.flatMap fun e => nodeLines e.1 e.2

def write (s : Storage) : String := String.join ((lines s).map fun l => l.text ++ "\n")

/-- What was read so far: the database and the bucket that the next lines belong to. -/
structure Reading where
  disk : Disk
  database : String
  contents : Contents
  bucket : String

def take (r : Reading) : Line → Reading
  | .directory name => { r with disk := r.disk.set name .directory }
  | .blank name => { r with disk := r.disk.set name .blank }
  | .foreign name => { r with disk := r.disk.set name .foreign }
  | .database name => ⟨r.disk.set name (.database .empty), name, .empty, ""⟩
  | .bucket name sequence =>
    let contents := r.contents.insert name ⟨.empty, sequence⟩
    ⟨r.disk.set r.database (.database contents), r.database, contents, name⟩
  | .entry key value =>
    let b := (r.contents.get? r.bucket).getD Bucket.empty
    let contents := r.contents.insert r.bucket (b.put key value)
    ⟨r.disk.set r.database (.database contents), r.database, contents, r.bucket⟩

def read (text : String) : Option Storage := do
  let lines ← ((text.splitOn "\n").filter (· ≠ "")).mapM Line.ofText?
  return ⟨.file, (lines.foldl take ⟨.empty, "", .empty, ""⟩).disk⟩

end Cellstore.Storage.Image
