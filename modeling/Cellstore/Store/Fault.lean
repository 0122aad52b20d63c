import Cellstore.Text.Quoted

/-! What can go wrong with a key-value store and with the opening of one. -/
namespace Cellstore

inductive Trouble where
  /-- Another process holds a lock on the file. -/
  | locked
  | connectionClosed
  | notDatabase
  | cannotOpenFile
  /-- Something else stands where the file or its journal should. -/
  | inputOutput
  | readOnlyFile
  | noSuchMode (option value : String)
  | modeNotAllowed (value : String)
  | noSuchSystem (name : String)
  deriving DecidableEq, Repr

def Trouble.message : Trouble → String
  | .locked => "database is locked"
  | .connectionClosed => "Cannot operate on a closed database."
  | .notDatabase => "file is not a database"
  | .cannotOpenFile => "unable to open database file"
  | .inputOutput => "disk I/O error"
  | .readOnlyFile => "attempt to write a readonly database"
  | .noSuchMode option value => s!"no such {option} mode: {value}"
  | .modeNotAllowed value => s!"access mode not allowed: {value}"
  | .noSuchSystem name => s!"no such vfs: {name}"

inductive StoreFault where
  | bucketNotFound (name : String)
  /-- A write inside a view. -/
  | readOnly
  | closed (path : String)
  /-- A transaction is begun inside another one. -/
  | nested
  /-- A handle is used after its transaction. -/
  | finished
  | unnamedBucket
  | operation (trouble : Trouble)
  | beginning (trouble : Trouble)
  | commit (trouble : Trouble)
  | opening (path : String) (trouble : Trouble)
  | directory (path : String)
  | nameTooLong (path : String)
  | embeddedNull
  deriving DecidableEq, Repr

def StoreFault.message : StoreFault → String
  | .bucketNotFound name => s!"bucket '{name}' not found"
  | .readOnly => "cannot write inside a read-only transaction"
  | .closed path => s!"store {path} is closed"
  | .nested => "a transaction is already in progress"
  | .finished => "transaction has already finished"
  | .unnamedBucket => "bucket name required"
  | .operation trouble => s!"storage operation failed: {trouble.message}"
  | .beginning trouble => s!"cannot begin transaction: {trouble.message}"
  | .commit trouble => s!"COMMIT failed: {trouble.message}"
  | .opening path trouble => s!"cannot open {path}: {trouble.message}"
  | .directory path => s!"path points to a directory, expected a file: {path}"
  | .nameTooLong path => s!"[Errno 36] File name too long: {Text.Quoted.text path}"
  | .embeddedNull => "embedded null byte"

inductive OpenFault where
  | store (fault : StoreFault)
  /-- The data directory is a file. -/
  | fileExists (path : String)
  /-- The data directory lies below a file. -/
  | notDirectory (path : String)
  deriving DecidableEq, Repr

def OpenFault.message : OpenFault → String
  | .store fault => fault.message
  | .fileExists path => s!"[Errno 17] File exists: {Text.Quoted.text path}"
  | .notDirectory path => s!"[Errno 20] Not a directory: {Text.Quoted.text path}"

end Cellstore
