import Cellstore.CellKey
import Cellstore.Json.Reader
import Cellstore.Statement.Fault
import Cellstore.Store.Fault

/-! Failures of statements and commands, from reading to storage.
Most of them are reported, and the next statement goes on. A database that cannot be opened
ends the program, and a table whose contents do not fit its layout escapes as well. -/
namespace Cellstore

inductive Failure where
  | statement (fault : Statement.Fault)
  /-- No rule says how to run a command of this type. -/
  | unsupported (type : String)
  | invalidDatabaseName (name : String)
  | noDatabase
  | noTable (table : String)
  | storage (fault : StoreFault)
  | closing (database : String) (fault : StoreFault)
  | opening (database : String) (fault : OpenFault)
  | key (fault : KeyFault)
  | column (fault : ColumnFault)
  | undecodable (failure : Text.Utf8.Failure)
  | nesting (b : Json.Bracket)
  /-- A database is wanted, and there is no directory for it. -/
  | noDataDirectory
  deriving DecidableEq, Repr

namespace Failure

inductive Kind where
  | querySyntax
  | unknownCommand
  | unsupported
  | schema
  | tableNotFound
  | noActiveDatabase
  | storage
  | databaseOpen
  | invalidValue
  | undecodable
  | nesting
  | noDataDirectory
  deriving DecidableEq, Repr

def Kind.label : Kind → String
  | .querySyntax => "QuerySyntaxError"
  | .unknownCommand => "UnknownCommandError"
  | .unsupported => "KvSqlError"
  | .schema => "SchemaError"
  | .tableNotFound => "TableNotFoundError"
  | .noActiveDatabase => "NoActiveDatabaseError"
  | .storage => "StorageError"
  | .databaseOpen => "DatabaseOpenError"
  | .invalidValue => "ValueError"
  | .undecodable => "UnicodeDecodeError"
  | .nesting => "RecursionError"
  | .noDataDirectory => "TypeError"

def kind : Failure → Kind
  | .statement (.unknownCommand _) => .unknownCommand
  | .statement (.column _) => .invalidValue
  | .statement _ => .querySyntax
  | .unsupported _ => .unsupported
  | .invalidDatabaseName _ => .schema
  | .noDatabase => .noActiveDatabase
  | .noTable _ => .tableNotFound
  | .storage _ => .storage
  | .closing _ _ => .storage
  | .opening _ (.store .embeddedNull) => .invalidValue
  | .opening _ _ => .databaseOpen
  | .key _ => .invalidValue
  | .column _ => .invalidValue
  | .undecodable _ => .undecodable
  | .nesting _ => .nesting
  | .noDataDirectory => .noDataDirectory

def message : Failure → String
  | .statement fault => fault.message
  | .unsupported type => s!"unsupported command: {type}"
  | .invalidDatabaseName name => s!"invalid database name '{name}'"
  | .noDatabase => "No database selected"
  | .noTable table => s!"table '{table}' does not exist"
  | .storage fault => fault.message
  | .closing database fault => s!"cannot close database {database}: {fault.message}"
  | .opening _ (.store .embeddedNull) => StoreFault.embeddedNull.message
  | .opening database fault => s!"cannot open database {database}: {fault.message}"
  | .key fault => fault.message
  | .column fault => fault.message
  | .undecodable failure => failure.message
  | .nesting b =>
    s!"maximum recursion depth exceeded while decoding a JSON {b.label} from a unicode string"
  | .noDataDirectory => "no data directory"

/-- A failure of a store as failure of the command: a missing bucket is a missing table. -/
def ofStore : StoreFault → Failure
  | .bucketNotFound name => .noTable name
  | fault => .storage fault

end Failure

inductive Severity where
  /-- Into the result of the statement. -/
  | reported
  /-- To the end of the program, but it is still counted. -/
  | fatal
  /-- Out of the engine, and nothing counts it. -/
  | escaping
  deriving DecidableEq, Repr

def Failure.severity (f : Failure) : Severity :=
  match f.kind with
  | .databaseOpen => .fatal
  | .invalidValue => .escaping
  | .undecodable => .escaping
  | .nesting => .escaping
  | .noDataDirectory => .escaping
  | _ => .reported

end Cellstore
