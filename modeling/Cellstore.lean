import Cellstore.Text.Blank
import Cellstore.Text.Uppercase
import Cellstore.Text.Quoted
import Cellstore.KeyOrder
import Cellstore.SortedMap
import Cellstore.Token.Scan
import Cellstore.Statement
import Cellstore.Table.Script
import Cellstore.Store.Script
import Cellstore.Log
import Cellstore.ResultRow
import Cellstore.Main
import Cellstore.Proofs.SortedMap
import Cellstore.Proofs.Text.Utf8
import Cellstore.Proofs.Json
import Cellstore.Proofs.Json.Room
import Cellstore.Proofs.Table.CellKey
import Cellstore.Proofs.Table.Rows
import Cellstore.Proofs.Relational.Model
import Cellstore.Proofs.Relational.Encoding
import Cellstore.Proofs.Relational.Rows
import Cellstore.Proofs.Relational.Schema
import Cellstore.Proofs.Relational.Contents
import Cellstore.Proofs.Disk
import Cellstore.Proofs.Location
import Cellstore.Proofs.Relational.Refinement
import Cellstore.Proofs.Store.Contract
import Cellstore.Proofs.Store.Memory
import Cellstore.Proofs.Store.Tables
import Cellstore.Proofs.Store.File
import Cellstore.Proofs.Store.Usage
import Cellstore.Proofs.Store.Tracking
import Cellstore.Proofs.Store.Equivalence
import Cellstore.Proofs.Store.Atomicity
import Cellstore.Proofs.Store.Calls
import Cellstore.Proofs.Store.Blocks
import Cellstore.Proofs.Store.Commands
import Cellstore.Proofs.Token.Stream
import Cellstore.Proofs.Token.Pieces
import Cellstore.Proofs.Token.Scan
import Cellstore.Proofs.Statement.Grammar
import Cellstore.Proofs.Statement.Acceptance
import Cellstore.Proofs.Statement.Clauses
import Cellstore.Proofs.Statement.Quoting
import Cellstore.Proofs.Statement.Names
import Cellstore.Proofs.Table.Layout
import Cellstore.Proofs.Run
import Cellstore.Proofs.Statement.Phrase
import Cellstore.Proofs.Statement.Moved
import Cellstore.Proofs.Statement.Where
import Cellstore.Proofs.Table.Changes
import Cellstore.Proofs.Agreement
import Cellstore.Proofs.Token.Value
import Cellstore.Proofs.Token.Verbatim
import Cellstore.Proofs.Statement.Unquoted
import Cellstore.Proofs.Statement.WellFormed
import Cellstore.Proofs.Store.Deletion
import Cellstore.Proofs.Store.Strays
import Cellstore.Proofs.Table.RowIds
import Cellstore.Proofs.Fate
import Cellstore.Proofs.Numbering
import Cellstore.Proofs.Table.Damage
import Cellstore.Proofs.Damage
import Cellstore.Proofs.Store.Independence
import Cellstore.Proofs.Session
import Cellstore.Proofs.Store.Ledger
import Cellstore.Proofs.Store.Replay
import Cellstore.Proofs.Store.Ending
import Cellstore.Proofs.Store.MemoryBlock
import Cellstore.Proofs.Store.FileBlock
import Cellstore.Proofs.Store.Settlement
import Cellstore.Proofs.Token.Writing
import Cellstore.Proofs.Statement.NamePlaces
import Cellstore.Proofs.Statement.NameLeads
import Cellstore.Proofs.Statement.NameSpelling
import Cellstore.Proofs.Table.Scan
import Cellstore.Proofs.Table.Sheet
import Cellstore.Proofs.Table.Listing
import Cellstore.Proofs.Table.Declarations
import Cellstore.Proofs.Json.Fuel
import Cellstore.Proofs.Table.Frame
import Cellstore.Proofs.Store.Frame
import Cellstore.Proofs.Table.Repetition
import Cellstore.Proofs.Store.Repetition
import Cellstore.Proofs.Statement.ColumnLists
import Cellstore.Proofs.Token.Extension
import Cellstore.Proofs.Token.Semicolon
import Cellstore.Proofs.Statement.Ends
import Cellstore.Proofs.Statement.Semicolon
import Cellstore.Proofs.Engine.Attempt
import Cellstore.Proofs.Engine.Spans
import Cellstore.Proofs.Engine.Counters
import Cellstore.Proofs.Shell
import Cellstore.Proofs.Grid.Alignment
import Cellstore.Proofs.Grid.Limit
import Cellstore.Proofs.Statement.FirstToken
import Cellstore.Proofs.Store.Iteration
import Cellstore.Proofs.Table.OrderRecord
import Cellstore.Proofs.Databases
