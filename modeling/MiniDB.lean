import MiniDB.Core.Vectors
import MiniDB.Core.Strings
import MiniDB.Parser.Acceptance
import MiniDB.Parser.Printing
import MiniDB.Parser.Bounds
import MiniDB.Parser.Positions
import MiniDB.Parser.Contract
import MiniDB.Parser.Handles
import MiniDB.Parser.Blame
import MiniDB.Parser.Pieces
import MiniDB.Storage.IndexMap
import MiniDB.Storage.Catalog
import MiniDB.Storage.FileDomain
import MiniDB.Storage.Loading
import MiniDB.Storage.DropFiles
import MiniDB.Execution.RowIds
import MiniDB.Execution.Duplicates
import MiniDB.Execution.Durability
import MiniDB.Execution.Frame
import MiniDB.Execution.Log
import MiniDB.Execution.Separation
import MiniDB.Execution.Safety
import MiniDB.Execution.Types
import MiniDB.Execution.Leaving
import MiniDB.Execution.LetterCase
import MiniDB.Execution.Literals
import MiniDB.Execution.ColumnNames
import MiniDB.Execution.Ranges
import MiniDB.Network.Request
import MiniDB.Network.Partial
import MiniDB.Network.Framing
import MiniDB.Network.Sessions
import MiniDB.Network.Display
import MiniDB.Network.Errors
import MiniDB.Network.Statements
import MiniDB.Network.Answers
import MiniDB.Network.Printed
import MiniDB.Cli.Repl
