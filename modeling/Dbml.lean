import Dbml.Main
import Dbml.Configuration
import Dbml.Service
import Dbml.Session
import Dbml.Proofs.Lexeme
import Dbml.Proofs.PlainType
import Dbml.Proofs.Reread.Column
import Dbml.Proofs.Reread.Table
import Dbml.Proofs.Reread.Statement
import Dbml.Proofs.Reread.Document
import Dbml.Proofs.Reread.Converse
import Dbml.Proofs.Supply
import Dbml.Proofs.Reread.Schema
import Dbml.Proofs.RoundTrip
import Dbml.Proofs.FromText
import Dbml.Proofs.Numbering
import Dbml.Proofs.Resolution
import Dbml.Proofs.Format
import Dbml.Proofs.FormatTwice
import Dbml.Proofs.FormatEndpoints
import Dbml.Proofs.Places
import Dbml.Proofs.Tracking
import Dbml.Proofs.References
import Dbml.Proofs.Renaming
import Dbml.Proofs.Composition
import Dbml.Proofs.StatementOrder
import Dbml.Proofs.Moved
import Dbml.Proofs.Alike
import Dbml.Proofs.ColumnLines
import Dbml.Proofs.LineEndings
import Dbml.Proofs.Exchange
import Dbml.Proofs.Reports
import Dbml.Proofs.Commands
import Dbml.Proofs.Agreement
import Dbml.Proofs.InPlace
import Dbml.Proofs.Refusal
import Dbml.Proofs.Sequential
import Dbml.Proofs.Spelling
import Dbml.Proofs.Reread.Exact
import Dbml.Proofs.Dangling
import Dbml.Proofs.Loop
import Dbml.Proofs.Progress
import Dbml.Proofs.SingleQuoted
import Dbml.Proofs.SkippedBlocks
import Dbml.Proofs.BrokenHeader
import Dbml.Proofs.Accounting
import Dbml.Proofs.Layout
import Dbml.Proofs.SettingOrder
import Dbml.Proofs.Local
import Dbml.Proofs.LocalStatements
import Dbml.Proofs.Reached
import Dbml.Proofs.TrailingComments
