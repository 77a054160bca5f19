import TradeScript.About
import TradeScript.Check.Bracket
import TradeScript.Check.Directive
import TradeScript.Check.Family
import TradeScript.Check.Length
import TradeScript.Check.Literal
import TradeScript.Check.Naming
import TradeScript.Check.Statement
import TradeScript.Check.Usage
import TradeScript.Command.Arguments
import TradeScript.Command.CheckFiles
import TradeScript.Command.Day
import TradeScript.Command.Failure
import TradeScript.Command.Footprint
import TradeScript.Command.Help
import TradeScript.Command.Log
import TradeScript.Command.Outcome
import TradeScript.Command.Overview
import TradeScript.Command.Run
import TradeScript.Command.Style
import TradeScript.Data.Basic
import TradeScript.Data.Inline
import TradeScript.Data.Json
import TradeScript.Data.Number
import TradeScript.Data.Toml
import TradeScript.Data.Yaml.Cursor
import TradeScript.Data.Yaml.Node
import TradeScript.Data.Yaml.Scalar
import TradeScript.Data.Yaml.Token
import TradeScript.Data.Yaml.Value
import TradeScript.Diagnostic.Basic
import TradeScript.Diagnostic.Code
import TradeScript.Dialect
import TradeScript.Document.Basic
import TradeScript.Document.View
import TradeScript.FileTree
import TradeScript.Main
import TradeScript.Path
import TradeScript.Position
import TradeScript.Report
import TradeScript.Scan.Declaration
import TradeScript.Scan.Occurrence
import TradeScript.Scan.Reader
import TradeScript.Server.Basic
import TradeScript.Server.Session
import TradeScript.Server.Shape
import TradeScript.Settings.Basic
import TradeScript.Settings.Layers
import TradeScript.Settings.Search
import TradeScript.Store
import TradeScript.Suppression
import TradeScript.Symbols
import TradeScript.Table
import TradeScript.Text.Basic
import TradeScript.Text.Blank
import TradeScript.Text.Digit
import TradeScript.Text.Ranges
import TradeScript.Text.Word
import TradeScript.Vocabulary.Basic
import TradeScript.Vocabulary.Directives
import TradeScript.Vocabulary.Functions
import TradeScript.Vocabulary.Keywords
import TradeScript.Vocabulary.Types
import TradeScript.Wire
import TradeScript.Proofs.Location
import TradeScript.Proofs.Scan
import TradeScript.Proofs.Word
import TradeScript.Proofs.Placement
import TradeScript.Proofs.Store.Interleaving
import TradeScript.Proofs.Store.Run
import TradeScript.Proofs.Store.Overlap
import TradeScript.Proofs.Store.Independence
import TradeScript.Proofs.Server.Conversation
import TradeScript.Proofs.Server.History
import TradeScript.Proofs.LineEnding
import TradeScript.Proofs.Store.Arrival
import TradeScript.Proofs.Hiding
import TradeScript.Proofs.Ascending
import TradeScript.Proofs.Order
import TradeScript.Proofs.Table
import TradeScript.Proofs.WellNested
import TradeScript.Proofs.Suppression.Written
import TradeScript.Proofs.Suppression.Quiet
import TradeScript.Proofs.Report
import TradeScript.Proofs.Property
import TradeScript.Proofs.Repetition
import TradeScript.Proofs.Region
import TradeScript.Proofs.Dialect
import TradeScript.Proofs.Command.Agreement
import TradeScript.Proofs.Data.Merge
import TradeScript.Proofs.Data.Keys
import TradeScript.Proofs.Settings.Precedence
import TradeScript.Proofs.Store.Staleness
import TradeScript.Proofs.Command.Verdict
import TradeScript.Proofs.Function
import TradeScript.Proofs.Variable
import TradeScript.Proofs.Server.Oversized
import TradeScript.Proofs.Recovery
import TradeScript.Proofs.Place
import TradeScript.Proofs.Nesting
import TradeScript.Proofs.Header
import TradeScript.Proofs.Extent
import TradeScript.Proofs.Unused
import TradeScript.Proofs.CallSite
import TradeScript.Proofs.Mismatch
import TradeScript.Proofs.Unreachable
import TradeScript.Proofs.Path
import TradeScript.Proofs.Settings.Discovery
import TradeScript.Proofs.Symbols
import TradeScript.Proofs.WordRun
import TradeScript.Proofs.Encoding
import TradeScript.Proofs.Layout
import TradeScript.Proofs.FixedPoint
import TradeScript.Proofs.Quotation
