import WebBaseline.Baseline.Encoding
import WebBaseline.Baseline.Info
import WebBaseline.Baseline.Status
import WebBaseline.Calendar.Date
import WebBaseline.Calendar.Moment
import WebBaseline.CommandLine.Call
import WebBaseline.CommandLine.Grammar
import WebBaseline.CommandLine.Run
import WebBaseline.Data.KeyMap
import WebBaseline.Decimal.Digits
import WebBaseline.Feature.Catalog
import WebBaseline.Feature.Extraction
import WebBaseline.Feature.Language
import WebBaseline.Feature.Occurrence
import WebBaseline.Files.Disk
import WebBaseline.Files.Path
import WebBaseline.Files.Tree
import WebBaseline.Glob.Match
import WebBaseline.Glob.Pattern
import WebBaseline.Json.Parser
import WebBaseline.Json.Printer
import WebBaseline.Json.Record
import WebBaseline.Json.Value
import WebBaseline.Lookup.Bundled.Browsers
import WebBaseline.Lookup.Bundled.Features
import WebBaseline.Lookup.Dataset
import WebBaseline.Lookup.Encoding
import WebBaseline.Lookup.Outcome
import WebBaseline.Lookup.Remote
import WebBaseline.Lookup.Resolver
import WebBaseline.Lookup.Session
import WebBaseline.Lookup.Source
import WebBaseline.Lookup.Support
import WebBaseline.Main
import WebBaseline.Markup.Features
import WebBaseline.Markup.Pattern
import WebBaseline.Numeric.Double
import WebBaseline.Numeric.Hex
import WebBaseline.Proofs.Baseline.Encoding
import WebBaseline.Proofs.Calendar.Months
import WebBaseline.Proofs.Data.KeyMap
import WebBaseline.Proofs.Data.Lists
import WebBaseline.Proofs.Files.Below
import WebBaseline.Proofs.Files.Entry
import WebBaseline.Proofs.Lookup.Dataset
import WebBaseline.Proofs.Lookup.Encoding
import WebBaseline.Proofs.Lookup.History
import WebBaseline.Proofs.Lookup.Inquiry
import WebBaseline.Proofs.Lookup.Interleaving
import WebBaseline.Proofs.Lookup.NearMiss
import WebBaseline.Proofs.Lookup.NormalForm
import WebBaseline.Proofs.Lookup.Progress
import WebBaseline.Proofs.Lookup.Pure
import WebBaseline.Proofs.Lookup.Remote
import WebBaseline.Proofs.Lookup.Search
import WebBaseline.Proofs.Lookup.Session
import WebBaseline.Proofs.Lookup.Standing
import WebBaseline.Proofs.Lookup.Support
import WebBaseline.Proofs.Markup.Hits
import WebBaseline.Proofs.Markup.Joined
import WebBaseline.Proofs.Markup.Places
import WebBaseline.Proofs.Markup.Values
import WebBaseline.Proofs.Numeric.Rounding
import WebBaseline.Proofs.Report.Encoding
import WebBaseline.Proofs.Report.Exit
import WebBaseline.Proofs.Report.Order
import WebBaseline.Proofs.Report.Score
import WebBaseline.Proofs.Report.Summary
import WebBaseline.Proofs.Scan.Cancellation
import WebBaseline.Proofs.Scan.Defaults
import WebBaseline.Proofs.Scan.Issues
import WebBaseline.Proofs.Scan.Level
import WebBaseline.Proofs.Scan.Listing
import WebBaseline.Proofs.Scan.Order
import WebBaseline.Proofs.Scan.Patterns
import WebBaseline.Proofs.Scan.Project
import WebBaseline.Proofs.Scan.Uncached
import WebBaseline.Proofs.Script.Chains
import WebBaseline.Proofs.Script.Lexeme
import WebBaseline.Proofs.Script.Paths
import WebBaseline.Proofs.Script.Qualified
import WebBaseline.Proofs.Script.Shape
import WebBaseline.Proofs.Settings.File
import WebBaseline.Proofs.Store.Clearing
import WebBaseline.Proofs.Store.Expiry
import WebBaseline.Proofs.Stylesheet.Nodes
import WebBaseline.Proofs.Stylesheet.Passes
import WebBaseline.Proofs.Syntax.Derivation
import WebBaseline.Proofs.Syntax.Laws
import WebBaseline.Proofs.Syntax.Memo
import WebBaseline.Proofs.Syntax.Mended
import WebBaseline.Proofs.Syntax.Scan
import WebBaseline.Proofs.Syntax.Traversal
import WebBaseline.Proofs.Syntax.Walk
import WebBaseline.Proofs.Text.ByteOrder
import WebBaseline.Proofs.Text.EditDistance
import WebBaseline.Proofs.Text.Lines
import WebBaseline.Report.Document
import WebBaseline.Report.Encoding
import WebBaseline.Report.Exit
import WebBaseline.Report.Format
import WebBaseline.Report.Issue
import WebBaseline.Report.Order
import WebBaseline.Report.Severity
import WebBaseline.Report.Summary
import WebBaseline.Report.TextTable
import WebBaseline.Scan.Listing
import WebBaseline.Scan.Options
import WebBaseline.Scan.Scanner
import WebBaseline.Script.Features
import WebBaseline.Script.Grammar
import WebBaseline.Script.Grammar.Basic
import WebBaseline.Script.Grammar.Functions
import WebBaseline.Script.Grammar.Statements
import WebBaseline.Script.Grammar.Tags
import WebBaseline.Script.Grammar.Types
import WebBaseline.Script.Grammar.Values
import WebBaseline.Script.Lexeme
import WebBaseline.Settings.Basic
import WebBaseline.Settings.Encoding
import WebBaseline.Settings.File
import WebBaseline.Store.DiskCache
import WebBaseline.Stylesheet.Features
import WebBaseline.Stylesheet.Grammar
import WebBaseline.Stylesheet.Lexeme
import WebBaseline.Syntax.Cursor
import WebBaseline.Syntax.ParseTree
import WebBaseline.Syntax.Rule
import WebBaseline.Syntax.Scan
import WebBaseline.Syntax.Source
import WebBaseline.Text.Blank
import WebBaseline.Text.EditDistance
import WebBaseline.Text.FormText
import WebBaseline.Text.Letters
import WebBaseline.Text.Lines
import WebBaseline.Text.Lowercase
import WebBaseline.Text.Width
import WebBaseline.Toml.Bare
import WebBaseline.Toml.Quoted
import WebBaseline.Toml.Reader
import WebBaseline.Toml.Table
import WebBaseline.Toml.Value
import WebBaseline.Toml.Writer
