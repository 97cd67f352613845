import Deadwood.Analysis
import Deadwood.Analysis.Check
import Deadwood.Analysis.Roots
import Deadwood.Builtin
import Deadwood.Calendar
import Deadwood.Collect
import Deadwood.Collect.Outline
import Deadwood.Collect.Scope
import Deadwood.Collect.Uses
import Deadwood.Collect.Walk
import Deadwood.Command
import Deadwood.Command.Flag
import Deadwood.Command.Help
import Deadwood.Command.Line
import Deadwood.Config
import Deadwood.Config.Display
import Deadwood.Config.Example
import Deadwood.Config.File
import Deadwood.Config.Load
import Deadwood.Config.Schema
import Deadwood.Config.Setup
import Deadwood.Digest
import Deadwood.Dispatch
import Deadwood.Dotted
import Deadwood.Drawing
import Deadwood.EntryPoint
import Deadwood.Fact
import Deadwood.Fact.Codec
import Deadwood.File.Disk
import Deadwood.File.Host
import Deadwood.File.Path
import Deadwood.File.Tree
import Deadwood.Finding
import Deadwood.Glob
import Deadwood.Graph.Basic
import Deadwood.Graph.Build
import Deadwood.Graph.Components
import Deadwood.Graph.Reach
import Deadwood.Ignore.Compile
import Deadwood.Ignore.Reject
import Deadwood.Ignore.Spec
import Deadwood.Library
import Deadwood.Library.Failure
import Deadwood.Manifest
import Deadwood.Manifest.File
import Deadwood.Number.Binary64
import Deadwood.Number.Decimal
import Deadwood.Number.Shortest
import Deadwood.Project.Collection
import Deadwood.Project.Discover
import Deadwood.Project.Exports
import Deadwood.Project.Index
import Deadwood.Project.Link
import Deadwood.Project.Result
import Deadwood.Project.Run
import Deadwood.Regex
import Deadwood.Regex.Error
import Deadwood.Regex.Escape
import Deadwood.Regex.Pattern
import Deadwood.Regex.Reader
import Deadwood.Regex.Search
import Deadwood.Regex.Settings
import Deadwood.Regex.Token
import Deadwood.Report.Data
import Deadwood.Report.Diagnostic
import Deadwood.Report.Escape
import Deadwood.Report.Html
import Deadwood.Report.Stats
import Deadwood.Report.Tree
import Deadwood.Search
import Deadwood.Setting
import Deadwood.Severity
import Deadwood.Source.Encoding
import Deadwood.Source.Grammar
import Deadwood.Source.Grammar.Argument
import Deadwood.Source.Grammar.Case
import Deadwood.Source.Grammar.Display
import Deadwood.Source.Grammar.Expression
import Deadwood.Source.Grammar.Level
import Deadwood.Source.Grammar.Parameter
import Deadwood.Source.Grammar.Statement
import Deadwood.Source.Literal
import Deadwood.Source.Module
import Deadwood.Source.Numeral
import Deadwood.Source.Summary
import Deadwood.Source.Syntax
import Deadwood.Source.Token
import Deadwood.Source.Token.Scan
import Deadwood.Store
import Deadwood.Symbol
import Deadwood.Table
import Deadwood.Text.Blank
import Deadwood.Text.Case
import Deadwood.Text.CharSet
import Deadwood.Text.Cut
import Deadwood.Text.Digit
import Deadwood.Text.Identifier
import Deadwood.Text.Integer
import Deadwood.Text.Lines
import Deadwood.Text.Point
import Deadwood.Text.Printable
import Deadwood.Text.Quoted
import Deadwood.Text.Word
import Deadwood.Toml
import Deadwood.Toml.Scalar
import Deadwood.Toml.Tree
import Deadwood.Value
import Deadwood.Value.Printer
import Deadwood.Value.Reader
import Deadwood.Yaml
import Deadwood.Yaml.Cursor
import Deadwood.Yaml.Kind
import Deadwood.Yaml.Node
import Deadwood.Yaml.Scalar
import Deadwood.Yaml.Scan
import Deadwood.Yaml.Token
import Deadwood.Main
import Deadwood.Proofs.Bodies
import Deadwood.Proofs.Build
import Deadwood.Proofs.CallExpressions
import Deadwood.Proofs.Canonical
import Deadwood.Proofs.Codec
import Deadwood.Proofs.Comparison
import Deadwood.Proofs.Complete
import Deadwood.Proofs.Components
import Deadwood.Proofs.Conflicts
import Deadwood.Proofs.Constructors
import Deadwood.Proofs.Definitions
import Deadwood.Proofs.Disk
import Deadwood.Proofs.Documentation
import Deadwood.Proofs.Dotted
import Deadwood.Proofs.Emitted
import Deadwood.Proofs.Genuine
import Deadwood.Proofs.Grammar
import Deadwood.Proofs.Ignored
import Deadwood.Proofs.Incomparable
import Deadwood.Proofs.Incremental
import Deadwood.Proofs.Index
import Deadwood.Proofs.Inheritance
import Deadwood.Proofs.Initializers
import Deadwood.Proofs.Json
import Deadwood.Proofs.Layout
import Deadwood.Proofs.Link
import Deadwood.Proofs.ManifestFile
import Deadwood.Proofs.MoreCalls
import Deadwood.Proofs.Named
import Deadwood.Proofs.Narrowable
import Deadwood.Proofs.Occurrences
import Deadwood.Proofs.Order
import Deadwood.Proofs.OwnName
import Deadwood.Proofs.Pool
import Deadwood.Proofs.Reach
import Deadwood.Proofs.RecursiveOnly
import Deadwood.Proofs.Representation
import Deadwood.Proofs.Roots
import Deadwood.Proofs.Run
import Deadwood.Proofs.Search
import Deadwood.Proofs.Statement
import Deadwood.Proofs.Store
import Deadwood.Proofs.Table
import Deadwood.Proofs.Traversal
import Deadwood.Proofs.Outline
import Deadwood.Proofs.Distance
import Deadwood.Proofs.Nearest
import Deadwood.Proofs.Copies
import Deadwood.Proofs.Exports
import Deadwood.Proofs.WrittenRange
import Deadwood.Proofs.Fieldwise
import Deadwood.Proofs.Path
import Deadwood.Proofs.Discover
import Deadwood.Proofs.Normalized
import Deadwood.Proofs.Refusals
import Deadwood.Proofs.Grouping
import Deadwood.Proofs.Sections
import Deadwood.Proofs.Folders
import Deadwood.Proofs.Escaping
import Deadwood.Proofs.Markup
import Deadwood.Proofs.Drawn
import Deadwood.Proofs.Suggestions
import Deadwood.Proofs.Loading
