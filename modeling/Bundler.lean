import Bundler.Build
import Bundler.Chunk
import Bundler.CommandLine.Arguments
import Bundler.CommandLine.Command
import Bundler.CommandLine.Run
import Bundler.Compilation
import Bundler.Compiler
import Bundler.Decimal.Binary64
import Bundler.Error
import Bundler.Event
import Bundler.FileTree
import Bundler.Hook.Basic
import Bundler.Hook.Kind
import Bundler.Json.Basic
import Bundler.Json.Printer
import Bundler.Json.Reader
import Bundler.Loader
import Bundler.Main
import Bundler.Module.Build
import Bundler.Module.Graph
import Bundler.Options
import Bundler.Path
import Bundler.Path.Normal
import Bundler.Pattern.Basic
import Bundler.Pattern.Class
import Bundler.Pattern.Escape
import Bundler.Pattern.Normal
import Bundler.Pattern.Reader
import Bundler.Pattern.Size
import Bundler.Plugin
import Bundler.Proofs.Alike
import Bundler.Proofs.Build.Assets
import Bundler.Proofs.Build.Confinement
import Bundler.Proofs.Build.Failing
import Bundler.Proofs.Build.LifeCycle
import Bundler.Proofs.Build.Location
import Bundler.Proofs.Build.Moving
import Bundler.Proofs.Build.Naming
import Bundler.Proofs.Build.Paths
import Bundler.Proofs.Build.Plugins
import Bundler.Proofs.Build.Rendering
import Bundler.Proofs.Build.Repetition
import Bundler.Proofs.Build.Requiring
import Bundler.Proofs.Build.Runtime
import Bundler.Proofs.Build.Saving
import Bundler.Proofs.Build.SelfContained
import Bundler.Proofs.Build.Sharing
import Bundler.Proofs.Build.Stages
import Bundler.Proofs.Build.Wording
import Bundler.Proofs.Build.Writability
import Bundler.Proofs.CommandLine.Overrides
import Bundler.Proofs.Disk.Below
import Bundler.Proofs.Disk.Changes
import Bundler.Proofs.Disk.Following
import Bundler.Proofs.Disk.Making
import Bundler.Proofs.Disk.Place
import Bundler.Proofs.Disk.Probing
import Bundler.Proofs.Disk.Reading
import Bundler.Proofs.Disk.Reordering
import Bundler.Proofs.Disk.Saving
import Bundler.Proofs.Disk.Writing
import Bundler.Proofs.Graph.Lookup
import Bundler.Proofs.Graph.Ownership
import Bundler.Proofs.Graph.Reachability
import Bundler.Proofs.Graph.Tagging
import Bundler.Proofs.Graph.Unplaced
import Bundler.Proofs.Hook.Calls
import Bundler.Proofs.Json.Reading
import Bundler.Proofs.Loader.Document
import Bundler.Proofs.Loader.Pipeline
import Bundler.Proofs.Module.Attempts
import Bundler.Proofs.Module.Chunks
import Bundler.Proofs.Module.Entries
import Bundler.Proofs.Module.Failures
import Bundler.Proofs.Module.Growth
import Bundler.Proofs.Module.Identity
import Bundler.Proofs.Module.Moving
import Bundler.Proofs.Module.Order
import Bundler.Proofs.Module.Origin
import Bundler.Proofs.Module.Recursion
import Bundler.Proofs.Module.Sources
import Bundler.Proofs.Module.Supply
import Bundler.Proofs.Module.Termination
import Bundler.Proofs.Module.Visits
import Bundler.Proofs.Options
import Bundler.Proofs.Path.Below
import Bundler.Proofs.Path.Canonical
import Bundler.Proofs.Path.Components
import Bundler.Proofs.Path.Ending
import Bundler.Proofs.Path.Identity
import Bundler.Proofs.Path.Normal
import Bundler.Proofs.Path.Parent
import Bundler.Proofs.Path.Relative
import Bundler.Proofs.Path.Rooted
import Bundler.Proofs.Path.Trail
import Bundler.Proofs.Path.Written
import Bundler.Proofs.Report
import Bundler.Proofs.Resolver
import Bundler.Proofs.Script.Calls
import Bundler.Proofs.Script.Dependencies
import Bundler.Proofs.Script.Encoding
import Bundler.Proofs.Script.Leftover
import Bundler.Proofs.Script.Literal
import Bundler.Proofs.Script.Moving
import Bundler.Proofs.Script.Order.Expression
import Bundler.Proofs.Script.Order.Function
import Bundler.Proofs.Script.Order.Literal
import Bundler.Proofs.Script.Order.Markup
import Bundler.Proofs.Script.Order.Module
import Bundler.Proofs.Script.Order.Pattern
import Bundler.Proofs.Script.Order.Place
import Bundler.Proofs.Script.Order.Program
import Bundler.Proofs.Script.Order.Scanning
import Bundler.Proofs.Script.Order.State
import Bundler.Proofs.Script.Order.Statement
import Bundler.Proofs.Script.Order.Taking
import Bundler.Proofs.Script.Order.Type
import Bundler.Proofs.Script.Printing
import Bundler.Proofs.Script.Reading.Bare
import Bundler.Proofs.Script.Reading.Expression
import Bundler.Proofs.Script.Reading.Function
import Bundler.Proofs.Script.Reading.Operand
import Bundler.Proofs.Script.Reading.Runs
import Bundler.Proofs.Script.Reading.Statement
import Bundler.Proofs.Script.Reading.Stuck
import Bundler.Proofs.Script.Reading.Symbols
import Bundler.Proofs.Script.Reading.Whole
import Bundler.Proofs.Script.Redirection
import Bundler.Proofs.Script.Requirements
import Bundler.Proofs.Script.Specifiers
import Bundler.Proofs.Settings
import Bundler.Proofs.Table
import Bundler.Proofs.Text.Location
import Bundler.Proofs.Text.Replace
import Bundler.Report
import Bundler.Resolver
import Bundler.Script.Comment
import Bundler.Script.Cursor
import Bundler.Script.Dialect
import Bundler.Script.Export
import Bundler.Script.Lexer
import Bundler.Script.Node
import Bundler.Script.Number
import Bundler.Script.Operator
import Bundler.Script.Printer
import Bundler.Script.Printer.Expression
import Bundler.Script.Printer.Function
import Bundler.Script.Printer.Markup
import Bundler.Script.Printer.Module
import Bundler.Script.Printer.Numeral
import Bundler.Script.Printer.Output
import Bundler.Script.Printer.Part
import Bundler.Script.Printer.Pattern
import Bundler.Script.Printer.Quote
import Bundler.Script.Printer.Statement
import Bundler.Script.Printer.Type
import Bundler.Script.Quoted
import Bundler.Script.Reader.Class
import Bundler.Script.Reader.Declaration
import Bundler.Script.Reader.Expression
import Bundler.Script.Reader.Function
import Bundler.Script.Reader.Literal
import Bundler.Script.Reader.Markup
import Bundler.Script.Reader.Modifier
import Bundler.Script.Reader.Module
import Bundler.Script.Reader.Part
import Bundler.Script.Reader.Pattern
import Bundler.Script.Reader.Program
import Bundler.Script.Reader.State
import Bundler.Script.Reader.Statement
import Bundler.Script.Reader.Target
import Bundler.Script.Reader.Type
import Bundler.Script.Rewrite
import Bundler.Script.Token
import Bundler.Settings
import Bundler.Table
import Bundler.Text.ByteRange
import Bundler.Text.CharSet
import Bundler.Text.Hex
import Bundler.Text.Inspect
import Bundler.Text.Location
import Bundler.Text.Replace
import Bundler.Text.Unicode.Age
import Bundler.Text.Unicode.Binary
import Bundler.Text.Unicode.Break
import Bundler.Text.Unicode.Category
import Bundler.Text.Unicode.Folding
import Bundler.Text.Unicode.Property
import Bundler.Text.Unicode.Query
import Bundler.Text.Unicode.Runs
import Bundler.Text.Unicode.Script
import Bundler.Toml.Basic
import Bundler.Toml.Reader
import Bundler.Toml.Scalar
import Bundler.Toml.Section
