import TwigLint.Command.Error
import TwigLint.Command.Execute
import TwigLint.Command.Flag
import TwigLint.Command.Line
import TwigLint.Command.Lint
import TwigLint.Command.Rules
import TwigLint.Command.Session
import TwigLint.Command.Watch
import TwigLint.Component.Data
import TwigLint.Component.Definition
import TwigLint.Component.Load
import TwigLint.Config.Basic
import TwigLint.Config.Load
import TwigLint.Config.Read
import TwigLint.Config.Validate
import TwigLint.Crash
import TwigLint.Duration
import TwigLint.Files.Change
import TwigLint.Files.Glob
import TwigLint.Files.History
import TwigLint.Files.Ignore
import TwigLint.Files.ObjectName
import TwigLint.Files.Path
import TwigLint.Files.Revision
import TwigLint.Files.Tree
import TwigLint.Lint.Diagnostic
import TwigLint.Lint.Engine
import TwigLint.Lint.Excerpt
import TwigLint.Lint.Policy
import TwigLint.Lint.Rule
import TwigLint.Lint.Rules.Default
import TwigLint.Lint.Rules.Names
import TwigLint.Lint.Rules.Structure
import TwigLint.Lint.Rules.Tables
import TwigLint.Lint.Schema
import TwigLint.Lint.Scope.Basic
import TwigLint.Lint.Scope.Operation
import TwigLint.Lint.Scope.Suggest
import TwigLint.Lint.Scope.Walk
import TwigLint.Lint.Severity
import TwigLint.Lint.Validator
import TwigLint.Main
import TwigLint.Number.Double
import TwigLint.Number.Numeral
import TwigLint.Number.Shortest
import TwigLint.Output.Csv
import TwigLint.Output.Format
import TwigLint.Output.Json
import TwigLint.Output.Progress
import TwigLint.Output.Table
import TwigLint.Project.Pool
import TwigLint.Project.Report
import TwigLint.Project.Run
import TwigLint.Schedule
import TwigLint.Schedule.Zone
import TwigLint.Telemetry.Health
import TwigLint.Telemetry.Log
import TwigLint.Telemetry.Metrics
import TwigLint.Telemetry.Trace
import TwigLint.Template.Lexeme
import TwigLint.Template.Node.Basic
import TwigLint.Template.Node.Walk
import TwigLint.Template.Parser.Basic
import TwigLint.Template.Parser.Expression
import TwigLint.Template.Parser.Statement
import TwigLint.Template.Segment
import TwigLint.Template.Token
import TwigLint.Text.Basic
import TwigLint.Text.Digest
import TwigLint.Text.Pattern
import TwigLint.Text.Pattern.Reader
import TwigLint.Text.Printable
import TwigLint.Text.Quoted
import TwigLint.Text.Utf8
import TwigLint.Timestamp
import TwigLint.Watch.Address
import TwigLint.Watch.Scheduler
import TwigLint.Watch.Watcher
import TwigLint.Yaml.Comment
import TwigLint.Yaml.Decode
import TwigLint.Yaml.Directive
import TwigLint.Yaml.Document
import TwigLint.Yaml.Dynamic
import TwigLint.Yaml.Error
import TwigLint.Yaml.Lexer
import TwigLint.Yaml.Node
import TwigLint.Yaml.Resolve
import TwigLint.Yaml.Scalar
import TwigLint.Yaml.Source
import TwigLint.Yaml.Token
import TwigLint.Yaml.TokenStream
import TwigLint.Yaml.Typed
import TwigLint.Proofs.Grammar.Phrase
import TwigLint.Proofs.Grammar.Reading
import TwigLint.Proofs.Grammar.Expr
import TwigLint.Proofs.Grammar.ExprReading
import TwigLint.Proofs.Grammar.Body
import TwigLint.Proofs.Grammar.Precedence
import TwigLint.Proofs.Grammar.Stmt
import TwigLint.Proofs.Grammar.Tag
import TwigLint.Proofs.Grammar.StmtReading
import TwigLint.Proofs.Lexing.SourceReading
import TwigLint.Proofs.Lexing.Shape
import TwigLint.Proofs.Template.Tree
import TwigLint.Proofs.Scope.Run
import TwigLint.Proofs.Scope.Lookup
import TwigLint.Proofs.Scope.Trace
import TwigLint.Proofs.Scope.Isolation
import TwigLint.Proofs.Scope.Containment
import TwigLint.Proofs.Grammar.Yields
import TwigLint.Proofs.Grammar.Built
import TwigLint.Proofs.Grammar.BuiltParser
import TwigLint.Proofs.Grammar.Tidy
import TwigLint.Proofs.Scope.Resolution
import TwigLint.Proofs.Engine.Failure
import TwigLint.Proofs.Lexing.Position
import TwigLint.Proofs.Engine.Arrange
import TwigLint.Proofs.Rules.Registry
import TwigLint.Proofs.Rules.Messages
import TwigLint.Proofs.Engine.Disabling
import TwigLint.Proofs.Scope.Account
import TwigLint.Proofs.Scope.Unused
import TwigLint.Proofs.Scope.Layout
import TwigLint.Proofs.Scope.Expression
import TwigLint.Proofs.Rules.Surroundings
import TwigLint.Proofs.Engine.Output
import TwigLint.Proofs.Engine.Copies
import TwigLint.Proofs.Engine.Once
import TwigLint.Proofs.Engine.Report
import TwigLint.Proofs.Lexing.Offset
import TwigLint.Proofs.Lexing.SourceLine
import TwigLint.Proofs.Template.Construction
import TwigLint.Proofs.Engine.Traversal
import TwigLint.Proofs.Engine.Findings
import TwigLint.Proofs.Engine.Parts
import TwigLint.Proofs.Engine.Critical
import TwigLint.Proofs.Engine.LineEnds
import TwigLint.Proofs.Scope.Moments
import TwigLint.Proofs.Scope.Known
import TwigLint.Proofs.Engine.KnownVariables
import TwigLint.Proofs.Lexing.Verbatim
import TwigLint.Proofs.Lexing.Extent
import TwigLint.Proofs.Lexing.TextData
import TwigLint.Proofs.Engine.Identifier
import TwigLint.Proofs.Rules.Overlay
import TwigLint.Proofs.Config.Acceptance
import TwigLint.Proofs.Config.Sequence
import TwigLint.Proofs.Project.Interleaving
import TwigLint.Proofs.Lexing.Alternation
import TwigLint.Proofs.Lexing.FaultPosition
import TwigLint.Proofs.Grammar.Watched
import TwigLint.Proofs.Grammar.Comparison
import TwigLint.Proofs.Grammar.ExpressionRuns
import TwigLint.Proofs.Grammar.StatementRuns
import TwigLint.Proofs.Grammar.WatchedRuns
import TwigLint.Proofs.Grammar.Depth
import TwigLint.Proofs.Grammar.Progress
import TwigLint.Proofs.Engine.FaultLine
import TwigLint.Proofs.Rules.Merge
import TwigLint.Proofs.Collections.Occurrence
import TwigLint.Proofs.Engine.Sorting
import TwigLint.Proofs.Rules.Registration
import TwigLint.Proofs.Rules.Stored
import TwigLint.Proofs.Text.Order
import TwigLint.Proofs.Scope.EditDistance
import TwigLint.Proofs.Scope.Suggestion
import TwigLint.Proofs.Lexing.WordBoundary
import TwigLint.Proofs.Lexing.TextPosition
import TwigLint.Proofs.Engine.Excerpt
import TwigLint.Proofs.Scope.Inputs
import TwigLint.Proofs.Engine.BooleanDefault
import TwigLint.Proofs.Lexing.NameReading
import TwigLint.Proofs.Scope.BoundNames
import TwigLint.Proofs.Template.Calls
import TwigLint.Proofs.Text.Split
import TwigLint.Proofs.Files.CleanPath
import TwigLint.Proofs.Component.Reading
import TwigLint.Proofs.Component.TemplatePath
import TwigLint.Proofs.Number.Whole
import TwigLint.Proofs.Component.Enumeration
import TwigLint.Proofs.Component.Aliases
import TwigLint.Proofs.Rules.Conflicts
import TwigLint.Proofs.Output.Alignment
import TwigLint.Proofs.Output.TableLines
