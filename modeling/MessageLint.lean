import MessageLint.Span
import MessageLint.Resource
import MessageLint.SyntaxError
import MessageLint.Grammar.Cursor
import MessageLint.Grammar.Parser
import MessageLint.Grammar.Name
import MessageLint.Grammar.Quoted
import MessageLint.Grammar.Pattern
import MessageLint.Grammar.Expression
import MessageLint.Grammar.Entry
import MessageLint.Text.WhiteSpace
import MessageLint.Text.Digits
import MessageLint.Rule
import MessageLint.Path
import MessageLint.LineIndex
import MessageLint.Report
import MessageLint.RuleSet
import MessageLint.Text.CharRef.Names
import MessageLint.Text.CharRef
import MessageLint.Text.Markup
import MessageLint.Text.WordChar
import MessageLint.Source
import MessageLint.Check.Finding
import MessageLint.Check.Comment
import MessageLint.Check.Identifier
import MessageLint.Check.Typography
import MessageLint.Lint
import MessageLint.Glob
import MessageLint.FileTree
import MessageLint.Analysis
import MessageLint.Json
import MessageLint.Settings
import MessageLint.Yaml.Cursor
import MessageLint.Yaml.Scalar
import MessageLint.Yaml.Token
import MessageLint.Yaml.Layout
import MessageLint.Yaml.Document
import MessageLint.Settings.Format
import MessageLint.Settings.Yaml
import MessageLint.Toml.Table
import MessageLint.Toml.Scalar
import MessageLint.Toml.Document
import MessageLint.Settings.Toml
import MessageLint.Settings.File
import MessageLint.CommandLine.Request
import MessageLint.CommandLine.Help
import MessageLint.CommandLine.Check
import MessageLint.CommandLine.Run
import MessageLint.Main
import MessageLint.Proofs.Basic
import MessageLint.Proofs.Path
import MessageLint.Proofs.FileTree
import MessageLint.Proofs.Cursor
import MessageLint.Proofs.Runs
import MessageLint.Proofs.Node
import MessageLint.Proofs.Spans.Basic
import MessageLint.Proofs.Spans.Expression
import MessageLint.Proofs.Spans.Entry
import MessageLint.Proofs.Spans.Resource
import MessageLint.Proofs.Attachment
import MessageLint.Proofs.LineEnds
import MessageLint.Proofs.LineStops
import MessageLint.Proofs.Respan
import MessageLint.Proofs.Frame.Basic
import MessageLint.Proofs.Frame.Expression
import MessageLint.Proofs.Frame.Entry
import MessageLint.Proofs.Frame.Resource
import MessageLint.Proofs.Canonical.Text
import MessageLint.Proofs.Canonical.Recovery
import MessageLint.Proofs.Canonical.Pattern
import MessageLint.Proofs.Quoted
import MessageLint.Proofs.Canonical.Literal
import MessageLint.Proofs.Canonical.Argument
import MessageLint.Proofs.Canonical.Expression
import MessageLint.Proofs.Canonical.Entry
import MessageLint.Proofs.Canonical.Resource
import MessageLint.Proofs.Dedent
import MessageLint.Proofs.WellFormed.Pattern
import MessageLint.Proofs.WellFormed.Resource
import MessageLint.Proofs.Visible.Pattern
import MessageLint.Proofs.Visible.Resource
import MessageLint.Proofs.Indentation
import MessageLint.Proofs.Naming
import MessageLint.Proofs.Lint.Independence
import MessageLint.Proofs.LineIndex
import MessageLint.Proofs.Lint.Order
import MessageLint.Proofs.Lint.Reach
import MessageLint.Proofs.Lint.Comments
import MessageLint.Proofs.Lint.Names
import MessageLint.Proofs.Lint.Spacing
import MessageLint.Proofs.Lint.Typography
import MessageLint.Proofs.Sorting
import MessageLint.Proofs.Report
import MessageLint.Proofs.Analysis
import MessageLint.Proofs.Outcome
import MessageLint.Proofs.Settings
import MessageLint.Proofs.Filter
import MessageLint.Proofs.Safety.Basic
import MessageLint.Proofs.Safety.Expression
import MessageLint.Proofs.Safety.Entry
import MessageLint.Proofs.Safety.Resource
import MessageLint.Proofs.Faults
import MessageLint.Proofs.FinalNewline.Basic
import MessageLint.Proofs.FinalNewline.Expression
import MessageLint.Proofs.FinalNewline.Entry
import MessageLint.Proofs.FinalNewline.Resource
import MessageLint.Proofs.Text.MarkupGrammar
import MessageLint.Proofs.Text.Division
import MessageLint.Proofs.LineCount
import MessageLint.Proofs.BlankLines
import MessageLint.Proofs.Lint.Duplicates
import MessageLint.Proofs.Lint.Identifiers
