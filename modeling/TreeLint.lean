import TreeLint.Analysis.Analyzer
import TreeLint.Analysis.Session
import TreeLint.Check.Instantiation
import TreeLint.Check.Rethrow
import TreeLint.Config.Basic
import TreeLint.Config.Load
import TreeLint.Config.Record
import TreeLint.Config.Schema
import TreeLint.Config.Text
import TreeLint.Data.Assoc
import TreeLint.Data.Datum
import TreeLint.Data.FileStore
import TreeLint.Data.Total
import TreeLint.Diagnostic.Basic
import TreeLint.Diagnostic.Record
import TreeLint.Diagnostic.Severity
import TreeLint.Error
import TreeLint.Fix.Edit
import TreeLint.Fix.Engine
import TreeLint.Fix.Rethrow
import TreeLint.Format.Escape
import TreeLint.Format.Json
import TreeLint.Format.Numeral
import TreeLint.Format.Reader
import TreeLint.Format.RelaxedJson
import TreeLint.Format.Toml.Document
import TreeLint.Format.Toml.Scalar
import TreeLint.Format.Toml.Table
import TreeLint.Format.Toml.Token
import TreeLint.Grammar.Expression
import TreeLint.Grammar.Parser
import TreeLint.Grammar.Procedure
import TreeLint.Grammar.Statement
import TreeLint.Grammar.Unit
import TreeLint.Proofs.Batch
import TreeLint.Proofs.Bounded
import TreeLint.Proofs.Builtin
import TreeLint.Proofs.Cancellation
import TreeLint.Proofs.Comments
import TreeLint.Proofs.Commuting
import TreeLint.Proofs.Crowding
import TreeLint.Proofs.Dispatch
import TreeLint.Proofs.Edges
import TreeLint.Proofs.Execution
import TreeLint.Proofs.Expressions
import TreeLint.Proofs.Extents
import TreeLint.Proofs.Fixes
import TreeLint.Proofs.Fraying
import TreeLint.Proofs.Fronts
import TreeLint.Proofs.Gaps
import TreeLint.Proofs.Groups
import TreeLint.Proofs.Handlers
import TreeLint.Proofs.Idempotence
import TreeLint.Proofs.Invariance
import TreeLint.Proofs.Lexing
import TreeLint.Proofs.Locate
import TreeLint.Proofs.Neighbours
import TreeLint.Proofs.Outcome
import TreeLint.Proofs.Parsing
import TreeLint.Proofs.Permutation
import TreeLint.Proofs.Place
import TreeLint.Proofs.Plan
import TreeLint.Proofs.Procedures
import TreeLint.Proofs.Progress
import TreeLint.Proofs.Prune
import TreeLint.Proofs.Reconcile
import TreeLint.Proofs.Relexing
import TreeLint.Proofs.Remaining
import TreeLint.Proofs.Removal
import TreeLint.Proofs.Renaming
import TreeLint.Proofs.Reported
import TreeLint.Proofs.Reshape
import TreeLint.Proofs.Safety
import TreeLint.Proofs.Sequence
import TreeLint.Proofs.Shape
import TreeLint.Proofs.Siblings
import TreeLint.Proofs.Simultaneous
import TreeLint.Proofs.Statements
import TreeLint.Proofs.Stripping
import TreeLint.Proofs.Substitution
import TreeLint.Proofs.Undisturbed
import TreeLint.Proofs.Unit
import TreeLint.Proofs.Views
import TreeLint.Regex.Automaton
import TreeLint.Regex.Basic
import TreeLint.Regex.Class
import TreeLint.Regex.Match
import TreeLint.Regex.Reader
import TreeLint.Release
import TreeLint.Rule.Builtin
import TreeLint.Rule.Category
import TreeLint.Rule.Comment
import TreeLint.Rule.Descriptor
import TreeLint.Rule.Message
import TreeLint.Rule.Pattern
import TreeLint.Rule.Registry
import TreeLint.Syntax.Builder
import TreeLint.Syntax.Cursor
import TreeLint.Syntax.Declaration
import TreeLint.Syntax.Handler
import TreeLint.Syntax.Kind
import TreeLint.Syntax.Locate
import TreeLint.Syntax.Outline
import TreeLint.Syntax.Token
import TreeLint.Syntax.Tree
import TreeLint.Syntax.Trivia
import TreeLint.Text.Diff
import TreeLint.Text.Digit
import TreeLint.Text.Edit
import TreeLint.Text.Lines
import TreeLint.Text.Marker
import TreeLint.Text.Quoted
import TreeLint.Text.Range
import TreeLint.Unicode.Age
import TreeLint.Unicode.Boundary
import TreeLint.Unicode.Casing
import TreeLint.Unicode.Category
import TreeLint.Unicode.CodeSet
import TreeLint.Unicode.Letter
import TreeLint.Unicode.Name
import TreeLint.Unicode.Property
import TreeLint.Unicode.Script
import TreeLint.Unicode.Utf8
import TreeLint.Proofs.Independence
import TreeLint.Proofs.Catalog
import TreeLint.Proofs.Sharing
import TreeLint.Proofs.Editing
import TreeLint.Proofs.Difference
import TreeLint.Proofs.Stacking
import TreeLint.Proofs.Standing
import TreeLint.Proofs.Formed
import TreeLint.Proofs.FormedUnit
import TreeLint.Proofs.Closing
import TreeLint.Proofs.Rethrowing
import TreeLint.Proofs.Creations
import TreeLint.Proofs.Content
import TreeLint.Proofs.Messages
import TreeLint.Proofs.Ordering
import TreeLint.Proofs.Markers
import TreeLint.Proofs.Targets
import TreeLint.Proofs.Ownership
