import Orthography.CommandLine.Arguments
import Orthography.CommandLine.Draft
import Orthography.CommandLine.Flag
import Orthography.CommandLine.Given
import Orthography.CommandLine.Invocation
import Orthography.CommandLine.Refusal
import Orthography.CommandLine.Run
import Orthography.CommandLine.Word
import Orthography.Config.Load
import Orthography.Config.Settings
import Orthography.Decimal.Binary64
import Orthography.Decimal.Digits
import Orthography.Decimal.Numeral
import Orthography.Diagnostic.Basic
import Orthography.Diagnostic.Sink
import Orthography.File.Collect
import Orthography.File.Encoding
import Orthography.File.Glob
import Orthography.File.Path
import Orthography.File.Read
import Orthography.File.Store
import Orthography.File.Utf8
import Orthography.File.Wide
import Orthography.Lexeme.Basic
import Orthography.Lexeme.Lexer
import Orthography.Lexeme.Notice
import Orthography.Lexeme.Shape
import Orthography.Lint.File
import Orthography.Lint.Options
import Orthography.Lint.Reporter
import Orthography.Lint.Run
import Orthography.Lint.Visitor
import Orthography.Log
import Orthography.Main
import Orthography.Parse.Basic
import Orthography.Parse.Events
import Orthography.Proofs.CommandLine.Independence
import Orthography.Proofs.Config.Containment
import Orthography.Proofs.Config.Overlay
import Orthography.Proofs.File.Collection
import Orthography.Proofs.File.Containment
import Orthography.Proofs.Lexeme.Failure
import Orthography.Proofs.Lexeme.Spelling
import Orthography.Proofs.Lint.Acceptance
import Orthography.Proofs.Lint.Coverage
import Orthography.Proofs.Lint.Emission
import Orthography.Proofs.Lint.Placement
import Orthography.Proofs.Lint.Questions
import Orthography.Proofs.Lint.Reference
import Orthography.Proofs.Lint.Suppression
import Orthography.Proofs.Parse.Comments
import Orthography.Proofs.Parse.Conversion
import Orthography.Proofs.Parse.DocumentOrder
import Orthography.Proofs.Parse.Failure
import Orthography.Proofs.Parse.Leading
import Orthography.Proofs.Parse.Rewriting
import Orthography.Proofs.Parse.Rules
import Orthography.Proofs.Parse.Tiling
import Orthography.Proofs.Prose.Escapes
import Orthography.Proofs.Prose.FixedPoints
import Orthography.Proofs.Prose.Locality
import Orthography.Proofs.Prose.Pattern
import Orthography.Proofs.Prose.Words
import Orthography.Proofs.Spelling.Acceptance
import Orthography.Proofs.Spelling.Pattern
import Orthography.Proofs.Spelling.Resumption
import Orthography.Proofs.Spelling.Stored
import Orthography.Proofs.Text.LineIndex
import Orthography.Proofs.Text.Lines
import Orthography.Proofs.Text.Positions
import Orthography.Proofs.Tree.Asides
import Orthography.Proofs.Tree.Assembly
import Orthography.Proofs.Tree.Conservation
import Orthography.Proofs.Tree.FeedOrder
import Orthography.Proofs.Tree.Layout
import Orthography.Proofs.Tree.Nesting
import Orthography.Proofs.Tree.Places
import Orthography.Proofs.Tree.Rebuild
import Orthography.Proofs.Tree.Scope
import Orthography.Proofs.Tree.Traversal
import Orthography.Proofs.Tree.Visits
import Orthography.Prose.Links
import Orthography.Prose.Pattern
import Orthography.Prose.Words
import Orthography.Spelling.Correction
import Orthography.Spelling.Oracle
import Orthography.Spelling.Suppression
import Orthography.Spelling.Vocabulary
import Orthography.Spelling.Word
import Orthography.Text.Basic
import Orthography.Text.LineIndex
import Orthography.Text.MachineWord
import Orthography.Text.Quoted
import Orthography.Text.Span
import Orthography.Toml.Document
import Orthography.Toml.Fault
import Orthography.Toml.Scalar
import Orthography.Toml.Value
import Orthography.Tree.Basic
import Orthography.Tree.Builder
import Orthography.Tree.Kind
import Orthography.Tree.Walk
import Orthography.Unicode.Blank
import Orthography.Unicode.Decimal
import Orthography.Unicode.Identifier
import Orthography.Unicode.Lower
import Orthography.Unicode.Numeric
import Orthography.Unicode.Printable
import Orthography.Unicode.Runs
import Orthography.Unicode.Skeleton
import Orthography.Unicode.Upper
import Orthography.Unicode.Word
