import HouseStyle.Check.Log
import HouseStyle.Check.Report
import HouseStyle.Check.Walk
import HouseStyle.Command.Basic
import HouseStyle.Command.Execute
import HouseStyle.Command.Help
import HouseStyle.Command.Outcome
import HouseStyle.Command.Request
import HouseStyle.Command.Words
import HouseStyle.Data
import HouseStyle.Diff.Blocks
import HouseStyle.Diff.Unified
import HouseStyle.Failure
import HouseStyle.Files.Path
import HouseStyle.Files.Read
import HouseStyle.Files.Scan
import HouseStyle.Files.Tree
import HouseStyle.Fix.Edits
import HouseStyle.Fix.Loop
import HouseStyle.Glob.Match
import HouseStyle.Glob.Pattern
import HouseStyle.Json
import HouseStyle.Log
import HouseStyle.Main
import HouseStyle.Output.Listing
import HouseStyle.Output.Results
import HouseStyle.Output.Summary
import HouseStyle.Parse.Fault
import HouseStyle.Parse.Language
import HouseStyle.Parse.Parsed
import HouseStyle.Proofs.Check.Aggregation
import HouseStyle.Proofs.Check.Crashes
import HouseStyle.Proofs.Check.Independence
import HouseStyle.Proofs.Check.Report
import HouseStyle.Proofs.Check.Traversal
import HouseStyle.Proofs.Check.Walk
import HouseStyle.Proofs.Diff.Hunks
import HouseStyle.Proofs.Diff.Patch
import HouseStyle.Proofs.Diff.Script
import HouseStyle.Proofs.Files.DefaultExcludes
import HouseStyle.Proofs.Files.InputOrder
import HouseStyle.Proofs.Fix.Again
import HouseStyle.Proofs.Fix.Contract
import HouseStyle.Proofs.Fix.FixedPoint
import HouseStyle.Proofs.Fix.Leftovers
import HouseStyle.Proofs.Fix.LineEndings
import HouseStyle.Proofs.Fix.SamePrograms
import HouseStyle.Proofs.Fix.Settling
import HouseStyle.Proofs.Fix.Survivors
import HouseStyle.Proofs.Fix.ValueFixes
import HouseStyle.Proofs.Glob.Patterns
import HouseStyle.Proofs.Json.RoundTrip
import HouseStyle.Proofs.Output.Lines
import HouseStyle.Proofs.Parse.Parsed
import HouseStyle.Proofs.Python.Expressions
import HouseStyle.Proofs.Python.MirroredExpressions
import HouseStyle.Proofs.Python.MirroredPatterns
import HouseStyle.Proofs.Python.MirroredStatements
import HouseStyle.Proofs.Python.MirroredText
import HouseStyle.Proofs.Python.Mirrors
import HouseStyle.Proofs.Python.Patterns
import HouseStyle.Proofs.Python.Places
import HouseStyle.Proofs.Python.Respelling
import HouseStyle.Proofs.Python.SameTrees
import HouseStyle.Proofs.Python.Standing
import HouseStyle.Proofs.Python.Statements
import HouseStyle.Proofs.Python.Tokens
import HouseStyle.Proofs.Python.Trees
import HouseStyle.Proofs.Python.Windows
import HouseStyle.Proofs.Rule.Branches
import HouseStyle.Proofs.Rule.CommentedCommas
import HouseStyle.Proofs.Rule.ImportBlock
import HouseStyle.Proofs.Rule.ImportLines
import HouseStyle.Proofs.Rule.ImportReports
import HouseStyle.Proofs.Rule.Inside
import HouseStyle.Proofs.Rule.Levels
import HouseStyle.Proofs.Rule.Lightening
import HouseStyle.Proofs.Rule.LineBreaks
import HouseStyle.Proofs.Rule.Mending
import HouseStyle.Proofs.Rule.Messages
import HouseStyle.Proofs.Rule.NumberTokens
import HouseStyle.Proofs.Rule.OptionsClass
import HouseStyle.Proofs.Rule.OrderEdit
import HouseStyle.Proofs.Rule.OrderReports
import HouseStyle.Proofs.Rule.Ordering
import HouseStyle.Proofs.Rule.OutOfOrder
import HouseStyle.Proofs.Rule.QuoteBreaks
import HouseStyle.Proofs.Rule.QuotedZeros
import HouseStyle.Proofs.Rule.Ranks
import HouseStyle.Proofs.Rule.Reordering
import HouseStyle.Proofs.Rule.Reports
import HouseStyle.Proofs.Rule.SelectorEdit
import HouseStyle.Proofs.Rule.Separation
import HouseStyle.Proofs.Rule.Slots
import HouseStyle.Proofs.Rule.StyleBreaks
import HouseStyle.Proofs.Rule.ValueEdit
import HouseStyle.Proofs.Run.Files
import HouseStyle.Proofs.Run.Pool
import HouseStyle.Proofs.Settings.Entries
import HouseStyle.Proofs.Settings.Loading
import HouseStyle.Proofs.Settings.Shown
import HouseStyle.Proofs.Stylesheet.Agreement
import HouseStyle.Proofs.Stylesheet.Ahead
import HouseStyle.Proofs.Stylesheet.Alongside
import HouseStyle.Proofs.Stylesheet.Blocks
import HouseStyle.Proofs.Stylesheet.Causes
import HouseStyle.Proofs.Stylesheet.Closing
import HouseStyle.Proofs.Stylesheet.Composition
import HouseStyle.Proofs.Stylesheet.Heads
import HouseStyle.Proofs.Stylesheet.Kinds
import HouseStyle.Proofs.Stylesheet.LineEndings
import HouseStyle.Proofs.Stylesheet.Lossless
import HouseStyle.Proofs.Stylesheet.Moving
import HouseStyle.Proofs.Stylesheet.Names
import HouseStyle.Proofs.Stylesheet.Nodes
import HouseStyle.Proofs.Stylesheet.Numbers
import HouseStyle.Proofs.Stylesheet.Opacity
import HouseStyle.Proofs.Stylesheet.Pieces
import HouseStyle.Proofs.Stylesheet.Progress
import HouseStyle.Proofs.Stylesheet.Reading
import HouseStyle.Proofs.Stylesheet.Returns
import HouseStyle.Proofs.Stylesheet.Selectors
import HouseStyle.Proofs.Stylesheet.Sequence
import HouseStyle.Proofs.Stylesheet.Shape
import HouseStyle.Proofs.Stylesheet.ShortValues
import HouseStyle.Proofs.Stylesheet.Shortening
import HouseStyle.Proofs.Stylesheet.Starts
import HouseStyle.Proofs.Stylesheet.Strings
import HouseStyle.Proofs.Stylesheet.Values
import HouseStyle.Proofs.Text.Breaks
import HouseStyle.Proofs.Text.Letters
import HouseStyle.Proofs.Text.Lines
import HouseStyle.Proofs.Text.Pieces
import HouseStyle.Proofs.Text.Places
import HouseStyle.Proofs.Text.Positions
import HouseStyle.Proofs.Text.Replacement
import HouseStyle.Proofs.Text.Selection
import HouseStyle.Proofs.Text.Utf8
import HouseStyle.Proofs.Text.Weight
import HouseStyle.Proofs.Tree.Relocation
import HouseStyle.Proofs.Tree.Sketch
import HouseStyle.Python.Arguments
import HouseStyle.Python.Expression
import HouseStyle.Python.Form
import HouseStyle.Python.Identifier
import HouseStyle.Python.Lexer
import HouseStyle.Python.Module
import HouseStyle.Python.Pattern
import HouseStyle.Python.Piece
import HouseStyle.Python.Recognizer
import HouseStyle.Python.Statement
import HouseStyle.Python.Token
import HouseStyle.Rule.Basic
import HouseStyle.Rule.BorderNone
import HouseStyle.Rule.Catalogue
import HouseStyle.Rule.ClassName
import HouseStyle.Rule.DeclarationValue
import HouseStyle.Rule.Forbidden
import HouseStyle.Rule.Identity
import HouseStyle.Rule.ImportGrouping
import HouseStyle.Rule.MetaPosition
import HouseStyle.Rule.NamingConvention
import HouseStyle.Rule.NestingDepth
import HouseStyle.Rule.Page
import HouseStyle.Rule.PropertyOrder
import HouseStyle.Rule.QuoteStyle
import HouseStyle.Rule.RelatedName
import HouseStyle.Rule.SelectorPerLine
import HouseStyle.Rule.StandardModules
import HouseStyle.Rule.Violation
import HouseStyle.Rule.ZeroUnit
import HouseStyle.Run.File
import HouseStyle.Run.Project
import HouseStyle.Settings.Basic
import HouseStyle.Settings.Display
import HouseStyle.Settings.File
import HouseStyle.Settings.Options
import HouseStyle.Settings.Reading
import HouseStyle.Stylesheet.Form
import HouseStyle.Stylesheet.Parser
import HouseStyle.Stylesheet.Scan
import HouseStyle.Stylesheet.Selector
import HouseStyle.Text.Blank
import HouseStyle.Text.Casing
import HouseStyle.Text.Cursor
import HouseStyle.Text.Edit
import HouseStyle.Text.Letter
import HouseStyle.Text.Numeral
import HouseStyle.Text.Pieces
import HouseStyle.Text.Printable
import HouseStyle.Text.Quoted
import HouseStyle.Text.Ranges
import HouseStyle.Text.Source
import HouseStyle.Text.Span
import HouseStyle.Text.Utf8
import HouseStyle.Toml.Document
import HouseStyle.Toml.Number
import HouseStyle.Toml.Text
import HouseStyle.Tree.Basic
