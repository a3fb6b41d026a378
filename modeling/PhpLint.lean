import PhpLint.Analyzer
import PhpLint.Check.Context
import PhpLint.Check.Documentation
import PhpLint.Check.Layout
import PhpLint.Check.Naming
import PhpLint.Check.Structure
import PhpLint.Check.Typing
import PhpLint.Cli.Arguments
import PhpLint.Cli.ConfigSource
import PhpLint.Cli.Output
import PhpLint.Cli.Run
import PhpLint.Code.Body
import PhpLint.Code.Bracket
import PhpLint.Code.Keyword
import PhpLint.Code.Scrubber
import PhpLint.Code.Search
import PhpLint.Declaration.Class
import PhpLint.Declaration.Function
import PhpLint.Declaration.Import
import PhpLint.Declaration.Modifier
import PhpLint.Declaration.Property
import PhpLint.Detector
import PhpLint.Discovery
import PhpLint.DocBlock.Basic
import PhpLint.DocBlock.Lookup
import PhpLint.DocBlock.Parser
import PhpLint.FileTree.Basic
import PhpLint.FileTree.Walk
import PhpLint.Glob
import PhpLint.Ignore.File
import PhpLint.Ignore.Load
import PhpLint.Ignore.Matcher
import PhpLint.Ignore.Parser
import PhpLint.Ignore.Token
import PhpLint.Issue
import PhpLint.JsonValue
import PhpLint.Keyed
import PhpLint.LogicalLine
import PhpLint.Main
import PhpLint.Naming
import PhpLint.Path
import PhpLint.Preset
import PhpLint.Proofs.Analyzer.SingleRule
import PhpLint.Proofs.Check.Branchless
import PhpLint.Proofs.Check.ConstantList
import PhpLint.Proofs.Check.Decisions
import PhpLint.Proofs.Check.DeclarePlace
import PhpLint.Proofs.Check.DefineCalls
import PhpLint.Proofs.Check.IssueLines
import PhpLint.Proofs.Check.LineBreak
import PhpLint.Proofs.Check.NullOperators
import PhpLint.Proofs.Check.RenameHint
import PhpLint.Proofs.Checked.Declaration
import PhpLint.Proofs.Checked.DocBlock
import PhpLint.Proofs.Checked.Slice
import PhpLint.Proofs.Checked.SourceModel
import PhpLint.Proofs.Cli.ConfigSource
import PhpLint.Proofs.Code.Attribute
import PhpLint.Proofs.Code.Body
import PhpLint.Proofs.Code.BodyRun
import PhpLint.Proofs.Code.BodyText
import PhpLint.Proofs.Code.Constant
import PhpLint.Proofs.Code.Enclosed
import PhpLint.Proofs.Code.Lexer
import PhpLint.Proofs.Code.LineBreak
import PhpLint.Proofs.Code.LineComment
import PhpLint.Proofs.Code.Literals
import PhpLint.Proofs.Code.Marks
import PhpLint.Proofs.Code.Matching
import PhpLint.Proofs.Code.Names
import PhpLint.Proofs.Code.Scans
import PhpLint.Proofs.Code.Scrubber
import PhpLint.Proofs.Code.Search
import PhpLint.Proofs.Code.Split
import PhpLint.Proofs.Code.Uncommented
import PhpLint.Proofs.Code.Words
import PhpLint.Proofs.Declaration.ClassHeader
import PhpLint.Proofs.Declaration.ClassNames
import PhpLint.Proofs.Declaration.ClassPadding
import PhpLint.Proofs.Declaration.ImportText
import PhpLint.Proofs.Declaration.ModifierWords
import PhpLint.Proofs.Declaration.Padding
import PhpLint.Proofs.Declaration.PropertyList
import PhpLint.Proofs.Declaration.PropertyText
import PhpLint.Proofs.Declaration.QualifiedName
import PhpLint.Proofs.Declaration.Signature
import PhpLint.Proofs.Declaration.SignatureText
import PhpLint.Proofs.Declaration.Suffix
import PhpLint.Proofs.Detector.ErrorTable
import PhpLint.Proofs.Detector.Run
import PhpLint.Proofs.Discovery.Exact
import PhpLint.Proofs.Discovery.Sorting
import PhpLint.Proofs.DocBlock.Lookup
import PhpLint.Proofs.DocBlock.Outline
import PhpLint.Proofs.DocBlock.RoundTrip
import PhpLint.Proofs.DocBlock.Tag
import PhpLint.Proofs.FileTree.Listing
import PhpLint.Proofs.FileTree.Location
import PhpLint.Proofs.FileTree.Spelling
import PhpLint.Proofs.FileTree.Walk
import PhpLint.Proofs.Glob
import PhpLint.Proofs.Ignore.AnswerCache
import PhpLint.Proofs.Ignore.Load
import PhpLint.Proofs.Ignore.Matcher
import PhpLint.Proofs.Ignore.Nested
import PhpLint.Proofs.Keyed
import PhpLint.Proofs.LogicalLine.Attribute
import PhpLint.Proofs.LogicalLine.LineComment
import PhpLint.Proofs.LogicalLine.Marks
import PhpLint.Proofs.LogicalLine.Signature
import PhpLint.Proofs.LogicalLine.Split
import PhpLint.Proofs.LogicalLine.Tiling
import PhpLint.Proofs.Naming
import PhpLint.Proofs.Path.Components
import PhpLint.Proofs.Path.Order
import PhpLint.Proofs.Path.Parents
import PhpLint.Proofs.Path.Relative
import PhpLint.Proofs.Preset
import PhpLint.Proofs.Report.RoundTrip
import PhpLint.Proofs.SourceModel.Attribute
import PhpLint.Proofs.SourceModel.ClassEnd
import PhpLint.Proofs.SourceModel.ClassHeader
import PhpLint.Proofs.SourceModel.ClassLines
import PhpLint.Proofs.SourceModel.DocComments
import PhpLint.Proofs.SourceModel.Documented
import PhpLint.Proofs.SourceModel.Imports
import PhpLint.Proofs.SourceModel.LineComment
import PhpLint.Proofs.SourceModel.MethodExtent
import PhpLint.Proofs.SourceModel.Outside
import PhpLint.Proofs.SourceModel.Properties
import PhpLint.Proofs.SourceModel.Signature
import PhpLint.Proofs.SourceModel.Steps
import PhpLint.Proofs.SourceModel.StrictTypes
import PhpLint.Proofs.SourceModel.Traits
import PhpLint.Proofs.SourceModel.WellFormed
import PhpLint.Proofs.Text.Basic
import PhpLint.Proofs.Text.Lines
import PhpLint.Proofs.Text.Offset
import PhpLint.Proofs.Text.Padding
import PhpLint.Proofs.TypeExpr.Contradiction
import PhpLint.Proofs.TypeExpr.Member
import PhpLint.Proofs.TypeExpr.NormalForm
import PhpLint.Report
import PhpLint.Rule
import PhpLint.Settings
import PhpLint.SourceFile
import PhpLint.SourceModel.Basic
import PhpLint.SourceModel.Parser
import PhpLint.Text.Basic
import PhpLint.Text.Case
import PhpLint.Text.Ends
import PhpLint.Text.Lines
import PhpLint.Text.Quoted
import PhpLint.Text.Utf8
import PhpLint.Text.Word
import PhpLint.Toml.DateTime
import PhpLint.Toml.Digits
import PhpLint.Toml.Document
import PhpLint.Toml.Scalar
import PhpLint.Toml.Value
import PhpLint.TypeExpr.Basic
import PhpLint.TypeExpr.Mismatch
