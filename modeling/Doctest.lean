import Doctest.Assembly
import Doctest.Comparison
import Doctest.Config
import Doctest.Config.Notation
import Doctest.Console
import Doctest.Console.Arguments
import Doctest.Console.Excerpt
import Doctest.Console.StatusLine
import Doctest.Console.Style
import Doctest.Decimal.Double
import Doctest.Declaration
import Doctest.Difference
import Doctest.Difference.Shift
import Doctest.Directive
import Doctest.Directive.Header
import Doctest.Document
import Doctest.Document.Comment
import Doctest.Document.Entity
import Doctest.Document.Token
import Doctest.Fault
import Doctest.Fault.Cause
import Doctest.Files
import Doctest.Files.DataDirectory
import Doctest.Files.Path
import Doctest.Files.Workspace
import Doctest.Insertion
import Doctest.Keyed
import Doctest.LineMod
import Doctest.LineSet
import Doctest.Locator
import Doctest.Markdown.Block
import Doctest.Markdown.Container
import Doctest.Markdown.Entity
import Doctest.Markdown.EntityTable
import Doctest.Markdown.Html
import Doctest.Markdown.Inline
import Doctest.Markdown.Line
import Doctest.Markdown.Link
import Doctest.Markdown.Table
import Doctest.Regex.CharSet
import Doctest.Regex.Pattern
import Doctest.Regex.Program
import Doctest.Regex.Reader
import Doctest.Regex.Search
import Doctest.Regex.Template
import Doctest.Run
import Doctest.Run.Host
import Doctest.Run.Report
import Doctest.Shell
import Doctest.Shell.Command
import Doctest.Shell.Escape
import Doctest.Shell.Format
import Doctest.Shell.StreamEdit
import Doctest.Shell.Token
import Doctest.Shell.Utility
import Doctest.Snippet
import Doctest.Snippet.Format
import Doctest.Source
import Doctest.Substitution
import Doctest.Text.Blank
import Doctest.Text.Delimited
import Doctest.Text.Integer
import Doctest.Text.Line
import Doctest.Text.Quoted
import Doctest.Text.Search
import Doctest.Transcript
import Doctest.Unicode.CaseFold
import Doctest.Unicode.Category
import Doctest.Unicode.CategoryTable
import Doctest.Unicode.Script
import Doctest.Unicode.Width
import Doctest.Visited
import Doctest.Yaml.Node
import Doctest.Yaml.Scalar
import Doctest.Yaml.Token
import Doctest.Yaml.Writer
import Doctest.Main
import Doctest.Proofs.Index
import Doctest.Proofs.Acceptance
import Doctest.Proofs.BodyFaults
import Doctest.Proofs.Composition
import Doctest.Proofs.Writes
import Doctest.Proofs.Accounting
import Doctest.Proofs.Visits
import Doctest.Proofs.Log
import Doctest.Proofs.Verdict
import Doctest.Proofs.Calls
import Doctest.Proofs.Requests
import Doctest.Proofs.Aborts
import Doctest.Proofs.HeaderGrammar
import Doctest.Proofs.DirectiveText
import Doctest.Proofs.Inheritance
import Doctest.Proofs.DirectiveFaults
import Doctest.Proofs.FaultPlaces
import Doctest.Proofs.RunFaults
import Doctest.Proofs.CommentScan
import Doctest.Proofs.CommentTokens
import Doctest.Proofs.ConfigNodes
import Doctest.Proofs.LineComments
import Doctest.Proofs.DistinctIds
import Doctest.Proofs.Lookups
import Doctest.Proofs.References
import Doctest.Proofs.UnusedIds
import Doctest.Proofs.Unreferenced
import Doctest.Proofs.WrittenLines
import Doctest.Proofs.PrintedConfig
import Doctest.Proofs.DeclaredLineMods
import Doctest.Proofs.EntityForms
import Doctest.Proofs.SourceLines
import Doctest.Proofs.CursorPlaces
import Doctest.Proofs.InlinePlaces
import Doctest.Proofs.BlockOrder
import Doctest.Proofs.TokenLines
import Doctest.Proofs.HeadingAbove
import Doctest.Proofs.LineEdits
import Doctest.Proofs.OuterLines
import Doctest.Proofs.InnerIsolation
import Doctest.Proofs.SubstitutionText
import Doctest.Proofs.Replacements
import Doctest.Proofs.AdjacentMatches
import Doctest.Proofs.LocatorText
import Doctest.Proofs.NamedLines
import Doctest.Proofs.ContainedLines
import Doctest.Proofs.TranscriptBlocks
import Doctest.Proofs.FirstDeclarations
import Doctest.Proofs.LineOffsets
import Doctest.Proofs.SuccessiveScans
import Doctest.Proofs.LineEnds
import Doctest.Proofs.Patches
import Doctest.Proofs.WrittenFiles
import Doctest.Proofs.Tallies
import Doctest.Proofs.AttributeText
import Doctest.Proofs.HeadingWords
import Doctest.Proofs.Descent
import Doctest.Proofs.CommentStarts
import Doctest.Proofs.BodyGroups
import Doctest.Proofs.ExceptionLiterals
