import GuidedTour.Files.Basic
import GuidedTour.Files.Folder
import GuidedTour.Files.IgnoreRule
import GuidedTour.Files.Listing
import GuidedTour.Files.Snapshot
import GuidedTour.Files.World
import GuidedTour.Glob.Basic
import GuidedTour.Glob.Reader
import GuidedTour.Json.Basic
import GuidedTour.Json.Literal
import GuidedTour.Json.Printer
import GuidedTour.Json.Reader
import GuidedTour.Json.Record
import GuidedTour.Language
import GuidedTour.Main
import GuidedTour.Number.Binary
import GuidedTour.Number.Numeral
import GuidedTour.Number.Shortest
import GuidedTour.Outline.Basic
import GuidedTour.Outline.Element
import GuidedTour.Outline.FromLines
import GuidedTour.Outline.FromTree
import GuidedTour.Outline.LinePattern
import GuidedTour.Outline.Parser
import GuidedTour.Outline.Specifier
import GuidedTour.Path
import GuidedTour.Program.Arguments
import GuidedTour.Program.Invocation
import GuidedTour.Program.Settings
import GuidedTour.Proofs.Announcing
import GuidedTour.Proofs.ArrayScan
import GuidedTour.Proofs.BracketDepth
import GuidedTour.Proofs.Brackets
import GuidedTour.Proofs.Cancellation
import GuidedTour.Proofs.Chunks
import GuidedTour.Proofs.CompletedRun
import GuidedTour.Proofs.Completion
import GuidedTour.Proofs.Digest
import GuidedTour.Proofs.Discovery
import GuidedTour.Proofs.DraftFields
import GuidedTour.Proofs.DraftJson
import GuidedTour.Proofs.Drafts
import GuidedTour.Proofs.Ensures
import GuidedTour.Proofs.Execution
import GuidedTour.Proofs.Glob.Accepting
import GuidedTour.Proofs.Glob.Bytes
import GuidedTour.Proofs.Glob.PlainText
import GuidedTour.Proofs.Inclusion
import GuidedTour.Proofs.IntegerLine
import GuidedTour.Proofs.Interleaving
import GuidedTour.Proofs.JoinedPath
import GuidedTour.Proofs.Json.Accepted
import GuidedTour.Proofs.Json.Comeback
import GuidedTour.Proofs.Json.Fields
import GuidedTour.Proofs.Json.Grammar
import GuidedTour.Proofs.Json.Indented
import GuidedTour.Proofs.Json.Members
import GuidedTour.Proofs.Json.Number
import GuidedTour.Proofs.Json.Quoted
import GuidedTour.Proofs.Json.Reading
import GuidedTour.Proofs.Json.Record
import GuidedTour.Proofs.Json.RecordForm
import GuidedTour.Proofs.Json.Writing
import GuidedTour.Proofs.KnownFile
import GuidedTour.Proofs.Lines
import GuidedTour.Proofs.ListedPath
import GuidedTour.Proofs.LowerCase
import GuidedTour.Proofs.Lowering
import GuidedTour.Proofs.Merge
import GuidedTour.Proofs.Noise
import GuidedTour.Proofs.Number.Rounding
import GuidedTour.Proofs.Order
import GuidedTour.Proofs.Outline.CallPattern
import GuidedTour.Proofs.Outline.Entry
import GuidedTour.Proofs.Outline.FunctionBodies
import GuidedTour.Proofs.Outline.ImportedModule
import GuidedTour.Proofs.Outline.LinePattern
import GuidedTour.Proofs.Outline.LineScan
import GuidedTour.Proofs.Outline.Methods
import GuidedTour.Proofs.Outline.Nesting
import GuidedTour.Proofs.Outline.QuotedModule
import GuidedTour.Proofs.Outline.SourceOrder
import GuidedTour.Proofs.Outline.StatementTexts
import GuidedTour.Proofs.Outline.Statements
import GuidedTour.Proofs.Outline.WellFormed
import GuidedTour.Proofs.Overrides
import GuidedTour.Proofs.Plan
import GuidedTour.Proofs.ProjectJson
import GuidedTour.Proofs.Prose
import GuidedTour.Proofs.Ranking
import GuidedTour.Proofs.Readme.Again
import GuidedTour.Proofs.Readme.Lines
import GuidedTour.Proofs.Reply
import GuidedTour.Proofs.Review
import GuidedTour.Proofs.ReviewAgain
import GuidedTour.Proofs.ReviewBounds
import GuidedTour.Proofs.ReviewEach
import GuidedTour.Proofs.Round
import GuidedTour.Proofs.SelectionOrder
import GuidedTour.Proofs.SingleSpaces
import GuidedTour.Proofs.Slug
import GuidedTour.Proofs.SortedTable
import GuidedTour.Proofs.TidyPath
import GuidedTour.Proofs.Tour
import GuidedTour.Proofs.TourFile
import GuidedTour.Proofs.Tree.Node
import GuidedTour.Proofs.Tree.Span
import GuidedTour.Proofs.Tree.Topmost
import GuidedTour.Proofs.Trim
import GuidedTour.Proofs.Welcome
import GuidedTour.Proofs.WelcomeRepair
import GuidedTour.Proofs.Width
import GuidedTour.Run.Batch
import GuidedTour.Run.Context
import GuidedTour.Run.Course
import GuidedTour.Run.Failure
import GuidedTour.Run.Generation
import GuidedTour.Run.Group
import GuidedTour.Run.Journal
import GuidedTour.Run.Milestone
import GuidedTour.Run.Welcome
import GuidedTour.Service.Completion
import GuidedTour.Service.Config
import GuidedTour.Service.Failure
import GuidedTour.Service.Message
import GuidedTour.Service.Script
import GuidedTour.Text.Basic
import GuidedTour.Text.CaseTable
import GuidedTour.Text.Lower
import GuidedTour.Text.Word
import GuidedTour.Text.WordTable
import GuidedTour.Toml.Basic
import GuidedTour.Toml.Reader
import GuidedTour.Toml.Scalar
import GuidedTour.Tour.Answer
import GuidedTour.Tour.Artifact
import GuidedTour.Tour.Digest
import GuidedTour.Tour.Manifest
import GuidedTour.Tour.Readme
import GuidedTour.Tour.Review
import GuidedTour.Tour.Step
import GuidedTour.Tree.Basic
import GuidedTour.Tree.Kind
import GuidedTour.Workspace.Basic
import GuidedTour.Workspace.Noise
import GuidedTour.Workspace.Ranking
import GuidedTour.Workspace.Survey
