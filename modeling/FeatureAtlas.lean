import FeatureAtlas.Comment.Block
import FeatureAtlas.Comment.Header
import FeatureAtlas.Comment.Tag
import FeatureAtlas.Concurrency.Pool
import FeatureAtlas.Concurrency.Semaphore
import FeatureAtlas.Config.KeyOrder
import FeatureAtlas.Config.Load
import FeatureAtlas.Config.Merge
import FeatureAtlas.Config.Objects
import FeatureAtlas.Config.Override
import FeatureAtlas.Config.PathField
import FeatureAtlas.Config.Schema
import FeatureAtlas.Config.Setting
import FeatureAtlas.Console.Exit
import FeatureAtlas.Console.Help
import FeatureAtlas.Console.Invocation
import FeatureAtlas.Console.Option
import FeatureAtlas.Console.Report
import FeatureAtlas.Console.Run
import FeatureAtlas.Datum.Basic
import FeatureAtlas.Datum.Display
import FeatureAtlas.Datum.Plain
import FeatureAtlas.Declaration.ExportedType
import FeatureAtlas.Declaration.Name
import FeatureAtlas.Declaration.Preceding
import FeatureAtlas.Declaration.Scan
import FeatureAtlas.Declaration.Utility
import FeatureAtlas.Distinct
import FeatureAtlas.Extraction.Basic
import FeatureAtlas.Extraction.Block
import FeatureAtlas.Failure.Basic
import FeatureAtlas.Failure.Report
import FeatureAtlas.FeatureMap.Basic
import FeatureAtlas.FeatureMap.Entry
import FeatureAtlas.FileTree.Basic
import FeatureAtlas.FileTree.Canonical
import FeatureAtlas.FileTree.Change
import FeatureAtlas.FileTree.Collect
import FeatureAtlas.FileTree.Listing
import FeatureAtlas.FileTree.Write
import FeatureAtlas.Generation.Basic
import FeatureAtlas.Generation.Options
import FeatureAtlas.Generation.Source
import FeatureAtlas.Glob.Basic
import FeatureAtlas.Import.Category
import FeatureAtlas.Import.Resolution
import FeatureAtlas.Item.Basic
import FeatureAtlas.Json.Comment
import FeatureAtlas.Json.Printer
import FeatureAtlas.Json.Reader
import FeatureAtlas.Json.Value
import FeatureAtlas.Log.Event
import FeatureAtlas.Log.Level
import FeatureAtlas.Log.Outlet
import FeatureAtlas.Log.Record
import FeatureAtlas.Log.Template
import FeatureAtlas.Merge.Addition
import FeatureAtlas.Merge.Pass
import FeatureAtlas.Number.Binary64
import FeatureAtlas.Number.Layout
import FeatureAtlas.Number.Shortest
import FeatureAtlas.Path.Basic
import FeatureAtlas.Path.Projection
import FeatureAtlas.Pattern.Fault
import FeatureAtlas.Pattern.Match
import FeatureAtlas.Pattern.Reader
import FeatureAtlas.Pattern.Syntax
import FeatureAtlas.Project.Analysis
import FeatureAtlas.Project.Basic
import FeatureAtlas.Project.CompilerOptions
import FeatureAtlas.Proofs.Comment.Block
import FeatureAtlas.Proofs.Comment.Entries
import FeatureAtlas.Proofs.Comment.Header
import FeatureAtlas.Proofs.Comment.Written
import FeatureAtlas.Proofs.Concurrency.Ledger
import FeatureAtlas.Proofs.Concurrency.Outcome
import FeatureAtlas.Proofs.Concurrency.Schedule
import FeatureAtlas.Proofs.Config.Check
import FeatureAtlas.Proofs.Config.Copies
import FeatureAtlas.Proofs.Config.Field
import FeatureAtlas.Proofs.Config.Keyed
import FeatureAtlas.Proofs.Config.Layers
import FeatureAtlas.Proofs.Config.Legal
import FeatureAtlas.Proofs.Config.Mapping
import FeatureAtlas.Proofs.Config.Objects
import FeatureAtlas.Proofs.Config.Ordered
import FeatureAtlas.Proofs.Config.Overlay
import FeatureAtlas.Proofs.Config.Override
import FeatureAtlas.Proofs.Config.PathField
import FeatureAtlas.Proofs.Config.PathObjects
import FeatureAtlas.Proofs.Config.Precedence
import FeatureAtlas.Proofs.Config.Reading
import FeatureAtlas.Proofs.Config.Stopping
import FeatureAtlas.Proofs.Config.Typed
import FeatureAtlas.Proofs.Datum.Plain
import FeatureAtlas.Proofs.Datum.Reordered
import FeatureAtlas.Proofs.Declaration.Braced
import FeatureAtlas.Proofs.Declaration.Member
import FeatureAtlas.Proofs.Declaration.Name
import FeatureAtlas.Proofs.Declaration.Preceding
import FeatureAtlas.Proofs.Declaration.Separated
import FeatureAtlas.Proofs.Declaration.Word
import FeatureAtlas.Proofs.Distinct
import FeatureAtlas.Proofs.Extraction.Body
import FeatureAtlas.Proofs.Extraction.Links
import FeatureAtlas.Proofs.Extraction.Summary
import FeatureAtlas.Proofs.Failure.Chain
import FeatureAtlas.Proofs.FeatureMap.Artifact
import FeatureAtlas.Proofs.FeatureMap.Grouping
import FeatureAtlas.Proofs.FileTree.Atomic
import FeatureAtlas.Proofs.FileTree.Collect
import FeatureAtlas.Proofs.FileTree.Deletion
import FeatureAtlas.Proofs.FileTree.Places
import FeatureAtlas.Proofs.FileTree.Removal
import FeatureAtlas.Proofs.FileTree.Selection
import FeatureAtlas.Proofs.FileTree.Write
import FeatureAtlas.Proofs.Generation.Schedule
import FeatureAtlas.Proofs.Generation.Unreadable
import FeatureAtlas.Proofs.Glob.Segment
import FeatureAtlas.Proofs.Import.Category
import FeatureAtlas.Proofs.Import.Resolution
import FeatureAtlas.Proofs.Json.Comment
import FeatureAtlas.Proofs.Json.Numeral
import FeatureAtlas.Proofs.Json.OneLine
import FeatureAtlas.Proofs.Json.Printing
import FeatureAtlas.Proofs.Json.Reading
import FeatureAtlas.Proofs.Json.Scalar
import FeatureAtlas.Proofs.Log.Record
import FeatureAtlas.Proofs.Merge.Addition
import FeatureAtlas.Proofs.Merge.Growth
import FeatureAtlas.Proofs.Merge.Order
import FeatureAtlas.Proofs.Merge.Pass
import FeatureAtlas.Proofs.Merge.Resolution
import FeatureAtlas.Proofs.Merge.TwoSided
import FeatureAtlas.Proofs.Merge.Views
import FeatureAtlas.Proofs.Number.Decimal
import FeatureAtlas.Proofs.Number.Rounding
import FeatureAtlas.Proofs.Path.Normal
import FeatureAtlas.Proofs.Path.Rooted
import FeatureAtlas.Proofs.Path.SourceFile
import FeatureAtlas.Proofs.Pattern.Match
import FeatureAtlas.Proofs.Project.Files
import FeatureAtlas.Proofs.Project.History
import FeatureAtlas.Proofs.Project.ModuleImport
import FeatureAtlas.Proofs.Project.Opening
import FeatureAtlas.Proofs.Project.Question
import FeatureAtlas.Proofs.Project.Session
import FeatureAtlas.Proofs.Table
import FeatureAtlas.Proofs.Text.Split
import FeatureAtlas.Proofs.Text.Trim
import FeatureAtlas.Proofs.Time.Calendar
import FeatureAtlas.Proofs.Time.Timestamp
import FeatureAtlas.Proofs.Usage.Inverse
import FeatureAtlas.Proofs.Usage.Verified
import FeatureAtlas.Syntax.Cursor
import FeatureAtlas.Syntax.Element
import FeatureAtlas.Syntax.Expression
import FeatureAtlas.Syntax.Grammar
import FeatureAtlas.Syntax.Literal
import FeatureAtlas.Syntax.Member
import FeatureAtlas.Syntax.Rules
import FeatureAtlas.Syntax.Statement
import FeatureAtlas.Syntax.Type
import FeatureAtlas.Table
import FeatureAtlas.Text.Basic
import FeatureAtlas.Text.Case
import FeatureAtlas.Text.Encoding
import FeatureAtlas.Text.Identifier
import FeatureAtlas.Text.Integer
import FeatureAtlas.Text.Printable
import FeatureAtlas.Text.Utf8
import FeatureAtlas.Text.Word
import FeatureAtlas.Text.Wrap
import FeatureAtlas.Time.Calendar
import FeatureAtlas.Time.Epoch
import FeatureAtlas.Toml.Lexeme
import FeatureAtlas.Toml.Reader
import FeatureAtlas.Usage.Basic
import FeatureAtlas.Usage.Verified
import FeatureAtlas.Yaml.Cursor
import FeatureAtlas.Yaml.Node
import FeatureAtlas.Yaml.Reader
import FeatureAtlas.Yaml.Scalar
import FeatureAtlas.Yaml.Text
import FeatureAtlas.Yaml.Token
