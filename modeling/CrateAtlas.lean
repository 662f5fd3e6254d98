import CrateAtlas.Analysis
import CrateAtlas.CommandLine.Arguments
import CrateAtlas.CommandLine.Run
import CrateAtlas.Config
import CrateAtlas.Coverage.Basic
import CrateAtlas.Coverage.Report
import CrateAtlas.Decimal.Double
import CrateAtlas.Decimal.Shortest
import CrateAtlas.FileTree
import CrateAtlas.Glob
import CrateAtlas.Graph.Basic
import CrateAtlas.Graph.Cycles
import CrateAtlas.Graph.Discovery
import CrateAtlas.Graph.Registry
import CrateAtlas.Graph.Walk
import CrateAtlas.History.Basic
import CrateAtlas.History.Log
import CrateAtlas.Json.Decode
import CrateAtlas.Json.Number
import CrateAtlas.Json.Reader
import CrateAtlas.Json.Value
import CrateAtlas.Main
import CrateAtlas.Outline.FileOutline
import CrateAtlas.Outline.Kind
import CrateAtlas.Outline.Lower
import CrateAtlas.Outline.Score
import CrateAtlas.Outline.Text
import CrateAtlas.Outline.Tree
import CrateAtlas.Package
import CrateAtlas.Path
import CrateAtlas.Proofs.AnalysisFailure
import CrateAtlas.Proofs.Ancestors
import CrateAtlas.Proofs.AtlasWellFormed
import CrateAtlas.Proofs.BuildInvariant
import CrateAtlas.Proofs.BuildOutcome
import CrateAtlas.Proofs.BuildTermination
import CrateAtlas.Proofs.CallInvariants
import CrateAtlas.Proofs.CommonPath
import CrateAtlas.Proofs.ComplexityTable
import CrateAtlas.Proofs.ConfigSearch
import CrateAtlas.Proofs.CoverageSpelling
import CrateAtlas.Proofs.CycleCompleteness
import CrateAtlas.Proofs.CycleSearch
import CrateAtlas.Proofs.DeepestFile
import CrateAtlas.Proofs.DepthRealised
import CrateAtlas.Proofs.DirectoryContents
import CrateAtlas.Proofs.DisplayNames
import CrateAtlas.Proofs.EdgeConservation
import CrateAtlas.Proofs.Exploration
import CrateAtlas.Proofs.FailureAccounting
import CrateAtlas.Proofs.FileFacts
import CrateAtlas.Proofs.FileSystem
import CrateAtlas.Proofs.FileWriting
import CrateAtlas.Proofs.FiniteCoverage
import CrateAtlas.Proofs.FiniteNumbers
import CrateAtlas.Proofs.GlobalSpecifiers
import CrateAtlas.Proofs.GrownGraph
import CrateAtlas.Proofs.ImportClosure
import CrateAtlas.Proofs.ImportDepth
import CrateAtlas.Proofs.ImportOrder
import CrateAtlas.Proofs.Jobs
import CrateAtlas.Proofs.JsonDecode
import CrateAtlas.Proofs.JsonNumber
import CrateAtlas.Proofs.JsonText
import CrateAtlas.Proofs.LooseImports
import CrateAtlas.Proofs.ModuleFiles
import CrateAtlas.Proofs.ModuleNodes
import CrateAtlas.Proofs.ModuleRoundTrip
import CrateAtlas.Proofs.Narrowing
import CrateAtlas.Proofs.Occurrences
import CrateAtlas.Proofs.OutlineNodes
import CrateAtlas.Proofs.PackageChoice
import CrateAtlas.Proofs.PathSpelling
import CrateAtlas.Proofs.Paths
import CrateAtlas.Proofs.Questions
import CrateAtlas.Proofs.ReachablePart
import CrateAtlas.Proofs.Readers
import CrateAtlas.Proofs.RecordRoundTrip
import CrateAtlas.Proofs.Registry
import CrateAtlas.Proofs.RegistryHistory
import CrateAtlas.Proofs.RelativeSpecifiers
import CrateAtlas.Proofs.Renumbering
import CrateAtlas.Proofs.RepeatedImports
import CrateAtlas.Proofs.ScheduleIndependence
import CrateAtlas.Proofs.Specifiers
import CrateAtlas.Proofs.SummaryOrder
import CrateAtlas.Proofs.TestItems
import CrateAtlas.Proofs.TextPaths
import CrateAtlas.Proofs.TidyExpressions
import CrateAtlas.Proofs.TidyItems
import CrateAtlas.Proofs.TidyPhrases
import CrateAtlas.Proofs.TopLevelImports
import CrateAtlas.Proofs.UnreachedFiles
import CrateAtlas.Proofs.UnsafeMarks
import CrateAtlas.Proofs.UseTreeLeaves
import CrateAtlas.Proofs.Utf8
import CrateAtlas.Proofs.Walk
import CrateAtlas.Proofs.WalkCalls
import CrateAtlas.Proofs.WrittenAtlas
import CrateAtlas.Proofs.WrittenPaths
import CrateAtlas.Record.Atlas
import CrateAtlas.Record.Encoding
import CrateAtlas.Record.Names
import CrateAtlas.Record.Warning
import CrateAtlas.Regex.Basic
import CrateAtlas.Regex.CharSet
import CrateAtlas.Regex.Reader
import CrateAtlas.Report.Statistics
import CrateAtlas.Report.View
import CrateAtlas.Resolver
import CrateAtlas.Source.Construct
import CrateAtlas.Source.Grammar.Expression
import CrateAtlas.Source.Grammar.File
import CrateAtlas.Source.Grammar.Item
import CrateAtlas.Source.Grammar.Pattern
import CrateAtlas.Source.Grammar.Phrase
import CrateAtlas.Source.Grammar.Statement
import CrateAtlas.Source.Grammar.Type
import CrateAtlas.Source.Lexer
import CrateAtlas.Source.Literal
import CrateAtlas.Source.Parse
import CrateAtlas.Source.Token
import CrateAtlas.Source.UseTree
import CrateAtlas.Text.Basic
import CrateAtlas.Text.Bytes
import CrateAtlas.Text.Identifier
import CrateAtlas.Text.Letter
import CrateAtlas.Text.Marks
import CrateAtlas.Toml.Reader
import CrateAtlas.Toml.Value
import CrateAtlas.Unreached
