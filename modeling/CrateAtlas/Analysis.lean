import CrateAtlas.Config
import CrateAtlas.Coverage.Report
import CrateAtlas.Graph.Cycles
import CrateAtlas.Graph.Discovery
import CrateAtlas.History.Log
import CrateAtlas.Package
import CrateAtlas.Unreached

/-!
The analysis of a project: settings and entry file first, then the files that are imported from
there, their measures and cycles, and what coverage reports say of them.
-/

namespace CrateAtlas

/-- What is asked for. Where nothing is, the settings of the project decide. -/
structure AnalysisOptions where
  entry : Option Path := none
  manifest : Option Path := none
  config : Option Path := none
  coverage : Option Path := none
  noHistory : Bool := false
  months : Option Nat := none
  excludeTests : Bool := false
  depthMode : Option DepthMode := none
  listUnreached : Bool := false
  deriving DecidableEq, Repr, Inhabited

structure Tools where
  log : LogService
  metadata : MetadataService

inductive AnalysisError where
  | invalidPath (path : Path)
  | entry (cause : EntryError)
  | config (cause : ConfigError)
  | layout (cause : LayoutError)
  | history (cause : HistoryError)
  deriving DecidableEq, Repr

namespace AnalysisError

def message : AnalysisError → String
  | invalidPath path => "Invalid path: " ++ path.display
  | entry cause => cause.message
  | config cause => "Config error: " ++ cause.message
  | layout cause => "Workspace error: " ++ cause.message
  | history cause => "History error: " ++ cause.message

end AnalysisError

structure AnalysisPlan where
  entry : Path
  resolver : Resolver
  excludeTests : Bool
  depthMode : DepthMode
  query : Option HistoryQuery
  /-- The coverage report, and the directory that its names are relative to. -/
  report : Option Path
  coverageDir : Path

namespace AnalysisPlan

def isSourceFile (files : FileSystem) (path : Path) : Bool :=
  files.isFile path && path.fileExtension? == some ("rs" : Bytes)

/-- The entry file that is asked for, by an option, by the settings or by the path itself. -/
def entryFile? (files : FileSystem) (path : Path) (options : AnalysisOptions)
    (settings : Settings) : Option Path :=
  options.entry <|> settings.entry <|> if isSourceFile files path then some path else none

/-- The layout of the package, which may be missing if the entry file is known anyway. -/
def layoutFor (files : FileSystem) (tools : Tools) (path : Path) (options : AnalysisOptions)
    (asked : Option Path) : Except LayoutError (Option Layout) :=
  match Layout.discover files tools.metadata path options.manifest with
  | .ok layout => .ok (some layout)
  | .error error => if asked.isSome then .ok none else .error error

def resolverFor (files : FileSystem) (entry : Path) (settings : Settings) (layout : Option Layout) :
    Resolver :=
  let resolver := (Resolver.ofRootFile entry).withExclude settings.exclude
  match layout with
  | some layout =>
    (resolver.withProjectDir (files.canonical layout.projectDir)).withExternCrates layout.externCrates
  | none => resolver

def queryFor (options : AnalysisOptions) (settings : HistoryConfig) :
    Except HistoryError (Option HistoryQuery) :=
  if settings.enabled && !options.noHistory then
    some <$> HistoryQuery.compile settings.bugPattern (some (options.months.getD settings.months))
  else .ok none

def make (files : FileSystem) (tools : Tools) (path : Path) (options : AnalysisOptions) :
    Except AnalysisError AnalysisPlan := do
  if !files.fileExists path then throw (.invalidPath path)
  let settings ← (Settings.load files path options.config).mapError .config
  let asked := entryFile? files path options settings
  let layout ← (layoutFor files tools path options asked).mapError .layout
  match asked <|> layout.map Layout.entry with
  | none => throw (.invalidPath path)
  | some entry =>
    let entry := files.canonical entry
    let query ← (queryFor options settings.history).mapError .history
    return {
      entry
      resolver := resolverFor files entry settings layout
      excludeTests := options.excludeTests || settings.excludeTests
      depthMode := options.depthMode.getD settings.depthMode
      query
      report := options.coverage <|> settings.report
      coverageDir :=
        match layout with
        | some layout => files.canonical layout.projectDir
        | none => FileSystem.absolute files.current }

def surroundings (files : FileSystem) (tools : Tools) (plan : AnalysisPlan) : Surroundings where
  parse := FileOutline.ofFile files plan.excludeTests
  resolve := plan.resolver.resolve files
  history := plan.query.map fun query => query.history files tools.log
  depthMode := plan.depthMode

/-- Finds the files, and gives the questions asked. There is fuel for more files than exist, so the
search is never cut short. -/
def explore (files : FileSystem) (tools : Tools) (plan : AnalysisPlan) :
    Except EntryError Findings × List Question :=
  (Discovery.run (plan.surroundings files tools) (files.root.ways.length + 2) plan.entry).getD
    (.ok ⟨#[], []⟩, [])

def logRequests (files : FileSystem) (tools : Tools) (plan : AnalysisPlan) (trace : List Question) :
    List LogRequest :=
  trace.filterMap fun question =>
    match question, plan.query with
    | .history path, some query => query.run? files tools.log path
    | _, _ => none

def coverage (files : FileSystem) (plan : AnalysisPlan) : Option CoverageMap × List Warning :=
  match plan.report with
  | none => (none, [])
  | some report =>
    match CoverageMap.ofFile files plan.coverageDir report with
    | .ok coverage => (some coverage, [])
    | .error error => (none, [.metricUnavailable none .coverage error.message])

def chart (files : FileSystem) (plan : AnalysisPlan) (found : Findings) : Atlas :=
  let graph := ImportGraph.ofNodes found.nodes
  let (coverage, warnings) := plan.coverage files
  .assemble found.nodes.toList (graph.metrics 0) (graph.cycles 0) coverage (found.warnings ++ warnings)

end AnalysisPlan

structure AnalysisRun where
  outcome : Except AnalysisError Atlas
  logRequests : List LogRequest

namespace AnalysisRun

def withUnreached (files : FileSystem) (entry : Path) (atlas : Atlas) : Atlas :=
  match entry.parent? with
  | none => atlas
  | some dir =>
    let paths := Unreached.list files dir atlas
    { atlas with unreached := if paths.isEmpty then none else some paths }

def perform (files : FileSystem) (tools : Tools) (path : Path) (options : AnalysisOptions) :
    AnalysisRun :=
  match AnalysisPlan.make files tools path options with
  | .error error => ⟨.error error, []⟩
  | .ok plan =>
    let (findings, trace) := plan.explore files tools
    let requests := plan.logRequests files tools trace
    match findings with
    | .error error => ⟨.error (.entry error), requests⟩
    | .ok found =>
      let atlas := plan.chart files found
      ⟨.ok (if options.listUnreached then withUnreached files plan.entry atlas else atlas), requests⟩

end AnalysisRun

end CrateAtlas
