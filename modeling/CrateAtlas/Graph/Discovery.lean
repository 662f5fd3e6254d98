import CrateAtlas.Graph.Registry
import CrateAtlas.Outline.FileOutline
import CrateAtlas.Outline.Score
import CrateAtlas.Record.Warning

/-!
Discovery of all files that are imported, directly or not, from an entry file. Every file is
processed once: its history is asked for, it is parsed and scored, its specifiers are resolved, and
then its imports are processed from left to right, each completely before the next.
-/

namespace CrateAtlas

inductive Resolution where
  | internal (path : Path)
  | external (specifier : String)
  | excluded (path : Path)
  | unresolved
  deriving DecidableEq, Repr

/-- What discovery asks of its surroundings. -/
structure Surroundings where
  parse : Path → Except SourceError FileOutline
  resolve : String → Path → Resolution
  history : Option (Path → Except HistoryError CommitHistory)
  depthMode : DepthMode

inductive Question where
  | history (path : Path)
  | parse (path : Path)
  | resolve (specifier : String) (path : Path)
  deriving DecidableEq, Repr

structure Discovery where
  registry : Registry
  warnings : List Warning
  trace : List Question
  deriving Inhabited

structure Edges where
  imports : List Nat
  external : List String

structure Findings where
  nodes : Array FileNode
  warnings : List Warning
  deriving DecidableEq, Repr, Inhabited

structure EntryError where
  path : Path
  cause : SourceError
  deriving DecidableEq, Repr

namespace EntryError

def message (error : EntryError) : String :=
  "Cannot read entry file " ++ error.path.display ++ ": " ++ error.cause.message

end EntryError

namespace Discovery

def start : Discovery :=
  ⟨.empty, [], []⟩

def warn (state : Discovery) (warning : Warning) : Discovery :=
  { state with warnings := state.warnings ++ [warning] }

def ask (state : Discovery) (question : Question) : Discovery :=
  { state with trace := state.trace ++ [question] }

def intern (state : Discovery) (path : Path) : Nat × Discovery :=
  let (index, registry) := state.registry.intern path
  (index, { state with registry })

def update (state : Discovery) (index : Nat) (change : FileNode → FileNode) : Discovery :=
  { state with registry := state.registry.update index change }

/-- Resolves one specifier of a file. A file that imports itself gives no edge. -/
def resolveOne (around : Surroundings) (path : Path) (found : Edges × Discovery)
    (specifier : String) : Edges × Discovery :=
  let (edges, state) := found
  let state := state.ask (.resolve specifier path)
  match around.resolve specifier path with
  | .internal target =>
    if target.same path then (edges, state)
    else
      let (index, state) := state.intern target
      (⟨edges.imports ++ [index], edges.external⟩, state)
  | .external text => (⟨edges.imports, edges.external ++ [text]⟩, state)
  | .excluded _ => (edges, state)
  | .unresolved => (edges, state.warn (.resolutionFailure path specifier))

/-- The specifiers of a file that are followed: none if it only declares foreign functions. -/
def followed (outline : FileOutline) : List String :=
  if outline.declarationOnly then [] else outline.root.topLevelSpecifiers

def resolveAll (around : Surroundings) (path : Path) (outline : FileOutline) (state : Discovery) :
    Edges × Discovery :=
  (followed outline).foldl (resolveOne around path) (⟨[], []⟩, state)

def note (around : Surroundings) (index : Nat) (outline : FileOutline) (edges : Edges)
    (state : Discovery) : Discovery :=
  let score := outline.root.score around.depthMode 0
  state.update index fun node =>
    { node with
      lineCount := some outline.lineCount
      complexity := some score.complexity
      maxDepth := some score.maxDepth
      imports := edges.imports
      external := edges.external }

def analyze (around : Surroundings) (index : Nat) (path : Path) (state : Discovery) :
    Except SourceError (List Nat) × Discovery :=
  let state := state.ask (.parse path)
  match around.parse path with
  | .error error => (.error error, state)
  | .ok outline =>
    let (edges, state) := resolveAll around path outline state
    (.ok edges.imports, state.note around index outline edges)

def askHistory (around : Surroundings) (path : Path) (state : Discovery) : Discovery :=
  if around.history.isSome then state.ask (.history path) else state

def recordHistory (around : Surroundings) (index : Nat) (path : Path) (state : Discovery) :
    Discovery :=
  match around.history with
  | none => state
  | some history =>
    match history path with
    | .ok commits => state.update index fun node => { node with history := some commits }
    | .error error => state.warn (.metricUnavailable (some path) .history error.message)

def visit (process : Nat → Path → Discovery → Option (Except SourceError Unit × Discovery))
    (state : Discovery) (index : Nat) : Option Discovery :=
  let (first, registry) := state.registry.claim index
  let state := { state with registry }
  if first then
    match registry.pathOf? index with
    | none => some state
    | some path =>
      match process index path state with
      | none => none
      | some (.ok (), state) => some state
      | some (.error error, state) => some (state.warn (.parseError path error.message))
  else some state

/-- Processes a file and everything it leads to. The fuel bounds how deeply imports are followed;
nothing is given if it is spent. -/
def process (around : Surroundings) :
    Nat → Nat → Path → Discovery → Option (Except SourceError Unit × Discovery)
  | 0, _, _, _ => none
  | fuel + 1, index, path, state =>
    let state := state.askHistory around path
    match state.analyze around index path with
    | (.error error, state) => some (.error error, state.recordHistory around index path)
    | (.ok imports, state) =>
      (imports.foldlM (visit (process around fuel)) state).map fun state =>
        (.ok (), state.recordHistory around index path)

/-- Discovers all files from an entry file, and gives the questions asked. Only an entry file that
cannot be read is an error. The number of files that can be parsed, and two more, is always enough
fuel. -/
def run (around : Surroundings) (fuel : Nat) (entry : Path) :
    Option (Except EntryError Findings × List Question) :=
  let (index, state) := start.intern entry
  let state := { state with registry := (state.registry.claim index).2 }
  (process around fuel index entry state).map fun (result, state) =>
    match result with
    | .ok () => (.ok ⟨state.registry.nodes, state.warnings⟩, state.trace)
    | .error cause =>
      if cause.isUnreadable then (.error ⟨entry, cause⟩, state.trace)
      else
        let state := state.warn (.parseError entry cause.message)
        (.ok ⟨state.registry.nodes, state.warnings⟩, state.trace)

end Discovery

end CrateAtlas
