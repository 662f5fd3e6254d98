import CrateAtlas.Coverage.Basic
import CrateAtlas.Graph.Registry
import CrateAtlas.Graph.Walk
import CrateAtlas.Record.Names
import CrateAtlas.Record.Warning

/-!
The result of an analysis. Measures that are not known are absent, which is not the same as zero.
-/

namespace CrateAtlas

structure FileRecord where
  /-- The path without what all paths share. -/
  name : String
  path : Path
  lineCount : Option Nat
  imports : List Nat
  importsExternal : List String
  /-- The number of imports that arrive at the file from outside a cycle. -/
  importsDirect : Nat
  /-- The greatest depth of such an arrival, seen from the entry. -/
  importsDepth : Nat
  complexity : Option Nat
  maxDepth : Option Nat
  coverage : Option Double
  history : Option CommitHistory
  deriving DecidableEq, Repr, Inhabited

/-- The result of an analysis. The first file is the entry. -/
structure Atlas where
  files : List FileRecord
  /-- The import cycles as walks; absent if there are none. -/
  cycles : Option (List (List Nat))
  /-- The source files that are never reached, if they were asked for and there are any. -/
  unreached : Option (List Path)
  warnings : List Warning
  deriving DecidableEq, Repr, Inhabited

namespace FileRecord

def isAnalyzed (file : FileRecord) : Bool :=
  file.complexity.isSome

def ofNode (metrics : ImportGraph.Metrics) (coverage : Option CoverageMap) (base : Path)
    (node : FileNode) (index : Nat) : FileRecord where
  name := node.path.displayName base
  path := node.path
  lineCount := node.lineCount
  imports := node.imports
  importsExternal := node.external
  importsDirect := metrics.direct.getD index 0
  importsDepth := metrics.depth.getD index 0
  complexity := node.complexity
  maxDepth := node.maxDepth
  coverage := coverage.bind fun map => map.get? node.path
  history := node.history

end FileRecord

namespace Atlas

/-- Puts the parts of a result together. A file that no coverage report names has no coverage. -/
def assemble (nodes : List FileNode) (metrics : ImportGraph.Metrics) (cycles : List (List Nat))
    (coverage : Option CoverageMap) (warnings : List Warning) : Atlas :=
  let base := Path.common (nodes.map (·.path))
  { files := nodes.mapIdx fun index node => .ofNode metrics coverage base node index
    cycles := if cycles.isEmpty then none else some cycles
    unreached := none
    warnings }

def fileCount (atlas : Atlas) : Nat :=
  atlas.files.length

def hasCycles (atlas : Atlas) : Bool :=
  atlas.cycles.isSome

def cycleCount (atlas : Atlas) : Nat :=
  (atlas.cycles.getD []).length

def hasCoverage (atlas : Atlas) : Bool :=
  atlas.files.any fun file => file.coverage.isSome

def indexOf? (atlas : Atlas) (path : Path) : Option Nat :=
  atlas.files.findIdx? fun file => file.path.same path

def fileByName? (atlas : Atlas) (name : String) : Option FileRecord :=
  atlas.files.find? fun file => file.name == name

def describeCycle (atlas : Atlas) (cycle : List Nat) : String :=
  " -> ".intercalate (cycle.map fun index => (atlas.files[index]?.map (·.name)).getD "?")

def totalLines (atlas : Atlas) : Nat :=
  (atlas.files.filterMap (·.lineCount)).foldr (· + ·) 0

def totalComplexity (atlas : Atlas) : Nat :=
  (atlas.files.filterMap (·.complexity)).foldr (· + ·) 0

def edgeCount (atlas : Atlas) : Nat :=
  (atlas.files.map fun file => file.imports.length).foldr (· + ·) 0

end Atlas

end CrateAtlas
