import CrateAtlas.Graph.Basic
import CrateAtlas.History.Basic

/-!
The registry numbers files in the order in which they are met, and remembers which numbers have been
claimed for processing. Paths with the same components share a number.
-/

namespace CrateAtlas

structure FileNode where
  path : Path
  /-- Nothing until the file is analysed, and if that fails. -/
  lineCount : Option Nat
  complexity : Option Nat
  maxDepth : Option Nat
  /-- The numbers of the files it imports, in source order, with repetitions. -/
  imports : List Nat
  external : List String
  history : Option CommitHistory
  deriving DecidableEq, Repr, Inhabited

namespace FileNode

def ofPath (path : Path) : FileNode :=
  ⟨path, none, none, none, [], [], none⟩

end FileNode

structure Registry where
  nodes : Array FileNode
  claimed : List Nat
  deriving DecidableEq, Repr, Inhabited

namespace Registry

def empty : Registry :=
  ⟨#[], []⟩

def size (registry : Registry) : Nat :=
  registry.nodes.size

def find? (registry : Registry) (path : Path) : Option Nat :=
  registry.nodes.findIdx? fun node => node.path.same path

/-- The number of a path. A new path gets the next number. -/
def intern (registry : Registry) (path : Path) : Nat × Registry :=
  match registry.find? path with
  | some index => (index, registry)
  | none => (registry.size, { registry with nodes := registry.nodes.push (.ofPath path) })

/-- Claims a number; true for the first claim only. -/
def claim (registry : Registry) (index : Nat) : Bool × Registry :=
  if registry.claimed.contains index then (false, registry)
  else (true, { registry with claimed := index :: registry.claimed })

/-- The path of a number, as it was first spelled. -/
def pathOf? (registry : Registry) (index : Nat) : Option Path :=
  registry.nodes[index]?.map (·.path)

def update (registry : Registry) (index : Nat) (change : FileNode → FileNode) : Registry :=
  { registry with nodes := registry.nodes.modify index change }

end Registry

namespace ImportGraph

def ofNodes (nodes : Array FileNode) : ImportGraph :=
  ⟨nodes.map (·.imports)⟩

def edgeCount (graph : ImportGraph) : Nat :=
  (graph.edges.toList.map List.length).foldr (· + ·) 0

end ImportGraph

end CrateAtlas
