import CrateAtlas.Graph.Basic

/-!
Fan-in and import depth. A depth-first walk from the entry counts the edges that arrive at each
node from outside the current path, and records the greatest depth of such an arrival. A node is
explored once; when it is met again further down, the greater depth is pushed through what it
imports.
-/

namespace CrateAtlas.ImportGraph

/-- The state of a walk. All arrays have one place per node. -/
structure Walk where
  /-- The nodes between the entry and the current node, both included. -/
  onPath : Array Bool
  /-- The nodes whose imports have been, or are being, followed. -/
  explored : Array Bool
  /-- The number of arrivals at each node. -/
  direct : Array Nat
  /-- The greatest depth of an arrival at each node. -/
  depth : Array Nat
  deriving DecidableEq, Repr

namespace Walk

def start (size : Nat) : Walk :=
  ⟨Array.replicate size false, Array.replicate size false,
   Array.replicate size 0, Array.replicate size 0⟩

def arrives (walk : Walk) (target : Nat) : Bool :=
  walk.onPath.getD target true == false

def isExplored (walk : Walk) (node : Nat) : Bool :=
  walk.explored.getD node false

def depthOf (walk : Walk) (node : Nat) : Nat :=
  walk.depth.getD node 0

def enter (walk : Walk) (node : Nat) : Walk :=
  { walk with onPath := walk.onPath.setIfInBounds node true }

def leave (walk : Walk) (node : Nat) : Walk :=
  { walk with onPath := walk.onPath.setIfInBounds node false }

def explore (walk : Walk) (node : Nat) : Walk :=
  { walk with explored := walk.explored.setIfInBounds node true }

def count (walk : Walk) (target : Nat) : Walk :=
  { walk with direct := walk.direct.setIfInBounds target (walk.direct.getD target 0 + 1) }

def setDepth (walk : Walk) (target depth : Nat) : Walk :=
  { walk with depth := walk.depth.setIfInBounds target depth }

end Walk

/-- Pushes a greater depth through the imports of an explored node. The fuel bounds the length of
the path; the number of nodes is always enough. -/
def deepen (graph : ImportGraph) : Nat → Nat → Nat → Walk → Walk
  | 0, _, _, walk => walk
  | fuel + 1, node, depth, walk =>
    ((graph.imports node).foldl
      (fun walk target =>
        if walk.arrives target && decide (walk.depthOf target < depth + 1) then
          graph.deepen fuel target (depth + 1) (walk.setDepth target (depth + 1))
        else walk)
      (walk.enter node)).leave node

/-- Explores a node reached at a depth. The fuel bounds the length of the path; the number of nodes
is always enough. -/
def visit (graph : ImportGraph) : Nat → Nat → Nat → Walk → Walk
  | 0, _, _, walk => walk
  | fuel + 1, node, depth, walk =>
    ((graph.imports node).foldl
      (fun walk target =>
        if walk.arrives target then
          let walk := walk.count target
          if !walk.isExplored target then
            graph.visit fuel target (depth + 1) (walk.setDepth target (depth + 1))
          else if walk.depthOf target < depth + 1 then
            graph.deepen fuel target (depth + 1) (walk.setDepth target (depth + 1))
          else walk
        else walk)
      ((walk.enter node).explore node)).leave node

/-- Fan-in and import depth of every node; both are zero for nodes that the entry does not reach. -/
structure Metrics where
  direct : Array Nat
  depth : Array Nat
  deriving DecidableEq, Repr, Inhabited

def Metrics.size (metrics : Metrics) : Nat :=
  metrics.direct.size

def walkFrom (graph : ImportGraph) (entry : Nat) : Walk :=
  if entry < graph.size then graph.visit graph.size entry 0 (Walk.start graph.size)
  else Walk.start graph.size

def metrics (graph : ImportGraph) (entry : Nat) : Metrics :=
  let walk := graph.walkFrom entry
  ⟨walk.direct, walk.depth⟩

end CrateAtlas.ImportGraph
