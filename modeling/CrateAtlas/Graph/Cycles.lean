import CrateAtlas.Graph.Basic

/-!
Import cycles. A depth-first search from the entry reports, for each edge back into the current
path, the closed walk along the path that the edge completes.
-/

namespace CrateAtlas.ImportGraph

structure CycleSearch where
  visited : Array Bool
  stack : List Nat
  cycles : List (List Nat)
  deriving DecidableEq, Repr

namespace CycleSearch

def start (size : Nat) : CycleSearch :=
  ⟨Array.replicate size false, [], []⟩

def enter (search : CycleSearch) (node : Nat) : CycleSearch :=
  { search with
    visited := search.visited.setIfInBounds node true
    stack := search.stack ++ [node] }

def leave (search : CycleSearch) : CycleSearch :=
  { search with stack := search.stack.dropLast }

/-- Reports the closed walk that an edge to the target completes, if the target is on the path. -/
def close (search : CycleSearch) (target : Nat) : CycleSearch :=
  if target ∈ search.stack then
    { search with
      cycles := search.cycles ++ [search.stack.dropWhile (· != target) ++ [target]] }
  else search

end CycleSearch

/-- Expands a node. The fuel bounds the length of the path; the number of nodes is always enough. -/
def search (graph : ImportGraph) : Nat → Nat → CycleSearch → CycleSearch
  | 0, _, state => state
  | fuel + 1, node, state =>
    ((graph.imports node).foldl
      (fun state target =>
        match state.visited[target]? with
        | none => state
        | some false => graph.search fuel target state
        | some true => state.close target)
      (state.enter node)).leave

/-- The cycles that a depth-first search from the entry meets, each a closed walk such as
`[a, b, c, a]`. Each node is expanded once, so not every cycle is listed. -/
def cycles (graph : ImportGraph) (entry : Nat) : List (List Nat) :=
  if entry < graph.size then
    (graph.search graph.size entry (CycleSearch.start graph.size)).cycles
  else []

end CrateAtlas.ImportGraph
