/-!
Import graphs: nodes are numbered from zero, and each has the ordered list of the nodes it
imports. Numbers outside the graph may occur in a list; they name no node.
-/

namespace CrateAtlas

/-- A directed graph with ordered, possibly repeated edges. -/
structure ImportGraph where
  edges : Array (List Nat)
  deriving DecidableEq, Repr, Inhabited

namespace ImportGraph

def ofLists (edges : List (List Nat)) : ImportGraph :=
  ⟨edges.toArray⟩

def size (graph : ImportGraph) : Nat :=
  graph.edges.size

/-- What a node imports, in order; nothing for a number outside the graph. -/
def imports (graph : ImportGraph) (node : Nat) : List Nat :=
  graph.edges.getD node []

def Edge (graph : ImportGraph) (source target : Nat) : Prop :=
  target ∈ graph.imports source ∧ target < graph.size

inductive Reaches (graph : ImportGraph) : Nat → Nat → Prop where
  | refl (node : Nat) : Reaches graph node node
  | step {first middle last : Nat} (reached : Reaches graph first middle)
      (edge : graph.Edge middle last) : Reaches graph first last

theorem Reaches.lt_size {graph : ImportGraph} {first last : Nat} (reached : graph.Reaches first last)
    (inside : first < graph.size) : last < graph.size := by
  cases reached with
  | refl => exact inside
  | step reached edge => exact edge.2

end ImportGraph

end CrateAtlas
