import CrateAtlas.Proofs.Renumbering

/-!
What the measures of a graph depend on. The walk and the cycle search from an entry read the edges of the
nodes that the entry reaches, and pass over numbers that name no node. So two graphs that agree in these
edges are measured alike, whatever else they hold.
-/

namespace CrateAtlas.ImportGraph

/-- `graph.Agrees other entry`: both graphs have equally many nodes, and a node that the entry reaches has
the same edges in both, but for the numbers that name no node. -/
structure Agrees (graph other : ImportGraph) (entry : Nat) : Prop where
  size : other.size = graph.size
  imports : ∀ node, graph.Reaches entry node →
    (other.imports node).filter (· < graph.size) = (graph.imports node).filter (· < graph.size)

private theorem Aligned.skipImages {size : Nat} {rename : Nat → Nat} {targets images skipped : List Nat}
    (aligned : Aligned size rename targets images) (outside : ∀ image ∈ skipped, size ≤ image) :
    Aligned size rename targets (skipped ++ images) := by
  induction skipped with
  | nil => exact aligned
  | cons image skipped ih =>
    rw [List.forall_mem_cons] at outside
    exact .skipImage outside.1 (ih outside.2)

/-- Lists that hold the same nodes in the same order correspond. -/
theorem aligned_of_filter_eq {size : Nat} {targets images : List Nat}
    (same : images.filter (· < size) = targets.filter (· < size)) : Aligned size id targets images := by
  induction targets generalizing images with
  | nil =>
    have outside : ∀ image ∈ images, size ≤ image := by simpa using same
    rw [← images.append_nil]
    exact Aligned.nil.skipImages outside
  | cons target targets ih =>
    by_cases inside : target < size
    · rw [List.filter_cons_of_pos (by simpa using inside), List.filter_eq_cons_iff] at same
      obtain ⟨skipped, rest, rfl, outside, _, same⟩ := same
      exact (Aligned.both inside (ih same)).skipImages (by simpa using outside)
    · rw [List.filter_cons_of_neg (by simpa using inside)] at same
      exact .skip (not_lt.mp inside) (ih same)

private theorem Mirrored.eq_of_id {α : Type} {size : Nat} {values images : Array α}
    (mirrored : Mirrored size id values images) : images = values := by
  refine Array.ext_getElem? fun node => ?_
  by_cases below : node < size
  · exact mirrored.same node below
  · obtain ⟨none, none'⟩ := mirrored.outside (not_lt.mp below)
    rw [none, none']

namespace Agrees

variable {graph other : ImportGraph} {entry node target : Nat}

private theorem edge_iff (agrees : graph.Agrees other entry) (reached : graph.Reaches entry node) :
    other.Edge node target ↔ graph.Edge node target := by
  have member := congrArg (target ∈ ·) (agrees.imports node reached)
  simpa [Edge, agrees.size] using member

private theorem reaches_iff (agrees : graph.Agrees other entry) :
    other.Reaches entry node ↔ graph.Reaches entry node := by
  constructor
  · intro reached
    -- the edges agree only where `graph` reaches, which is what the induction gives at each step
    induction reached with
    | refl => exact .refl entry
    | step _ edge ih => exact ih.step ((agrees.edge_iff ih).mp edge)
  · intro reached
    induction reached with
    | refl => exact .refl entry
    | step before edge ih => exact ih.step ((agrees.edge_iff before).mpr edge)

theorem mirrors (agrees : graph.Agrees other entry) : graph.Mirrors id other entry where
  size := agrees.size
  inside := Set.mapsTo_id _
  apart := Set.injOn_id _
  aligned node reached := aligned_of_filter_eq (agrees.imports node reached)

private theorem metrics_eq (agrees : graph.Agrees other entry) :
    other.metrics entry = graph.metrics entry := by
  unfold metrics
  by_cases inside : entry < graph.size
  · have walks := agrees.mirrors.walkFrom inside
    rw [id] at walks
    exact congrArg₂ Metrics.mk walks.direct.eq_of_id walks.depth.eq_of_id
  · rw [walkFrom, walkFrom, agrees.size, if_neg inside, if_neg inside]

private theorem cycles_eq (agrees : graph.Agrees other entry) : other.cycles entry = graph.cycles entry := by
  by_cases inside : entry < graph.size
  · simpa using agrees.mirrors.cycles_eq inside
  · rw [cycles, cycles, agrees.size, if_neg inside, if_neg inside]

end Agrees

/-- Fan-in, depth and cycles depend only on what the entry reaches: in a graph with as many nodes, where
the reached nodes have the same edges to nodes, all of them are the same, and so are the reached nodes.
Neither the edges of other nodes nor numbers that name no node have any influence. -/
theorem measures_of_reachable (graph other : ImportGraph) (entry : Nat)
    (agrees : graph.Agrees other entry) :
    (other.metrics entry).direct = (graph.metrics entry).direct ∧
    (other.metrics entry).depth = (graph.metrics entry).depth ∧
    other.cycles entry = graph.cycles entry ∧
    ∀ node, other.Reaches entry node ↔ graph.Reaches entry node := by
  refine ⟨?_, ?_, agrees.cycles_eq, fun _ => agrees.reaches_iff⟩
  · rw [agrees.metrics_eq]
  · rw [agrees.metrics_eq]

def harbour : ImportGraph :=
  ofLists [[1, 9, 2], [2, 0], [1], [0, 1, 4], [3]]

def dredged : ImportGraph :=
  ofLists [[6, 1, 2, 7], [2, 5, 0], [1, 8], [], [2, 2, 4]]

theorem harbour_reaches {node : Nat} (reached : harbour.Reaches 0 node) : node < 3 := by
  have closed : ∀ node < 3, ∀ target ∈ harbour.imports node, target < 5 → target < 3 := by decide
  induction reached with
  | refl => decide
  | step _ edge ih => exact closed _ ih _ edge.1 edge.2

private theorem harbour_agrees : harbour.Agrees dredged 0 where
  size := rfl
  imports node reached := by
    have same : ∀ node < 3, (dredged.imports node).filter (· < 5) =
        (harbour.imports node).filter (· < 5) := by decide
    exact same node (harbour_reaches reached)

theorem measures_of_reachable_harbour :
    harbour.Agrees dredged 0 ∧ (dredged.metrics 0).direct = #[0, 1, 2, 0, 0] ∧
    (dredged.metrics 0).depth = #[0, 1, 2, 0, 0] ∧
    dredged.cycles 0 = [[1, 2, 1], [0, 1, 0]] ∧ ∀ node, dredged.Reaches 0 node → node < 3 := by
  obtain ⟨direct, depth, cycles, reaches⟩ := measures_of_reachable harbour dredged 0 harbour_agrees
  exact ⟨harbour_agrees, direct.trans (by decide), depth.trans (by decide), cycles.trans (by decide),
    fun node reached => harbour_reaches ((reaches node).mp reached)⟩

end CrateAtlas.ImportGraph
