import CrateAtlas.Proofs.DepthRealised
import CrateAtlas.Proofs.EdgeConservation
import CrateAtlas.Proofs.ImportClosure
import Mathlib.Algebra.BigOperators.Group.Finset.Sigma

/-!
The graph of a finished build. All its nodes are reached from the first one, and no node imports itself
or a number that names no node. So every edge is counted or closes a cycle, a cycle leads through two
nodes at least, and only an acyclic graph has no reported cycle.
-/

namespace CrateAtlas

namespace ImportGraph

/-- A graph as a finished build leaves it: its edges lead to other nodes, and all its nodes are reached
from the first one. -/
structure Grown (graph : ImportGraph) : Prop where
  filled : 0 < graph.size
  inside : ∀ source, ∀ target ∈ graph.imports source, target < graph.size
  apart : ∀ source, source ∉ graph.imports source
  reached : ∀ node < graph.size, graph.Reaches 0 node

theorem lt_size_of_mem {graph : ImportGraph} {source target : Nat}
    (imported : target ∈ graph.imports source) : source < graph.size := by
  by_contra outside
  simp [imports, show graph.edges.size ≤ source from Nat.le_of_not_lt outside] at imported

theorem foldr_eq_sum_range {values : List Nat} {size : Nat} {value : Nat → Nat}
    (length : values.length = size) (listed : ∀ index < size, values[index]? = some (value index)) :
    values.foldr (· + ·) 0 = ∑ index ∈ Finset.range size, value index := by
  have same : values = (List.range size).map value := by
    apply List.ext_getElem?
    intro index
    by_cases inside : index < size
    · simp [listed index inside, inside]
    · simp [length ▸ Nat.le_of_not_lt inside, Nat.le_of_not_lt inside]
  rw [same]
  rfl

theorem sum_count_range {targets : List Nat} {size : Nat} (inside : ∀ target ∈ targets, target < size) :
    ∑ node ∈ Finset.range size, targets.count node = targets.length := by
  have members : ∀ target ∈ (targets : Multiset Nat), target ∈ Finset.range size := by
    simpa using inside
  simpa using Multiset.sum_count_eq_card members

theorem edgeCount_eq_sum (graph : ImportGraph) :
    graph.edgeCount = ∑ source ∈ Finset.range graph.size, (graph.imports source).length := by
  refine foldr_eq_sum_range (by simp [size]) fun source bound => ?_
  have within : source < graph.edges.size := bound
  simp [imports, within]

private theorem sum_endings {graph : ImportGraph} {entry : Nat} (inside : entry < graph.size) :
    ∑ node ∈ Finset.range graph.size, endings (graph.cycles entry) node =
      (graph.cycles entry).length := by
  have ends : ∀ cycle ∈ graph.cycles entry, ∃ last, cycle.getLast? = some last ∧ last < graph.size := by
    intro cycle reported
    obtain ⟨closed, _, reached⟩ := cycles_walks graph entry inside cycle reported
    have filled : cycle ≠ [] := by
      rintro rfl
      exact absurd closed.long (by decide)
    have last := List.getLast?_eq_some_getLast filled
    exact ⟨_, last, (reached _ (List.mem_of_getLast? last)).lt_size inside⟩
  simp only [endings, ← List.count_filterMap]
  rw [sum_count_range, List.filterMap_length_eq_length]
  · intro cycle reported
    obtain ⟨last, found, _⟩ := ends cycle reported
    simp [found]
  · intro last member
    obtain ⟨cycle, reported, found⟩ := List.mem_filterMap.mp member
    obtain ⟨other, same, bound⟩ := ends cycle reported
    exact Option.some.inj (same.symm.trans found) ▸ bound

namespace Grown

variable {graph : ImportGraph} {node : Nat}

theorem direct_pos_iff (grown : graph.Grown) (bound : node < graph.size) :
    0 < (graph.metrics 0).direct.getD node 0 ↔ node ≠ 0 := by
  obtain ⟨fanIn, counted, positive⟩ := metrics_direct grown.filled bound
  rw [Array.getD_eq_getD_getElem?, counted, Option.getD_some, positive]
  exact and_iff_right (grown.reached node bound)

theorem depth_pos_iff (grown : graph.Grown) (bound : node < graph.size) :
    0 < (graph.metrics 0).depth.getD node 0 ↔ node ≠ 0 := by
  obtain ⟨underway, explored⟩ := walkFrom_underway graph 0 grown.filled
  obtain ⟨nodes, trail⟩ := underway.realised node ((explored node).mpr (grown.reached node bound))
  rw [Array.getD_eq_getD_getElem?, metrics_depth underway bound, Option.getD_some]
  exact trail.edges_pos_iff

/-- Every edge adds to a fan-in or closes a reported cycle. -/
theorem direct_add_cycles (grown : graph.Grown) :
    ∑ node ∈ Finset.range graph.size, (graph.metrics 0).direct.getD node 0 +
      (graph.cycles 0).length = graph.edgeCount := by
  have all : graph.reachable 0 = Finset.range graph.size := by
    ext node
    rw [mem_reachable, Finset.mem_range]
    exact and_iff_left_of_imp (grown.reached node)
  have counted (node : Nat) (member : node ∈ Finset.range graph.size) :
      (graph.metrics 0).direct.getD node 0 + endings (graph.cycles 0) node =
        ∑ source ∈ Finset.range graph.size, (graph.imports source).count node := by
    obtain ⟨fanIn, found, balance⟩ :=
      direct_balance graph 0 node grown.filled (Finset.mem_range.mp member)
    rw [Array.getD_eq_getD_getElem?, found, Option.getD_some, balance, all]
  calc ∑ node ∈ Finset.range graph.size, (graph.metrics 0).direct.getD node 0 +
        (graph.cycles 0).length
      = ∑ node ∈ Finset.range graph.size,
          ((graph.metrics 0).direct.getD node 0 + endings (graph.cycles 0) node) := by
        rw [Finset.sum_add_distrib, sum_endings grown.filled]
    _ = ∑ node ∈ Finset.range graph.size, ∑ source ∈ Finset.range graph.size,
          (graph.imports source).count node := Finset.sum_congr rfl counted
    _ = ∑ source ∈ Finset.range graph.size, (graph.imports source).length := by
        rw [Finset.sum_comm]
        exact Finset.sum_congr rfl fun source _ => sum_count_range (grown.inside source)
    _ = graph.edgeCount := graph.edgeCount_eq_sum.symm

/-- Without edges from a node to itself, a closed walk leads through two nodes. -/
theorem exists_two (grown : graph.Grown) {walk : List Nat} (closed : graph.ClosedWalk walk) :
    ∃ first ∈ walk, ∃ second ∈ walk, first ≠ second := by
  match walk, closed.long, closed.linked with
  | first :: second :: rest, _, linked =>
    refine ⟨first, by simp, second, by simp, ?_⟩
    rintro rfl
    exact grown.apart first (List.isChain_cons_cons.mp linked).1.1

/-- No cycle is reported just if nothing leads back to where it starts. -/
theorem cycles_eq_nil_iff (grown : graph.Grown) :
    graph.cycles 0 = [] ↔ ∀ node, ¬ Relation.TransGen graph.Edge node node := by
  constructor
  · intro unreported node back
    have kept (source target : Nat) (edge : graph.Edge source target) : graph.Kept 0 source target := by
      refine ⟨grown.reached source (lt_size_of_mem edge.1), edge, ?_⟩
      rintro ⟨cycle, reported, _⟩
      rw [unreported] at reported
      cases reported
    exact kept_acyclic graph 0 grown.filled node (Relation.TransGen.mono kept node node back)
  · intro acyclic
    rw [List.eq_nil_iff_forall_not_mem]
    intro cycle reported
    obtain ⟨closed, _⟩ := cycles_walks graph 0 grown.filled cycle reported
    obtain ⟨node, back⟩ := transGen_of_closed closed.long closed.closed closed.linked
    exact acyclic node back

end Grown

end ImportGraph

open Discovery ImportGraph

theorem ImportGraph.size_ofNodes (nodes : Array FileNode) : (ofNodes nodes).size = nodes.size := by
  simp [size, ofNodes]

theorem ImportGraph.mem_imports_ofNodes {nodes : Array FileNode} {source target : Nat} :
    target ∈ (ofNodes nodes).imports source ↔
      ∃ node, nodes[source]? = some node ∧ target ∈ node.imports := by
  simp only [imports, ofNodes, Array.getD_eq_getD_getElem?, Array.getElem?_map]
  cases nodes[source]? <;> simp

namespace Complete

variable {around : Surroundings} {entry : Path} {registry : Registry}

private theorem numbers_import (complete : Complete around entry registry) {source target : Nat}
    {node : FileNode} (found : registry.nodes[source]? = some node) (imported : target ∈ node.imports) :
    ∃ path, registry.Numbers target path ∧ path.same node.path = false := by
  cases parsed : around.parse node.path with
  | error error =>
    rw [(complete.blank source node error found parsed).imports] at imported
    cases imported
  | ok outline =>
    obtain ⟨path, member, numbered⟩ :=
      (complete.analysed source node outline found parsed).target_of_import imported
    obtain ⟨_, _, _, _, apart⟩ := mem_targets.mp member
    exact ⟨path, numbered, apart⟩

/-- If files are spelled in one way, edges lead to all files that imports lead to. -/
theorem reaches_reached (complete : Complete around entry registry)
    (once : ∀ first second, Reached around entry first → Reached around entry second →
      first.components = second.components → first = second)
    {path : Path} (reached : Reached around entry path) :
    ∃ index, registry.pathOf? index = some path ∧ (ofNodes registry.nodes).Reaches 0 index := by
  induction reached with
  | entry => exact ⟨0, complete.entered, .refl 0⟩
  | @imported path target outline importer parsed member ih =>
    obtain ⟨index, known, reaches⟩ := ih
    obtain ⟨node, found, rfl⟩ := Registry.pathOf?_eq_some_iff.mp known
    obtain ⟨next, imported, other, there, same⟩ :=
      (complete.analysed index node outline found parsed).import_of_target member
    -- the number of the target could belong to another spelling of it, which may be parsed differently
    have spelled := once _ _ (complete.reached _ _ there) (importer.imported parsed member) same
    refine ⟨next, spelled ▸ there, reaches.step ⟨mem_imports_ofNodes.mpr ⟨node, found, imported⟩, ?_⟩⟩
    exact (size_ofNodes registry.nodes).symm ▸ Registry.lt_size_of_pathOf? there

theorem grown (complete : Complete around entry registry)
    (once : ∀ first second, Reached around entry first → Reached around entry second →
      first.components = second.components → first = second) : (ofNodes registry.nodes).Grown := by
  have size : (ofNodes registry.nodes).size = registry.size := size_ofNodes registry.nodes
  refine ⟨?_, ?_, ?_, ?_⟩
  · exact size ▸ Registry.lt_size_of_pathOf? complete.entered
  · intro source target imported
    obtain ⟨node, found, member⟩ := mem_imports_ofNodes.mp imported
    obtain ⟨_, ⟨_, known, _⟩, _⟩ := complete.numbers_import found member
    exact size ▸ Registry.lt_size_of_pathOf? known
  · intro source imported
    obtain ⟨node, found, member⟩ := mem_imports_ofNodes.mp imported
    obtain ⟨path, numbered, apart⟩ := complete.numbers_import found member
    obtain ⟨other, there, alike⟩ := Registry.numbers_iff.mp numbered
    cases found.symm.trans there
    rw [Path.same_iff] at alike
    exact Bool.eq_false_iff.mp apart ((Path.same_iff _ _).mpr alike.symm)
  · intro node bound
    obtain ⟨path, known⟩ := Registry.exists_pathOf? (size ▸ bound)
    obtain ⟨index, there, reaches⟩ := complete.reaches_reached once (complete.reached node path known)
    rwa [complete.sound.distinct ⟨path, known, rfl⟩ ⟨path, there, rfl⟩]

end Complete

end CrateAtlas
