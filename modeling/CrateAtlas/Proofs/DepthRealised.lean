import CrateAtlas.Proofs.ImportDepth
import Mathlib.Data.List.Perm.Subperm

/-!
Import depth and fan-in of all nodes, with cycles or without. A walk arrives at every node that it
explores, but for its entry, and each depth that it notes is the length of the path it came along, on
which no node is met twice. So pushing depths round a cycle never adds to them.
-/

namespace CrateAtlas.ImportGraph

variable {graph : ImportGraph} {entry first last edges : Nat} {nodes : List Nat}

theorem Route.first_mem (route : graph.Route first last nodes) : first ∈ nodes := by
  induction route with
  | single => simp
  | extend route edge ih => exact List.mem_append_left _ ih

theorem Route.mem_lt_size (route : graph.Route first last nodes) (inside : first < graph.size)
    {node : Nat} (member : node ∈ nodes) : node < graph.size := by
  induction route with
  | single => exact List.mem_singleton.mp member ▸ inside
  | extend route edge ih =>
    rcases List.mem_append.mp member with earlier | last
    · exact ih earlier
    · exact List.mem_singleton.mp last ▸ edge.2

theorem Trail.edges_lt_size (trail : graph.Trail first last edges nodes)
    (inside : first < graph.size) : edges < graph.size := by
  have within : nodes ⊆ List.range graph.size :=
    fun node member => List.mem_range.mpr (trail.route.mem_lt_size inside member)
  have bound := (List.Nodup.subperm trail.distinct within).length_le
  rw [trail.length, List.length_range] at bound
  exact bound

theorem Trail.edges_pos_iff (trail : graph.Trail first last edges nodes) :
    0 < edges ↔ last ≠ first := by
  obtain ⟨route, distinct, length⟩ := trail
  cases route with
  | single =>
    have none : edges = 0 := by simpa using length.symm
    simp [none]
  | @extend middle last before route edge =>
    have start := route.first_mem
    have some : 0 < before.length := List.length_pos_of_mem start
    have apart : last ≠ first := by
      rintro rfl
      exact (List.nodup_append.mp distinct).2.2 last start last (by simp) rfl
    simp only [List.length_append, List.length_singleton] at length
    exact ⟨fun _ => apart, fun _ => by omega⟩

/-- A walk below an entry has arrived at the nodes that it has explored, but for the entry. -/
structure Walk.Counted (entry : Nat) (walk : Walk) : Prop where
  entered : walk.onPath[entry]? = some true
  exploredSize : walk.explored.size = walk.onPath.size
  directSize : walk.direct.size = walk.onPath.size
  counted : ∀ node, 0 < walk.direct.getD node 0 ↔ walk.isExplored node = true ∧ node ≠ entry

namespace Walk.Counted

variable {walk middle : Walk} {target : Nat}

theorem apart (counted : Counted entry walk) (arrives : walk.arrives target = true) :
    target < walk.onPath.size ∧ target ≠ entry := by
  have unmarked := (Walk.arrives_iff walk target).mp arrives
  refine ⟨(Array.getElem?_eq_some_iff.mp unmarked).1, ?_⟩
  rintro rfl
  cases counted.entered.symm.trans unmarked

private theorem enter (counted : Counted entry walk) (target : Nat) : Counted entry (walk.enter target) where
  entered := by
    have inside := (Array.getElem?_eq_some_iff.mp counted.entered).1
    by_cases same : target = entry
    · simp [Walk.enter, same, inside]
    · simpa [Walk.enter, same] using counted.entered
  exploredSize := by simpa [Walk.enter] using counted.exploredSize
  directSize := by simpa [Walk.enter] using counted.directSize
  counted := counted.counted

private theorem leave (counted : Counted entry walk) (apart : target ≠ entry) :
    Counted entry (walk.leave target) where
  entered := by simpa [Walk.leave, apart] using counted.entered
  exploredSize := by simpa [Walk.leave] using counted.exploredSize
  directSize := by simpa [Walk.leave] using counted.directSize
  counted := counted.counted

private theorem setDepth (counted : Counted entry walk) (target depth : Nat) :
    Counted entry (walk.setDepth target depth) :=
  ⟨counted.entered, counted.exploredSize, counted.directSize, counted.counted⟩

/-- Arriving at a node again changes nothing about which nodes have been arrived at. -/
theorem count (counted : Counted entry walk) (arrives : walk.arrives target = true)
    (known : walk.isExplored target = true) : Counted entry (walk.count target) := by
  obtain ⟨inside, apart⟩ := counted.apart arrives
  refine ⟨counted.entered, counted.exploredSize, by simpa [Walk.count] using counted.directSize, ?_⟩
  intro node
  rw [count_direct walk (counted.directSize ▸ inside)]
  by_cases same : target = node
  · subst same
    simpa using ⟨known, apart⟩
  · rw [if_neg same]
    exact counted.counted node

private theorem explore (counted : Counted entry walk) (arrives : walk.arrives target = true) :
    Counted entry ((walk.count target).explore target) := by
  obtain ⟨inside, apart⟩ := counted.apart arrives
  refine ⟨counted.entered, by simpa [Walk.explore, Walk.count] using counted.exploredSize,
    by simpa [Walk.explore, Walk.count] using counted.directSize, ?_⟩
  intro node
  rw [@Walk.isExplored_explore (walk.count target) target (counted.exploredSize ▸ inside)]
  change 0 < (walk.count target).direct.getD node 0 ↔ _
  rw [count_direct walk (counted.directSize ▸ inside)]
  by_cases same : target = node
  · subst same
    simpa using apart
  · rw [if_neg same, decide_eq_false same, Bool.false_or]
    exact counted.counted node

end Walk.Counted

private theorem deepens_counted {depth : Nat} {targets : List Nat} {walk final : Walk}
    (deepened : Deepens graph depth targets walk final) (counted : walk.Counted entry) :
    final.Counted entry := by
  obtain ⟨path, explored, direct⟩ := deepens_frame deepened
  refine ⟨path ▸ counted.entered, ?_, ?_, ?_⟩
  · rw [path, explored, counted.exploredSize]
  · rw [path, direct, counted.directSize]
  · intro node
    rw [Walk.isExplored, explored, direct]
    exact counted.counted node

private theorem walks_counted {depth : Nat} {targets : List Nat} {walk final : Walk}
    (walked : Walks graph depth targets walk final) (counted : walk.Counted entry) :
    final.Counted entry := by
  induction walked with
  | nil depth walk => exact counted
  | pass stays rest ih => exact ih counted
  | @explore depth target targets walk middle final arrives fresh inner rest ihInner ihRest =>
    have arrived : (((walk.count target).setDepth target (depth + 1)).enter target).explore target =
        (((walk.count target).explore target).setDepth target (depth + 1)).enter target := rfl
    rw [arrived] at ihInner
    have below := ihInner (((counted.explore arrives).setDepth target (depth + 1)).enter target)
    exact ihRest (below.leave (counted.apart arrives).2)
  | @deepen depth target targets walk middle final arrives known deeper inner rest ih =>
    have below := deepens_counted inner
      (((counted.count arrives known).setDepth target (depth + 1)).enter target)
    exact ih (below.leave (counted.apart arrives).2)
  | meet arrives known shallow rest ih => exact ih (counted.count arrives known)

private theorem Walk.counted_start (inside : entry < graph.size) :
    (((Walk.start graph.size).enter entry).explore entry).Counted entry := by
  refine ⟨by simp [Walk.start, Walk.enter, Walk.explore, inside],
    by simp [Walk.start, Walk.enter, Walk.explore], by simp [Walk.start, Walk.enter, Walk.explore], ?_⟩
  intro node
  have unexplored : ((Walk.start graph.size).enter entry).isExplored node = false :=
    Walk.start_isExplored graph.size node
  rw [Walk.isExplored_explore (by simpa [Walk.start, Walk.enter] using inside), unexplored]
  simp only [Walk.start, Walk.enter, Walk.explore, Array.getD_eq_getD_getElem?,
    Array.getElem?_replicate]
  split <;> simp [eq_comm]

/-- The entry and the nodes out of its reach are the ones that no walk from there arrives at. -/
theorem metrics_direct (inside : entry < graph.size) {node : Nat} (bound : node < graph.size) :
    ∃ fanIn, (graph.metrics entry).direct[node]? = some fanIn ∧
      (0 < fanIn ↔ graph.Reaches entry node ∧ node ≠ entry) := by
  obtain ⟨final, walked, computed⟩ := walkFrom_walks graph entry inside
  obtain ⟨underway, explored⟩ := walkFrom_underway graph entry inside
  have counted := walks_counted walked (Walk.counted_start inside)
  have size : final.direct.size = graph.size := by
    have kept : (final.leave entry).explored.size = graph.size := computed ▸ underway.exploredSize
    rw [counted.directSize, ← counted.exploredSize]
    exact kept
  refine ⟨final.direct.getD node 0, by simp [metrics, computed, Walk.leave, size, bound], ?_⟩
  rw [counted.counted node, ← explored node, computed]
  rfl

/-- Every node that the entry reaches is as deep as some path from the entry to it is long that meets
no node twice. It is arrived at, and lies below the entry, unless it is the entry; there and at the
nodes out of reach both measures are zero. -/
theorem depth_realised (graph : ImportGraph) (entry : Nat) (inside : entry < graph.size) :
    (∀ node, graph.Reaches entry node → node ≠ entry →
      ∃ depth fanIn nodes, (graph.metrics entry).depth[node]? = some depth ∧
        (graph.metrics entry).direct[node]? = some fanIn ∧ graph.Trail entry node depth nodes ∧
        1 ≤ depth ∧ depth < graph.size ∧ 1 ≤ fanIn) ∧
    ∀ node < graph.size, node = entry ∨ ¬ graph.Reaches entry node →
      (graph.metrics entry).depth[node]? = some 0 ∧ (graph.metrics entry).direct[node]? = some 0 := by
  obtain ⟨underway, explored⟩ := walkFrom_underway graph entry inside
  constructor
  · intro node reached apart
    have bound := reached.lt_size inside
    obtain ⟨fanIn, counted, positive⟩ := metrics_direct inside bound
    obtain ⟨nodes, trail⟩ := underway.realised node ((explored node).mpr reached)
    exact ⟨_, fanIn, nodes, metrics_depth underway bound, counted, trail,
      trail.edges_pos_iff.mpr apart, trail.edges_lt_size inside, positive.mpr ⟨reached, apart⟩⟩
  · intro node bound still
    obtain ⟨fanIn, counted, positive⟩ := metrics_direct inside bound
    have none : fanIn = 0 := by
      by_contra some
      obtain ⟨reached, apart⟩ := positive.mp (Nat.pos_of_ne_zero some)
      exact still.elim apart fun out => out reached
    have level : (graph.walkFrom entry).depthOf node = 0 := by
      rcases still with rfl | out
      · obtain ⟨nodes, trail⟩ := underway.realised node ((explored node).mpr (.refl node))
        by_contra some
        exact trail.edges_pos_iff.mp (Nat.pos_of_ne_zero some) rfl
      · exact underway.untouched node (Bool.eq_false_iff.mpr fun known => out ((explored node).mp known))
    rw [metrics_depth underway bound, counted, none, level]
    exact ⟨rfl, rfl⟩

/-- Two ways lead into a cycle of two files, the longer one later; one of these files also imports
itself. A fifth file imports the entry. -/
def looped : ImportGraph :=
  ofLists [[1, 3], [2], [1, 2, 8], [1], [0]]

private theorem looped_reaches {node : Nat} (reached : looped.Reaches 0 node) : node ≠ 4 := by
  have inner : ∀ source < looped.size, source ≠ 4 → 4 ∉ looped.imports source := by decide
  induction reached with
  | refl => decide
  | step reached edge ih =>
    rintro rfl
    exact inner _ (reached.lt_size (by decide)) ih edge.1

theorem depth_realised_looped : 0 < looped.size ∧
    looped.metrics 0 = ⟨#[0, 2, 1, 1, 0], #[0, 2, 3, 1, 0]⟩ ∧
    (∃ depth fanIn nodes, (looped.metrics 0).depth[1]? = some depth ∧
      (looped.metrics 0).direct[1]? = some fanIn ∧ looped.Trail 0 1 depth nodes ∧
      1 ≤ depth ∧ depth < looped.size ∧ 1 ≤ fanIn) ∧
    (looped.metrics 0).depth[4]? = some 0 ∧ (looped.metrics 0).direct[4]? = some 0 := by
  have spec := depth_realised looped 0 (by decide)
  have edge : looped.Edge 0 1 := ⟨by decide, by decide⟩
  exact ⟨by decide, by decide, spec.1 1 (.step (.refl 0) edge) (by decide),
    spec.2 4 (by decide) (.inr fun reached => looped_reaches reached rfl)⟩

end CrateAtlas.ImportGraph
