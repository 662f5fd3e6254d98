import CrateAtlas.Proofs.DepthRealised
import Mathlib.Data.List.Chain
import Mathlib.Data.Nat.SuccPred

/-!
Import depth and the order of imports. No order gives a node more than the length of the longest path to
it that meets no node twice, and some order gives just that: the one in which every node of such a path
has the next one as its first import. Another order may give less, because a node is not explored again
when it is met on a shorter path. This cannot happen where it does not depend on the path whether an edge
leads back.
-/

namespace CrateAtlas.ImportGraph

/-- `graph.Reorders other`: every node has the same imports in both graphs, in whatever order. -/
structure Reorders (graph other : ImportGraph) : Prop where
  size : other.size = graph.size
  imports : ∀ node, (other.imports node).Perm (graph.imports node)

namespace Reorders

variable {graph other : ImportGraph} {entry first last source target edges : Nat} {nodes : List Nat}

private theorem refl (graph : ImportGraph) : graph.Reorders graph :=
  ⟨rfl, fun _ => .refl _⟩

theorem symm (reorders : graph.Reorders other) : other.Reorders graph :=
  ⟨reorders.size.symm, fun node => (reorders.imports node).symm⟩

theorem edge (reorders : graph.Reorders other) (edge : graph.Edge source target) :
    other.Edge source target :=
  ⟨(reorders.imports source).mem_iff.mpr edge.1, reorders.size ▸ edge.2⟩

theorem reaches (reorders : graph.Reorders other) (reached : graph.Reaches first last) :
    other.Reaches first last := by
  induction reached with
  | refl => exact .refl first
  | step reached edge ih => exact ih.step (reorders.edge edge)

private theorem route (reorders : graph.Reorders other) (route : graph.Route first last nodes) :
    other.Route first last nodes := by
  induction route with
  | single => exact .single
  | extend route edge ih => exact ih.extend (reorders.edge edge)

theorem trail (reorders : graph.Reorders other) (trail : graph.Trail first last edges nodes) :
    other.Trail first last edges nodes :=
  { trail with route := reorders.route trail.route }

private theorem trails_eq (reorders : graph.Reorders other) (first last : Nat) :
    {edges | ∃ nodes, other.Trail first last edges nodes} =
      {edges | ∃ nodes, graph.Trail first last edges nodes} := by
  ext edges
  constructor
  · rintro ⟨nodes, trail⟩
    exact ⟨nodes, reorders.symm.trail trail⟩
  · rintro ⟨nodes, trail⟩
    exact ⟨nodes, reorders.trail trail⟩

end Reorders

/-- Whether the edge leads back into the path is the same for all paths from the entry to its source. -/
def Steady (graph : ImportGraph) (entry source target : Nat) : Prop :=
  ∀ edges nodes edges' nodes', graph.Trail entry source edges nodes →
    graph.Trail entry source edges' nodes' → (target ∈ nodes ↔ target ∈ nodes')

/-- Every edge between the entry and the node is steady. -/
def SteadyTo (graph : ImportGraph) (entry node : Nat) : Prop :=
  ∀ source target, graph.Reaches entry source → graph.Edge source target →
    graph.Reaches target node → graph.Steady entry source target

private theorem Reorders.steadyTo {graph other : ImportGraph} {entry node : Nat}
    (reorders : graph.Reorders other) (steady : graph.SteadyTo entry node) :
    other.SteadyTo entry node := by
  intro source target reached edge ahead edges nodes edges' nodes' trail trail'
  have back := reorders.symm
  exact steady source target (back.reaches reached) (back.edge edge) (back.reaches ahead) edges nodes
    edges' nodes' (back.trail trail) (back.trail trail')

private theorem trail_le_depth {graph : ImportGraph} {entry node edges : Nat} {nodes : List Nat}
    (inside : entry < graph.size) (steady : graph.SteadyTo entry node)
    (trail : graph.Trail entry node edges nodes) :
    edges ≤ (graph.walkFrom entry).depthOf node := by
  obtain ⟨underway, explored⟩ := walkFrom_underway graph entry inside
  obtain ⟨route, distinct, length⟩ := trail
  induction route generalizing edges with
  | single =>
    have none : edges = 0 := by simpa using length.symm
    simp [none]
  | @extend middle last before route edge ih =>
    obtain ⟨distinctBefore, _, apart⟩ := List.nodup_append.mp distinct
    have ahead : last ∉ before := fun member => apart last member last (by simp) rfl
    have some : 0 < before.length := List.length_pos_of_mem route.first_mem
    have count : before.length = edges - 1 + 1 := by
      rw [List.length_append, List.length_singleton] at length
      omega
    have steadyBefore : graph.SteadyTo entry middle := fun source target reached link toMiddle =>
      steady source target reached link (toMiddle.step edge)
    have upper := ih steadyBefore distinctBefore count
    have here : graph.Trail entry middle (edges - 1) before := ⟨route, distinctBefore, count⟩
    obtain ⟨nodes, trail, down⟩ := underway.left middle ((explored middle).mpr route.reaches) (by simp)
    -- the path that gave `middle` its depth avoids `last`, as the one at hand does
    have off : last ∉ nodes := fun member =>
      ahead ((steady middle last route.reaches edge (.refl last) _ _ _ _ trail here).mp member)
    have lower := down last edge off
    omega

private theorem isGreatest_depth {graph : ImportGraph} {entry node : Nat} (inside : entry < graph.size)
    (steady : graph.SteadyTo entry node) (reached : graph.Reaches entry node) :
    IsGreatest {edges | ∃ nodes, graph.Trail entry node edges nodes}
      ((graph.walkFrom entry).depthOf node) := by
  obtain ⟨underway, explored⟩ := walkFrom_underway graph entry inside
  refine ⟨underway.realised node ((explored node).mpr reached), ?_⟩
  rintro edges ⟨nodes, trail⟩
  exact trail_le_depth inside steady trail

private theorem Reorders.depth_eq {graph other : ImportGraph} {entry node : Nat}
    (reorders : graph.Reorders other) (steady : graph.SteadyTo entry node) :
    (other.metrics entry).depth[node]? = (graph.metrics entry).depth[node]? := by
  by_cases inside : entry < graph.size
  · have insideOther : entry < other.size := reorders.size ▸ inside
    obtain ⟨underway, explored⟩ := walkFrom_underway graph entry inside
    obtain ⟨underwayOther, exploredOther⟩ := walkFrom_underway other entry insideOther
    by_cases bound : node < graph.size
    · rw [metrics_depth underway bound, metrics_depth underwayOther (reorders.size ▸ bound),
        Option.some.injEq]
      by_cases reached : graph.Reaches entry node
      · have greatest := isGreatest_depth insideOther (reorders.steadyTo steady)
          (reorders.reaches reached)
        rw [reorders.trails_eq] at greatest
        exact greatest.unique (isGreatest_depth inside steady reached)
      · have unreached : ¬ other.Reaches entry node := fun met => reached (reorders.symm.reaches met)
        rw [underway.untouched node (Bool.eq_false_iff.mpr (mt (explored node).mp reached)),
          underwayOther.untouched node (Bool.eq_false_iff.mpr (mt (exploredOther node).mp unreached))]
    · have beyond : graph.size ≤ node := Nat.not_lt.mp bound
      have beyondOther : other.size ≤ node := reorders.size ▸ beyond
      have size : (graph.metrics entry).depth.size = graph.size := underway.depthSize
      have sizeOther : (other.metrics entry).depth.size = other.size := underwayOther.depthSize
      simp [size, sizeOther, beyond, beyondOther]
  · simp [metrics, walkFrom, reorders.size, inside]

def successor? : List Nat → Nat → Option Nat
  | first :: second :: rest, node =>
    if first = node then some second else successor? (second :: rest) node
  | _, _ => none

private theorem rel_of_successor? {related : Nat → Nat → Prop} {nodes : List Nat} {node next : Nat}
    (linked : nodes.IsChain related) (found : successor? nodes node = some next) : related node next := by
  fun_induction successor? nodes node with
  | case1 second rest node =>
    cases found
    exact (List.isChain_cons_cons.mp linked).1
  | case2 first second rest node apart ih => exact ih (List.isChain_cons_cons.mp linked).2 found
  | case3 => cases found

private theorem successor?_isChain {nodes : List Nat} (distinct : nodes.Nodup) :
    nodes.IsChain fun node next => successor? nodes node = some next := by
  refine List.isChain_iff_forall_rel_of_append_cons_cons.mpr ?_
  rintro node next before after rfl
  induction before with
  | nil => simp [successor?]
  | cons first before ih =>
    obtain ⟨new, distinct⟩ := List.nodup_cons.mp distinct
    have apart : first ≠ node := fun same => new (by simp [same])
    obtain ⟨second, rest, shape⟩ := List.exists_cons_of_ne_nil
      (by simp : before ++ node :: next :: after ≠ [])
    rw [List.cons_append, shape, successor?, if_neg apart, ← shape]
    exact ih distinct

/-- The graph in which the nodes of a path import what follows them there before anything else. -/
def along (graph : ImportGraph) (nodes : List Nat) : ImportGraph :=
  ⟨graph.edges.mapIdx fun node targets =>
    match successor? nodes node with
    | some next => next :: targets.erase next
    | none => targets⟩

theorem imports_along {graph : ImportGraph} {nodes : List Nat} {node next : Nat}
    (bound : node < graph.size) (follows : successor? nodes node = some next) :
    (graph.along nodes).imports node = next :: (graph.imports node).erase next := by
  have inside : node < graph.edges.size := bound
  simp [along, imports, follows, inside]

private theorem reorders_along {graph : ImportGraph} {nodes : List Nat} (linked : nodes.IsChain graph.Edge) :
    graph.Reorders (graph.along nodes) where
  size := by simp [along, size]
  imports node := by
    by_cases bound : node < graph.size
    · cases follows : successor? nodes node with
      | none =>
        have inside : node < graph.edges.size := bound
        simp [along, imports, follows, inside]
      | some next =>
        rw [imports_along bound follows]
        exact (List.perm_cons_erase (rel_of_successor? linked follows).1).symm
    · have outside : ¬ node < graph.edges.size := bound
      simp [along, imports, outside]

private theorem Route.ends {graph : ImportGraph} {first last : Nat} {nodes : List Nat}
    (route : graph.Route first last nodes) :
    nodes.head? = some first ∧ nodes.getLast? = some last ∧ nodes.IsChain graph.Edge := by
  induction route with
  | single => simp
  | @extend middle last nodes route edge ih =>
    obtain ⟨begins, ends, linked⟩ := ih
    refine ⟨by simp [begins], by simp, linked.append (by simp) ?_⟩
    intro source final target next
    rw [ends, Option.mem_some_iff] at final
    simp only [List.head?_cons, Option.mem_some_iff] at next
    exact final ▸ next ▸ edge

/-- A walk that comes to a node goes on along first imports, as long as these lead to new nodes, and
notes the length of the path at the last of them. -/
theorem walks_along {graph : ImportGraph} {entry node depth last : Nat} {path rest : List Nat}
    {walk final : Walk} (walked : Walks graph depth (graph.imports node) walk final)
    (trail : graph.Trail entry node depth path) (underway : Underway graph entry path walk)
    (deep : walk.depthOf node = depth)
    (leads : (node :: rest).IsChain fun source target =>
      (graph.imports source).head? = some target ∧ target < graph.size)
    (distinct : rest.Nodup) (fresh : ∀ other ∈ rest, walk.isExplored other = false)
    (ends : (node :: rest).getLast? = some last) : depth + rest.length ≤ final.depthOf last := by
  induction rest generalizing node depth path walk final with
  | nil =>
    obtain rfl : node = last := by simpa using ends
    obtain ⟨_, grows, _⟩ := walks_underway walked trail (List.Subset.refl _) underway
    simpa [deep] using grows.depths node
  | cons next rest ih =>
    obtain ⟨⟨begins, inside⟩, leads⟩ := List.isChain_cons_cons.mp leads
    obtain ⟨targets, shape⟩ := List.head?_eq_some_iff.mp begins
    obtain ⟨new, distinct⟩ := List.nodup_cons.mp distinct
    obtain ⟨unknown, fresh⟩ := List.forall_mem_cons.mp fresh
    have apart : next ∉ path := by
      intro member
      simp [underway.entered next member] at unknown
    have edge : graph.Edge node next := ⟨by simp [shape], inside⟩
    rw [shape] at walked
    cases walked with
    | pass stays => simp [(underway.arrives_iff next).mpr ⟨inside, apart⟩] at stays
    | deepen _ known => simp [unknown] at known
    | meet _ known => simp [unknown] at known
    | @explore _ _ _ _ middle _ _ _ inner later =>
      -- the nodes ahead are new also when the walk has come to `next`, so the induction goes on from there
      have counted := underway.count next
      have lower : walk.depthOf next ≤ depth + 1 := by simp [underway.untouched next unknown]
      obtain ⟨arrived, _, deeper⟩ := counted.arrive trail edge apart lower
      have below := trail.extend edge apart
      have explored (other : Nat) (member : other ∈ rest) :
          ((walk.count next).arrive next (depth + 1)).isExplored other = false := by
        have different : next ≠ other := fun same => new (same ▸ member)
        have bound : next < (walk.count next).explored.size := counted.exploredSize ▸ inside
        rw [Walk.isExplored_arrive bound, decide_eq_false different, Bool.false_or]
        exact fresh other member
      have reached := ih inner below arrived deeper leads distinct explored (by simpa using ends)
      obtain ⟨left, _, _, _⟩ := counted.explores trail edge apart unknown
        (walks_underway inner below (List.Subset.refl _))
      obtain ⟨_, grows, _⟩ := walks_underway later trail (by simp [shape]) left
      have kept : middle.depthOf last ≤ final.depthOf last := grows.depths last
      rw [List.length_cons]
      omega

private theorem exists_order {graph : ImportGraph} {entry node edges : Nat} {nodes : List Nat}
    (inside : entry < graph.size) (trail : graph.Trail entry node edges nodes) :
    ∃ other, graph.Reorders other ∧ edges ≤ (other.walkFrom entry).depthOf node := by
  obtain ⟨begins, ends, linked⟩ := trail.route.ends
  have reorders := reorders_along linked
  refine ⟨graph.along nodes, reorders, ?_⟩
  have insideAlong : entry < (graph.along nodes).size := reorders.size ▸ inside
  obtain ⟨final, walked, computed⟩ := walkFrom_walks (graph.along nodes) entry insideAlong
  have leads : nodes.IsChain fun source target =>
      ((graph.along nodes).imports source).head? = some target ∧ target < (graph.along nodes).size := by
    refine List.isChain_iff_forall_rel_of_append_cons_cons.mpr ?_
    intro source target before after shape
    have edge := List.isChain_iff_forall_rel_of_append_cons_cons.mp linked shape
    have follows := List.isChain_iff_forall_rel_of_append_cons_cons.mp
      (successor?_isChain trail.distinct) shape
    have bound := trail.route.mem_lt_size inside (by simp [shape] : source ∈ nodes)
    rw [imports_along bound follows, reorders.size]
    exact ⟨rfl, edge.2⟩
  obtain ⟨rest, rfl⟩ := List.head?_eq_some_iff.mp begins
  obtain ⟨new, distinct⟩ := List.nodup_cons.mp trail.distinct
  have fresh (other : Nat) (member : other ∈ rest) :
      (((Walk.start (graph.along (entry :: rest)).size).enter entry).explore entry).isExplored other =
        false := by
    have different : entry ≠ other := fun same => new (same ▸ member)
    rw [Walk.isExplored_explore (by simpa [Walk.start, Walk.enter] using insideAlong),
      decide_eq_false different, Bool.false_or]
    exact Walk.start_isExplored _ other
  have reached := walks_along walked (Trail.single _ entry) (underway_start insideAlong)
    (Walk.start_depthOf _ entry) leads distinct fresh ends
  have length : rest.length = edges := by simpa using trail.length
  rw [Nat.zero_add, length] at reached
  rw [computed]
  exact reached

private theorem exists_longest {graph : ImportGraph} {entry node : Nat} (inside : entry < graph.size)
    (reached : graph.Reaches entry node) :
    ∃ longest, IsGreatest {edges | ∃ nodes, graph.Trail entry node edges nodes} longest := by
  obtain ⟨underway, explored⟩ := walkFrom_underway graph entry inside
  have bounded : BddAbove {edges | ∃ nodes, graph.Trail entry node edges nodes} :=
    ⟨graph.size, fun edges ⟨_, trail⟩ => Nat.le_of_lt (trail.edges_lt_size inside)⟩
  exact bounded.exists_isGreatest_of_nonempty
    ⟨_, underway.realised node ((explored node).mpr reached)⟩

/-- The depth of a node is the same for all orders of imports if all edges on the way to it are steady.
In general no order makes a node deeper than the longest path to it without repetitions is long, and some
order makes it as deep; so the depth is the same for all orders just if it is that length for all. -/
theorem depth_reordered (graph : ImportGraph) (entry : Nat) :
    (∀ other node, graph.Reorders other → graph.SteadyTo entry node →
      (other.metrics entry).depth[node]? = (graph.metrics entry).depth[node]?) ∧
    ∀ node, entry < graph.size → graph.Reaches entry node →
      ∃ longest, IsGreatest {edges | ∃ nodes, graph.Trail entry node edges nodes} longest ∧
        (∀ other, graph.Reorders other →
          ∃ depth ≤ longest, (other.metrics entry).depth[node]? = some depth) ∧
        (∃ other, graph.Reorders other ∧ (other.metrics entry).depth[node]? = some longest) ∧
        ((∀ other, graph.Reorders other →
            (other.metrics entry).depth[node]? = (graph.metrics entry).depth[node]?) ↔
          ∀ other, graph.Reorders other → (other.metrics entry).depth[node]? = some longest) := by
  refine ⟨fun other node reorders steady => reorders.depth_eq steady, ?_⟩
  intro node inside reached
  obtain ⟨longest, greatest⟩ := exists_longest inside reached
  have bounded (other : ImportGraph) (reorders : graph.Reorders other) :
      (other.walkFrom entry).depthOf node ≤ longest ∧
        (other.metrics entry).depth[node]? = some ((other.walkFrom entry).depthOf node) := by
    have insideOther : entry < other.size := reorders.size ▸ inside
    obtain ⟨underway, explored⟩ := walkFrom_underway other entry insideOther
    have met := reorders.reaches reached
    obtain ⟨nodes, trail⟩ := underway.realised node ((explored node).mpr met)
    exact ⟨greatest.2 ⟨nodes, reorders.symm.trail trail⟩,
      metrics_depth underway (met.lt_size insideOther)⟩
  obtain ⟨nodes, trail⟩ := greatest.1
  obtain ⟨best, reordersBest, deep⟩ := exists_order inside trail
  obtain ⟨upper, computed⟩ := bounded best reordersBest
  rw [Nat.le_antisymm upper deep] at computed
  refine ⟨longest, greatest, fun other reorders => ⟨_, bounded other reorders⟩,
    ⟨best, reordersBest, computed⟩, ?_⟩
  constructor
  · intro same other reorders
    rw [same other reorders, ← same best reordersBest, computed]
  · intro full other reorders
    rw [full other reorders, full graph (.refl graph)]

def mill : ImportGraph :=
  ofLists [[1, 3], [2], [1], [1]]

def millTurned : ImportGraph :=
  ofLists [[3, 1], [2], [1], [1]]

private theorem mill_reorders : mill.Reorders millTurned where
  size := rfl
  imports node := by
    match node with
    | 0 => exact .swap 1 3 []
    | 1 => exact .refl _
    | 2 => exact .refl _
    | 3 => exact .refl _
    | node + 4 => simp [mill, millTurned, ofLists, imports]

def millPaths : List (Nat × List Nat) :=
  [(0, [0]), (3, [0, 3]), (1, [0, 1]), (1, [0, 3, 1]), (2, [0, 1, 2]), (2, [0, 3, 1, 2])]

private theorem mill_trails {node edges : Nat} {nodes : List Nat} (trail : mill.Trail 0 node edges nodes) :
    (node, nodes) ∈ millPaths := by
  have longer : ∀ path ∈ millPaths, ∀ last ∈ mill.imports path.1, (path.2 ++ [last]).Nodup →
      (last, path.2 ++ [last]) ∈ millPaths := by decide
  have route := trail.route
  have distinct := trail.distinct
  clear trail
  induction route with
  | single => decide
  | extend route edge ih =>
    exact longer _ (ih (List.nodup_append.mp distinct).1) _ edge.1 distinct

private theorem mill_steady (node : Nat) : mill.SteadyTo 0 node := by
  have alike : ∀ path ∈ millPaths, ∀ other ∈ millPaths, path.1 = other.1 →
      ∀ target ∈ mill.imports path.1, (target ∈ path.2 ↔ target ∈ other.2) := by decide
  intro source target _ edge _ edges nodes edges' nodes' trail trail'
  exact alike _ (mill_trails trail) _ (mill_trails trail') rfl target edge.1

def pair : ImportGraph :=
  ofLists [[1, 2], [2], [1]]

def pairSwapped : ImportGraph :=
  ofLists [[2, 1], [2], [1]]

theorem depth_reordered_mill :
    (mill.Reorders millTurned ∧ mill.SteadyTo 0 2 ∧ (millTurned.metrics 0).depth[2]? = some 3) ∧
    0 < pair.size ∧ pair.Reaches 0 1 ∧
      ∃ longest, IsGreatest {edges | ∃ nodes, pair.Trail 0 1 edges nodes} longest ∧
        ∃ other, pair.Reorders other ∧ (other.metrics 0).depth[1]? = some longest := by
  have reached : pair.Reaches 0 1 := .step (.refl 0) ⟨by decide, by decide⟩
  obtain ⟨longest, greatest, _, attained, _⟩ := (depth_reordered pair 0).2 1 (by decide) reached
  have kept := (depth_reordered mill 0).1 millTurned 2 mill_reorders (mill_steady 2)
  exact ⟨⟨mill_reorders, mill_steady 2, kept.trans (by decide)⟩, by decide, reached, longest, greatest,
    attained⟩

/-- The first file imports the pair in one order or the other: each time the file of the pair that comes
first stays at depth one, although a path of two edges leads to it without repetitions. -/
theorem pair_order_matters :
    pair.Reorders pairSwapped ∧ (pair.metrics 0).depth = #[0, 1, 2] ∧
      (pairSwapped.metrics 0).depth = #[0, 2, 1] ∧ pair.Trail 0 1 2 [0, 2, 1] := by
  refine ⟨⟨rfl, ?_⟩, by decide, by decide, ?_⟩
  · intro node
    match node with
    | 0 => exact .swap 1 2 []
    | 1 => exact .refl _
    | 2 => exact .refl _
    | node + 3 => simp [pair, pairSwapped, ofLists, imports]
  · have start := Trail.single pair 0
    have middle : pair.Trail 0 2 1 [0, 2] := start.extend ⟨by decide, by decide⟩ (by decide)
    exact middle.extend ⟨by decide, by decide⟩ (by decide)

end CrateAtlas.ImportGraph
