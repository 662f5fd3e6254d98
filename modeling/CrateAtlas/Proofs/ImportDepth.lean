import CrateAtlas.Proofs.Walk
import Mathlib.Order.Bounds.Defs

/-!
What import depth measures. Depths only grow, and a node that a walk has left is settled: each edge
of it that does not lead back into the path of its depth leads at least one level down, and so does each
edge that lies on no cycle. Every depth is the length of a path from the entry, so that without cycles it
is the length of the longest one.
-/

namespace CrateAtlas.ImportGraph

/-- `graph.Route a b nodes`: these are the nodes along edges from `a` to `b`, both included. -/
inductive Route (graph : ImportGraph) (first : Nat) : Nat → List Nat → Prop where
  | single : Route graph first first [first]
  | extend {middle last : Nat} {nodes : List Nat} (route : Route graph first middle nodes)
      (edge : graph.Edge middle last) : Route graph first last (nodes ++ [last])

theorem Route.reaches {graph : ImportGraph} {first last : Nat} {nodes : List Nat}
    (route : graph.Route first last nodes) : graph.Reaches first last := by
  induction route with
  | single => exact .refl first
  | extend route edge ih => exact ih.step edge

private theorem Route.reaches_last {graph : ImportGraph} {first last node : Nat} {nodes : List Nat}
    (route : graph.Route first last nodes) (member : node ∈ nodes) : graph.Reaches node last := by
  induction route with
  | single => exact List.mem_singleton.mp member ▸ .refl _
  | extend route edge ih =>
    rcases List.mem_append.mp member with earlier | last
    · exact (ih earlier).step edge
    · exact List.mem_singleton.mp last ▸ .refl _

/-- An edge to a node on the way to its source lies on a cycle. -/
theorem Route.off_of_acyclic {graph : ImportGraph} {first last target : Nat} {nodes : List Nat}
    (route : graph.Route first last nodes) (acyclic : ¬ graph.Reaches target last) :
    target ∉ nodes :=
  fun member => acyclic (route.reaches_last member)

/-- A route of a given number of edges that meets no node twice. -/
structure Trail (graph : ImportGraph) (first last edges : Nat) (nodes : List Nat) : Prop where
  route : graph.Route first last nodes
  distinct : nodes.Nodup
  length : nodes.length = edges + 1

theorem Trail.single (graph : ImportGraph) (node : Nat) : graph.Trail node node 0 [node] :=
  ⟨.single, by simp, rfl⟩

theorem Trail.extend {graph : ImportGraph} {first middle last edges : Nat} {nodes : List Nat}
    (trail : graph.Trail first middle edges nodes) (edge : graph.Edge middle last)
    (apart : last ∉ nodes) : graph.Trail first last (edges + 1) (nodes ++ [last]) := by
  refine ⟨trail.route.extend edge, ?_, by simp [trail.length]⟩
  refine List.nodup_append.mpr ⟨trail.distinct, by simp, ?_⟩
  intro node member other new same
  exact apart (List.mem_singleton.mp new ▸ same ▸ member)

/-- Some path from the entry is as long as the node is deep, and every edge of the node that does not
lead back into this path leads at least one level down. -/
def Settled (graph : ImportGraph) (entry : Nat) (walk : Walk) (node : Nat) : Prop :=
  ∃ nodes, graph.Trail entry node (walk.depthOf node) nodes ∧
    ∀ target, graph.Edge node target → target ∉ nodes →
      walk.depthOf node + 1 ≤ walk.depthOf target

/-- A walk that has come from an entry along a path. The nodes that it has explored and left are
settled, and so is everything that they import explored. -/
structure Underway (graph : ImportGraph) (entry : Nat) (path : List Nat) (walk : Walk) : Prop where
  pathSize : walk.onPath.size = graph.size
  exploredSize : walk.explored.size = graph.size
  depthSize : walk.depth.size = graph.size
  onPath : ∀ node < graph.size, walk.onPath[node]? = some (decide (node ∈ path))
  entered : ∀ node ∈ path, walk.isExplored node = true
  realised : ∀ node, walk.isExplored node = true →
    ∃ nodes, graph.Trail entry node (walk.depthOf node) nodes
  untouched : ∀ node, walk.isExplored node = false → walk.depthOf node = 0
  closed : ∀ node, walk.isExplored node = true → node ∉ path →
    ∀ target, graph.Edge node target → walk.isExplored target = true
  left : ∀ node, walk.isExplored node = true → node ∉ path → graph.Settled entry walk node

/-- What a walk keeps while it follows edges at the end of a path. -/
structure Walk.Grows (path : List Nat) (earlier later : Walk) : Prop where
  depths : ∀ node, earlier.depthOf node ≤ later.depthOf node
  pathDepths : ∀ node ∈ path, later.depthOf node = earlier.depthOf node
  explored : ∀ node, earlier.isExplored node = true → later.isExplored node = true

namespace Walk

theorem Grows.refl (path : List Nat) (walk : Walk) : Grows path walk walk :=
  ⟨fun _ => Nat.le_refl _, fun _ _ => rfl, fun _ known => known⟩

theorem Grows.trans {path : List Nat} {first second third : Walk} (before : Grows path first second)
    (after : Grows path second third) : Grows path first third where
  depths node := Nat.le_trans (before.depths node) (after.depths node)
  pathDepths node member := (after.pathDepths node member).trans (before.pathDepths node member)
  explored node known := after.explored node (before.explored node known)

theorem Grows.shorten {path : List Nat} {target : Nat} {earlier later : Walk}
    (grows : Grows (path ++ [target]) earlier later) : Grows path earlier later :=
  { grows with
    pathDepths := fun node member => grows.pathDepths node (List.mem_append_left _ member) }

private theorem Grows.count (path : List Nat) (walk : Walk) (target : Nat) :
    Grows path walk (walk.count target) :=
  ⟨fun _ => Nat.le_refl _, fun _ _ => rfl, fun _ known => known⟩

private theorem depthOf_setDepth {walk : Walk} {target : Nat} (inside : target < walk.depth.size)
    (depth node : Nat) : (walk.setDepth target depth).depthOf node =
      if target = node then depth else walk.depthOf node := by
  simp only [depthOf, setDepth, Array.getD_eq_getD_getElem?]
  by_cases same : target = node
  · subst same
    simp [inside]
  · simp [same]

theorem isExplored_explore {walk : Walk} {target : Nat} (inside : target < walk.explored.size)
    (node : Nat) : (walk.explore target).isExplored node =
      (decide (target = node) || walk.isExplored node) := by
  simp only [isExplored, explore, Array.getD_eq_getD_getElem?]
  by_cases same : target = node
  · subst same
    simp [inside]
  · simp [same]

theorem explore_of_explored {walk : Walk} {target : Nat} (known : walk.isExplored target = true) :
    walk.explore target = walk := by
  have same : walk.explored.setIfInBounds target true = walk.explored := by
    apply Array.ext_getElem?
    intro other
    by_cases equal : target = other
    · subst equal
      by_cases inside : target < walk.explored.size
      · simpa [isExplored, inside] using known.symm
      · simp [inside]
    · simp [equal]
  rw [explore, same]

def arrive (walk : Walk) (target depth : Nat) : Walk :=
  ((walk.setDepth target depth).enter target).explore target

private theorem depthOf_arrive {walk : Walk} {target : Nat} (inside : target < walk.depth.size)
    (depth node : Nat) : (walk.arrive target depth).depthOf node =
      if target = node then depth else walk.depthOf node :=
  depthOf_setDepth inside depth node

theorem isExplored_arrive {walk : Walk} {target : Nat} (inside : target < walk.explored.size)
    (depth node : Nat) : (walk.arrive target depth).isExplored node =
      (decide (target = node) || walk.isExplored node) :=
  isExplored_explore inside node

theorem enter_eq_arrive {walk : Walk} {target : Nat} (known : walk.isExplored target = true)
    (depth : Nat) : (walk.setDepth target depth).enter target = walk.arrive target depth :=
  (@explore_of_explored ((walk.setDepth target depth).enter target) target known).symm

end Walk

namespace Underway

variable {graph : ImportGraph} {entry node target depth : Nat} {path : List Nat} {walk later : Walk}

theorem arrives_iff (underway : Underway graph entry path walk) (target : Nat) :
    walk.arrives target = true ↔ target < graph.size ∧ target ∉ path := by
  rw [Walk.arrives_iff]
  by_cases inside : target < graph.size
  · simp [underway.onPath target inside, inside]
  · have beyond : walk.onPath[target]? = none := by
      simpa [underway.pathSize] using inside
    simp [beyond, inside]

theorem count (underway : Underway graph entry path walk) (target : Nat) :
    Underway graph entry path (walk.count target) :=
  ⟨underway.pathSize, underway.exploredSize, underway.depthSize, underway.onPath, underway.entered,
    underway.realised, underway.untouched, underway.closed, underway.left⟩

theorem settled (underway : Underway graph entry path walk) (node : Nat)
    (explored : walk.isExplored node = true) (off : node ∉ path) (target : Nat)
    (edge : graph.Edge node target) (acyclic : ¬ graph.Reaches target node) :
    walk.depthOf node + 1 ≤ walk.depthOf target := by
  obtain ⟨nodes, trail, down⟩ := underway.left node explored off
  exact down target edge (trail.route.off_of_acyclic acyclic)

/-- The walk goes on to a node that is not on its path and lies no deeper already. -/
theorem arrive (underway : Underway graph entry path walk)
    (trail : graph.Trail entry node depth path) (edge : graph.Edge node target)
    (apart : target ∉ path) (lower : walk.depthOf target ≤ depth + 1) :
    Underway graph entry (path ++ [target]) (walk.arrive target (depth + 1)) ∧
      Walk.Grows path walk (walk.arrive target (depth + 1)) ∧
      (walk.arrive target (depth + 1)).depthOf target = depth + 1 := by
  have depths (other : Nat) : (walk.arrive target (depth + 1)).depthOf other =
      if target = other then depth + 1 else walk.depthOf other :=
    Walk.depthOf_arrive (underway.depthSize ▸ edge.2) (depth + 1) other
  have explored (other : Nat) : (walk.arrive target (depth + 1)).isExplored other =
      (decide (target = other) || walk.isExplored other) :=
    Walk.isExplored_arrive (underway.exploredSize ▸ edge.2) (depth + 1) other
  have known {other : Nat} (found : (walk.arrive target (depth + 1)).isExplored other = true)
      (different : target ≠ other) : walk.isExplored other = true := by
    simpa [explored, different] using found
  have grows : Walk.Grows path walk (walk.arrive target (depth + 1)) := by
    refine ⟨?_, ?_, fun other found => by simp [explored, found]⟩
    · intro other
      rw [depths]
      split
      next same => exact same ▸ lower
      next => exact Nat.le_refl _
    · intro other member
      have different : target ≠ other := fun same => apart (same ▸ member)
      rw [depths, if_neg different]
  refine ⟨?_, grows, by simp [depths]⟩
  constructor
  case pathSize =>
    simpa [Walk.arrive, Walk.explore, Walk.enter, Walk.setDepth] using underway.pathSize
  case exploredSize =>
    simpa [Walk.arrive, Walk.explore, Walk.enter, Walk.setDepth] using underway.exploredSize
  case depthSize =>
    simpa [Walk.arrive, Walk.explore, Walk.enter, Walk.setDepth] using underway.depthSize
  case onPath =>
    intro other inside
    simp only [Walk.arrive, Walk.explore, Walk.enter, Walk.setDepth, List.mem_append,
      List.mem_singleton]
    by_cases same : target = other
    · subst same
      simp [underway.pathSize, inside]
    · simp [same, underway.onPath other inside, Ne.symm same]
  case entered =>
    intro other member
    rcases List.mem_append.mp member with old | new
    · exact grows.explored other (underway.entered other old)
    · simp [explored, List.mem_singleton.mp new]
  case realised =>
    intro other found
    rw [depths]
    by_cases same : target = other
    · subst same
      exact ⟨path ++ [target], by simpa using trail.extend edge apart⟩
    · rw [if_neg same]
      exact underway.realised other (known found same)
  case untouched =>
    intro other unknown
    have fresh : target ≠ other ∧ walk.isExplored other = false := by simpa [explored] using unknown
    rw [depths, if_neg fresh.1]
    exact underway.untouched other fresh.2
  case closed =>
    intro other found off next edge
    have outside : other ∉ path ∧ target ≠ other := by simpa [eq_comm] using off
    exact grows.explored next
      (underway.closed other (known found outside.2) outside.1 next edge)
  case left =>
    intro other found off
    have outside : other ∉ path ∧ target ≠ other := by simpa [eq_comm] using off
    obtain ⟨nodes, before, down⟩ := underway.left other (known found outside.2) outside.1
    have kept : (walk.arrive target (depth + 1)).depthOf other = walk.depthOf other := by
      rw [depths, if_neg outside.2]
    refine ⟨nodes, kept.symm ▸ before, ?_⟩
    intro next edge ahead
    rw [kept]
    exact Nat.le_trans (down next edge ahead) (grows.depths next)

/-- The walk leaves a node all of whose edges it has followed. -/
theorem leave (underway : Underway graph entry (path ++ [target]) walk)
    (trail : graph.Trail entry target depth (path ++ [target])) (deep : walk.depthOf target = depth)
    (closed : ∀ next, graph.Edge target next → walk.isExplored next = true)
    (reached : ∀ next, graph.Edge target next → next ∉ path ++ [target] →
      depth + 1 ≤ walk.depthOf next) : Underway graph entry path (walk.leave target) := by
  have apart : target ∉ path := by
    intro member
    exact (List.nodup_append.mp trail.distinct).2.2 target member target (by simp) rfl
  have outside {other : Nat} (off : other ∉ path) (different : other ≠ target) :
      other ∉ path ++ [target] := by simpa using ⟨off, different⟩
  constructor
  case pathSize => simpa [Walk.leave] using underway.pathSize
  case exploredSize => exact underway.exploredSize
  case depthSize => exact underway.depthSize
  case onPath =>
    intro other inside
    simp only [Walk.leave]
    by_cases same : target = other
    · subst same
      simp [underway.pathSize, inside, apart]
    · simp [same, underway.onPath other inside, Ne.symm same]
  case entered => exact fun other member => underway.entered other (List.mem_append_left _ member)
  case realised => exact underway.realised
  case untouched => exact underway.untouched
  case closed =>
    intro other found off next edge
    by_cases same : other = target
    · exact closed next (same ▸ edge)
    · exact underway.closed other found (outside off same) next edge
  case left =>
    intro other found off
    by_cases same : other = target
    · subst same
      -- the path that the walk is on has the length that it noted when it arrived
      have length : (walk.leave other).depthOf other = depth := deep
      exact ⟨path ++ [other], length.symm ▸ trail, length.symm ▸ reached⟩
    · exact underway.left other found (outside off same)

/-- A walk that has gone on to a node, followed its edges and left it again. -/
theorem returns {middle : Walk} (underway : Underway graph entry path walk)
    (trail : graph.Trail entry node depth path) (edge : graph.Edge node target)
    (apart : target ∉ path) (lower : walk.depthOf target ≤ depth + 1)
    (inner : Underway graph entry (path ++ [target]) middle)
    (during : Walk.Grows (path ++ [target]) (walk.arrive target (depth + 1)) middle)
    (closed : ∀ next, graph.Edge target next → middle.isExplored next = true)
    (reached : ∀ next, graph.Edge target next → next ∉ path ++ [target] →
      depth + 1 + 1 ≤ middle.depthOf next) :
    Underway graph entry path (middle.leave target) ∧
      Walk.Grows path walk (middle.leave target) ∧
      (middle.leave target).depthOf target = depth + 1 := by
  obtain ⟨_, before, deep⟩ := underway.arrive trail edge apart lower
  have depth_eq : middle.depthOf target = depth + 1 :=
    (during.pathDepths target (by simp)).trans deep
  have grown := before.trans during.shorten
  refine ⟨inner.leave (trail.extend edge apart) depth_eq closed reached, ?_, depth_eq⟩
  exact ⟨grown.depths, grown.pathDepths, grown.explored⟩

/-- A node that is met for the first time is explored by any walk that follows its edges. -/
theorem explores {middle : Walk} (underway : Underway graph entry path walk)
    (trail : graph.Trail entry node depth path) (edge : graph.Edge node target)
    (apart : target ∉ path) (fresh : walk.isExplored target = false)
    (followed : Underway graph entry (path ++ [target]) (walk.arrive target (depth + 1)) →
      Underway graph entry (path ++ [target]) middle ∧
        Walk.Grows (path ++ [target]) (walk.arrive target (depth + 1)) middle ∧
        ∀ next ∈ graph.imports target, next < graph.size → middle.isExplored next = true ∧
          (next ∉ path ++ [target] → depth + 1 + 1 ≤ middle.depthOf next)) :
    Underway graph entry path (middle.leave target) ∧
      Walk.Grows path walk (middle.leave target) ∧
      (middle.leave target).depthOf target = depth + 1 ∧
      (middle.leave target).isExplored target = true := by
  have lower : walk.depthOf target ≤ depth + 1 := by simp [underway.untouched target fresh]
  obtain ⟨arrived, _, _⟩ := underway.arrive trail edge apart lower
  obtain ⟨inner, during, reached⟩ := followed arrived
  obtain ⟨left, grown, deep⟩ := underway.returns trail edge apart lower inner during
    (fun next edge => (reached next edge.1 edge.2).1)
    (fun next edge off => (reached next edge.1 edge.2).2 off)
  exact ⟨left, grown, deep, inner.entered target (by simp)⟩

/-- A greater depth is pushed through an explored node by any walk that follows its edges. -/
theorem pushes {middle : Walk} (underway : Underway graph entry path walk)
    (trail : graph.Trail entry node depth path) (edge : graph.Edge node target)
    (apart : target ∉ path) (explored : walk.isExplored target = true)
    (deeper : walk.depthOf target < depth + 1)
    (followed : Underway graph entry (path ++ [target])
        ((walk.setDepth target (depth + 1)).enter target) →
      (∀ next ∈ graph.imports target, next < graph.size → walk.isExplored next = true) →
      Underway graph entry (path ++ [target]) middle ∧
        Walk.Grows (path ++ [target]) ((walk.setDepth target (depth + 1)).enter target) middle ∧
        ∀ next ∈ graph.imports target, next < graph.size → next ∉ path ++ [target] →
          depth + 1 + 1 ≤ middle.depthOf next) :
    Underway graph entry path (middle.leave target) ∧
      Walk.Grows path walk (middle.leave target) ∧
      (middle.leave target).depthOf target = depth + 1 := by
  have lower := Nat.le_of_lt deeper
  obtain ⟨arrived, before, _⟩ := underway.arrive trail edge apart lower
  -- what an explored node imports is explored, so that depths are pushed through such nodes only
  have closed := underway.closed target explored apart
  rw [Walk.enter_eq_arrive explored] at followed
  obtain ⟨inner, during, reached⟩ :=
    followed arrived fun next member inside => closed next ⟨member, inside⟩
  exact underway.returns trail edge apart lower inner during
    (fun next edge => during.explored next (before.explored next (closed next edge)))
    (fun next edge off => reached next edge.1 edge.2 off)

end Underway

section

variable {graph : ImportGraph} {entry node depth : Nat} {path targets : List Nat}
  {walk final : Walk}

/-- Following edges of a node at a depth leaves all their targets deeper, but those on the path. -/
theorem deepens_underway (deepened : Deepens graph depth targets walk final)
    (trail : graph.Trail entry node depth path) (imported : targets ⊆ graph.imports node)
    (known : ∀ target ∈ targets, target < graph.size → walk.isExplored target = true)
    (underway : Underway graph entry path walk) :
    Underway graph entry path final ∧ Walk.Grows path walk final ∧
      ∀ target ∈ targets, target < graph.size → target ∉ path →
        depth + 1 ≤ final.depthOf target := by
  induction deepened generalizing node path with
  | nil depth walk => exact ⟨underway, .refl path walk, by simp⟩
  | @pass depth target targets walk final stays rest ih =>
    obtain ⟨done, grows, reached⟩ := ih trail (List.subset_of_cons_subset imported)
      (fun other member => known other (List.mem_cons_of_mem target member)) underway
    refine ⟨done, grows, ?_⟩
    intro other member inside off
    rcases List.mem_cons.mp member with rfl | tail
    · have deep : ¬ walk.depthOf other < depth + 1 :=
        fun lower => stays ⟨(underway.arrives_iff other).mpr ⟨inside, off⟩, lower⟩
      exact Nat.le_trans (Nat.not_lt.mp deep) (grows.depths other)
    · exact reached other tail inside off
  | @push depth target targets walk middle final arrives deeper inner rest ihInner ihRest =>
    obtain ⟨inside, apart⟩ := (underway.arrives_iff target).mp arrives
    have explored := known target List.mem_cons_self inside
    have edge : graph.Edge node target := ⟨imported List.mem_cons_self, inside⟩
    obtain ⟨left, grown, deep⟩ := underway.pushes trail edge apart explored deeper
      fun arrived known => ihInner (trail.extend edge apart) (List.Subset.refl _) known arrived
    obtain ⟨done, after, reached⟩ := ihRest trail (List.subset_of_cons_subset imported)
      (fun other member bound =>
        grown.explored other (known other (List.mem_cons_of_mem target member) bound)) left
    refine ⟨done, grown.trans after, ?_⟩
    intro other member bound off
    rcases List.mem_cons.mp member with rfl | tail
    · exact deep ▸ after.depths other
    · exact reached other tail bound off

/-- As for pushing a depth; besides, all targets are explored in the end. -/
theorem walks_underway (walked : Walks graph depth targets walk final)
    (trail : graph.Trail entry node depth path) (imported : targets ⊆ graph.imports node)
    (underway : Underway graph entry path walk) :
    Underway graph entry path final ∧ Walk.Grows path walk final ∧
      ∀ target ∈ targets, target < graph.size → final.isExplored target = true ∧
        (target ∉ path → depth + 1 ≤ final.depthOf target) := by
  induction walked generalizing node path with
  | nil depth walk => exact ⟨underway, .refl path walk, by simp⟩
  | @pass depth target targets walk final stays rest ih =>
    obtain ⟨done, grows, reached⟩ := ih trail (List.subset_of_cons_subset imported) underway
    refine ⟨done, grows, List.forall_mem_cons.mpr ⟨?_, reached⟩⟩
    intro inside
    have member : target ∈ path := by
      by_contra off
      simp [(underway.arrives_iff target).mpr ⟨inside, off⟩] at stays
    exact ⟨grows.explored target (underway.entered target member), fun off => absurd member off⟩
  | @explore depth target targets walk middle final arrives fresh inner rest ihInner ihRest =>
    obtain ⟨inside, apart⟩ := (underway.arrives_iff target).mp arrives
    have edge : graph.Edge node target := ⟨imported List.mem_cons_self, inside⟩
    obtain ⟨left, grown, deep, known⟩ := (underway.count target).explores trail edge apart fresh
      (ihInner (trail.extend edge apart) (List.Subset.refl _))
    obtain ⟨done, after, reached⟩ := ihRest trail (List.subset_of_cons_subset imported) left
    have grows := (Walk.Grows.count path walk target).trans (grown.trans after)
    refine ⟨done, grows, List.forall_mem_cons.mpr ⟨fun _ => ?_, reached⟩⟩
    exact ⟨after.explored target known, fun _ => deep ▸ after.depths target⟩
  | @deepen depth target targets walk middle final arrives known deeper inner rest ih =>
    obtain ⟨inside, apart⟩ := (underway.arrives_iff target).mp arrives
    have edge : graph.Edge node target := ⟨imported List.mem_cons_self, inside⟩
    obtain ⟨left, grown, deep⟩ := (underway.count target).pushes trail edge apart known deeper
      fun arrived known =>
        deepens_underway inner (trail.extend edge apart) (List.Subset.refl _) known arrived
    obtain ⟨done, after, reached⟩ := ih trail (List.subset_of_cons_subset imported) left
    have grows := (Walk.Grows.count path walk target).trans (grown.trans after)
    refine ⟨done, grows, List.forall_mem_cons.mpr ⟨fun _ => ?_, reached⟩⟩
    refine ⟨grows.explored target known, ?_⟩
    exact fun _ => deep ▸ after.depths target
  | @meet depth target targets walk final arrives known shallow rest ih =>
    obtain ⟨done, after, reached⟩ := ih trail (List.subset_of_cons_subset imported)
      (underway.count target)
    have grows := (Walk.Grows.count path walk target).trans after
    refine ⟨done, grows, List.forall_mem_cons.mpr ⟨fun _ => ?_, reached⟩⟩
    refine ⟨grows.explored target known, ?_⟩
    exact fun _ => Nat.le_trans (Nat.not_lt.mp shallow) (grows.depths target)

end

theorem Walk.start_depthOf (size node : Nat) : (Walk.start size).depthOf node = 0 := by
  simp only [depthOf, start, Array.getD_eq_getD_getElem?, Array.getElem?_replicate]
  split <;> rfl

theorem Walk.start_isExplored (size node : Nat) : (Walk.start size).isExplored node = false := by
  simp only [isExplored, start, Array.getD_eq_getD_getElem?, Array.getElem?_replicate]
  split <;> rfl

theorem underway_start {graph : ImportGraph} {entry : Nat} (inside : entry < graph.size) :
    Underway graph entry [entry] (((Walk.start graph.size).enter entry).explore entry) := by
  have explored (node : Nat) :
      (((Walk.start graph.size).enter entry).explore entry).isExplored node =
        decide (entry = node) := by
    rw [Walk.isExplored_explore (by simpa [Walk.start, Walk.enter] using inside)]
    have unexplored : ((Walk.start graph.size).enter entry).isExplored node = false :=
      Walk.start_isExplored graph.size node
    rw [unexplored, Bool.or_false]
  have depths := Walk.start_depthOf graph.size
  have only {node : Nat} (found : (((Walk.start graph.size).enter entry).explore entry).isExplored
      node = true) : node = entry := by
    rw [explored, decide_eq_true_iff] at found
    exact found.symm
  constructor
  case pathSize => simp [Walk.start, Walk.enter, Walk.explore]
  case exploredSize => simp [Walk.start, Walk.enter, Walk.explore]
  case depthSize => simp [Walk.start, Walk.enter, Walk.explore]
  case onPath =>
    intro node bound
    simp only [Walk.start, Walk.enter, Walk.explore, Array.getElem?_setIfInBounds,
      Array.size_replicate, Array.getElem?_replicate, bound, if_true, List.mem_singleton]
    by_cases same : entry = node
    · simp [same, bound]
    · simp [same, Ne.symm same]
  case entered => simp [explored]
  case realised =>
    intro node found
    rw [only found]
    exact ⟨[entry], (depths entry).symm ▸ Trail.single graph entry⟩
  case untouched => exact fun node _ => depths node
  case closed => exact fun node found off => absurd (by simp [only found]) off
  case left => exact fun node found off => absurd (by simp [only found]) off

/-- The walk from the entry leaves every node settled, and explores just what the entry reaches. -/
theorem walkFrom_underway (graph : ImportGraph) (entry : Nat) (inside : entry < graph.size) :
    Underway graph entry [] (graph.walkFrom entry) ∧
      ∀ node, (graph.walkFrom entry).isExplored node = true ↔ graph.Reaches entry node := by
  obtain ⟨final, walked, computed⟩ := walkFrom_walks graph entry inside
  have trail := Trail.single graph entry
  obtain ⟨underway, grows, reached⟩ :=
    walks_underway walked trail (List.Subset.refl _) (underway_start inside)
  have whole : Underway graph entry ([] ++ [entry]) final := underway
  have left : Underway graph entry [] (final.leave entry) := by
    refine whole.leave trail ?_ ?_ ?_
    · exact (grows.pathDepths entry (by simp)).trans (Walk.start_depthOf graph.size entry)
    · exact fun next edge => (reached next edge.1 edge.2).1
    · exact fun next edge off => (reached next edge.1 edge.2).2 off
  rw [computed]
  refine ⟨left, fun node => ⟨?_, ?_⟩⟩
  · intro explored
    obtain ⟨nodes, trail⟩ := left.realised node explored
    exact trail.route.reaches
  · intro reached
    induction reached with
    | refl => exact underway.entered entry (by simp)
    | step reached edge ih => exact left.closed _ ih (by simp) _ edge

/-- No edge of a node that the entry reaches lies on a cycle. -/
def AcyclicFrom (graph : ImportGraph) (entry : Nat) : Prop :=
  ∀ source target, graph.Reaches entry source → graph.Edge source target →
    ¬ graph.Reaches target source

theorem metrics_depth {graph : ImportGraph} {entry node : Nat}
    (underway : Underway graph entry [] (graph.walkFrom entry)) (inside : node < graph.size) :
    (graph.metrics entry).depth[node]? = some ((graph.walkFrom entry).depthOf node) := by
  have bound : node < (graph.walkFrom entry).depth.size := underway.depthSize ▸ inside
  simp [metrics, Walk.depthOf, bound]

private theorem route_le_depth {graph : ImportGraph} {entry : Nat} (inside : entry < graph.size)
    (acyclic : graph.AcyclicFrom entry) {node : Nat} {nodes : List Nat}
    (route : graph.Route entry node nodes) :
    nodes.length ≤ (graph.walkFrom entry).depthOf node + 1 := by
  obtain ⟨underway, explored⟩ := walkFrom_underway graph entry inside
  induction route with
  | single => simp
  | @extend middle last nodes route edge ih =>
    have lower := underway.settled middle ((explored middle).mpr route.reaches) (by simp) last edge
      (acyclic middle last route.reaches edge)
    simp only [List.length_append, List.length_singleton]
    omega

/-- An edge that lies on no cycle leads at least one level down. If the entry reaches no cycle, the
depth of a node is the number of edges on the longest way to it. -/
theorem depth_longest_route (graph : ImportGraph) (entry : Nat) (inside : entry < graph.size) :
    (∀ source target, graph.Reaches entry source → graph.Edge source target →
      ¬ graph.Reaches target source →
      ∃ upper lower, (graph.metrics entry).depth[source]? = some upper ∧
        (graph.metrics entry).depth[target]? = some lower ∧ upper + 1 ≤ lower) ∧
    (graph.AcyclicFrom entry → ∀ node, graph.Reaches entry node →
      ∃ depth, (graph.metrics entry).depth[node]? = some depth ∧
        IsGreatest {edges | ∃ nodes, graph.Route entry node nodes ∧ nodes.length = edges + 1}
          depth) := by
  obtain ⟨underway, explored⟩ := walkFrom_underway graph entry inside
  constructor
  · intro source target reached edge acyclic
    refine ⟨_, _, metrics_depth underway (reached.lt_size inside),
      metrics_depth underway edge.2, ?_⟩
    exact underway.settled source ((explored source).mpr reached) (by simp) target edge acyclic
  · intro acyclic node reached
    refine ⟨_, metrics_depth underway (reached.lt_size inside), ?_, ?_⟩
    · obtain ⟨nodes, trail⟩ := underway.realised node ((explored node).mpr reached)
      exact ⟨nodes, trail.route, trail.length⟩
    · rintro edges ⟨nodes, route, length⟩
      have bound := route_le_depth inside acyclic route
      omega

def shortcut : ImportGraph :=
  ofLists [[3, 1, 1, 9], [2], [3], [4], []]

private theorem shortcut_forward {source target : Nat} (edge : shortcut.Edge source target) :
    source < target := by
  have within : ∀ source < shortcut.size, ∀ target ∈ shortcut.imports source, source < target := by
    decide
  by_cases bound : source < shortcut.size
  · exact within source bound target edge.1
  · have beyond : shortcut.edges[source]? = none := by simpa [size] using bound
    simp [Edge, imports, beyond] at edge

private theorem shortcut_acyclic {source target : Nat} (edge : shortcut.Edge source target) :
    ¬ shortcut.Reaches target source := by
  have onward {first last : Nat} (reached : shortcut.Reaches first last) : first ≤ last := by
    induction reached with
    | refl => exact Nat.le_refl _
    | step reached edge ih => exact Nat.le_trans ih (Nat.le_of_lt (shortcut_forward edge))
  intro back
  exact absurd (shortcut_forward edge) (Nat.not_lt.mpr (onward back))

theorem depth_longest_route_shortcut : 0 < shortcut.size ∧
    (shortcut.metrics 0).depth = #[0, 1, 2, 3, 4] ∧
    (∃ upper lower, (shortcut.metrics 0).depth[3]? = some upper ∧
      (shortcut.metrics 0).depth[4]? = some lower ∧ upper + 1 ≤ lower) ∧
    ∃ depth, (shortcut.metrics 0).depth[4]? = some depth ∧
      IsGreatest {edges | ∃ nodes, shortcut.Route 0 4 nodes ∧ nodes.length = edges + 1} depth := by
  have first : shortcut.Edge 0 3 := ⟨by decide, by decide⟩
  have second : shortcut.Edge 3 4 := ⟨by decide, by decide⟩
  have spec := depth_longest_route shortcut 0 (by decide)
  have near := Reaches.step (.refl 0) first
  exact ⟨by decide, by decide, spec.1 3 4 near second (shortcut_acyclic second),
    spec.2 (fun _ _ _ edge => shortcut_acyclic edge) 4 (near.step second)⟩

end CrateAtlas.ImportGraph
