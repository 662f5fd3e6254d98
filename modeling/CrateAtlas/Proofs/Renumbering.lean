import CrateAtlas.Graph.Cycles
import CrateAtlas.Graph.Walk
import Mathlib.Data.List.Forall2
import Mathlib.Data.Set.Function
import Mathlib.Order.Interval.Set.Defs

/-!
The numbers of nodes are only names. If the nodes of a graph are numbered anew, the walk and the cycle
search of the new graph run in step with those of the old one: at each moment, what they hold of a node
is the same, under its new number. Numbers that name no node are passed over on both sides.
-/

namespace CrateAtlas.ImportGraph

/-- `graph.Renumbers rename other`: the nodes of `graph` have new numbers in `other`, where every node
has its edges in the same order. A number that names no node may become any other such number. -/
structure Renumbers (graph : ImportGraph) (rename : Nat → Nat) (other : ImportGraph) : Prop where
  size : other.size = graph.size
  permutes : Set.BijOn rename (Set.Iio graph.size) (Set.Iio graph.size)
  edges : ∀ node < graph.size, List.Forall₂
    (fun target image => if target < graph.size then image = rename target else graph.size ≤ image)
    (graph.imports node) (other.imports (rename node))

/-- Lists of targets that correspond but for the numbers that name no node. -/
inductive Aligned (size : Nat) (rename : Nat → Nat) : List Nat → List Nat → Prop where
  | nil : Aligned size rename [] []
  | skip {target : Nat} {targets images : List Nat} (outside : size ≤ target)
      (rest : Aligned size rename targets images) : Aligned size rename (target :: targets) images
  | skipImage {image : Nat} {targets images : List Nat} (outside : size ≤ image)
      (rest : Aligned size rename targets images) : Aligned size rename targets (image :: images)
  | both {target : Nat} {targets images : List Nat} (inside : target < size)
      (rest : Aligned size rename targets images) :
      Aligned size rename (target :: targets) (rename target :: images)

/-- What the entry reaches in a graph is found again in another graph under other numbers. -/
structure Mirrors (graph : ImportGraph) (rename : Nat → Nat) (other : ImportGraph) (entry : Nat) :
    Prop where
  size : other.size = graph.size
  inside : Set.MapsTo rename (Set.Iio graph.size) (Set.Iio graph.size)
  apart : Set.InjOn rename (Set.Iio graph.size)
  aligned : ∀ node, graph.Reaches entry node →
    Aligned graph.size rename (graph.imports node) (other.imports (rename node))

private theorem aligned_of_forall₂ {size : Nat} {rename : Nat → Nat} {targets images : List Nat}
    (related : List.Forall₂
      (fun target image => if target < size then image = rename target else size ≤ image)
      targets images) : Aligned size rename targets images := by
  induction related with
  | nil => exact .nil
  | @cons target image targets images head rest ih =>
    by_cases inside : target < size
    · rw [if_pos inside] at head
      exact head ▸ .both inside ih
    · rw [if_neg inside] at head
      exact .skip (not_lt.mp inside) (.skipImage head ih)

private theorem Renumbers.mirrors {graph other : ImportGraph} {rename : Nat → Nat} {entry : Nat}
    (renumbers : graph.Renumbers rename other) (inside : entry < graph.size) :
    graph.Mirrors rename other entry where
  size := renumbers.size
  inside := renumbers.permutes.mapsTo
  apart := renumbers.permutes.injOn
  aligned node reached := aligned_of_forall₂ (renumbers.edges node (reached.lt_size inside))

/-- Two loops along corresponding targets stay related if each step along a node keeps them so and
numbers of no node change nothing. -/
theorem Aligned.foldl {α β : Type} {Related : α → β → Prop} {step : α → Nat → α} {step' : β → Nat → β}
    {size : Nat} {rename : Nat → Nat} {targets images : List Nat}
    (aligned : Aligned size rename targets images)
    (skips : ∀ a b target, Related a b → size ≤ target → step a target = a ∧ step' b target = b)
    (steps : ∀ a b target, Related a b → target ∈ targets → target < size →
      Related (step a target) (step' b (rename target)))
    {a : α} {b : β} (related : Related a b) :
    Related (targets.foldl step a) (images.foldl step' b) := by
  induction aligned generalizing a b with
  | nil => exact related
  | skip outside rest ih =>
    rw [List.foldl_cons, (skips a b _ related outside).1]
    exact ih (fun a b target related member => steps a b target related (.tail _ member)) related
  | skipImage outside rest ih =>
    rw [List.foldl_cons, (skips a b _ related outside).2]
    exact ih steps related
  | both inside rest ih =>
    rw [List.foldl_cons, List.foldl_cons]
    exact ih (fun a b target related member => steps a b target related (.tail _ member))
      (steps a b _ related (.head _) inside)

/-- Two arrays hold the same at corresponding places. -/
structure Mirrored {α : Type} (size : Nat) (rename : Nat → Nat) (values images : Array α) : Prop where
  valuesSize : values.size = size
  imagesSize : images.size = size
  same : ∀ node < size, images[rename node]? = values[node]?

namespace Mirrored

variable {α : Type} {size node : Nat} {rename : Nat → Nat} {values images : Array α}

theorem replicate (value : α) (inside : Set.MapsTo rename (Set.Iio size) (Set.Iio size)) :
    Mirrored size rename (Array.replicate size value) (Array.replicate size value) where
  valuesSize := Array.size_replicate
  imagesSize := Array.size_replicate
  same node below := by
    have image : rename node < size := inside below
    simp [below, image]

theorem set (mirrored : Mirrored size rename values images) (apart : Set.InjOn rename (Set.Iio size))
    (below : node < size) (value : α) :
    Mirrored size rename (values.setIfInBounds node value)
      (images.setIfInBounds (rename node) value) where
  valuesSize := by rw [Array.size_setIfInBounds, mirrored.valuesSize]
  imagesSize := by rw [Array.size_setIfInBounds, mirrored.imagesSize]
  same other otherBelow := by
    by_cases same : node = other
    · subst same
      have valuesBelow : node < values.size := mirrored.valuesSize.symm ▸ below
      have found := mirrored.same node below
      rw [Array.getElem?_eq_getElem valuesBelow] at found
      have imagesBelow := (Array.getElem?_eq_some_iff.mp found).1
      simp [valuesBelow, imagesBelow]
    · have imageSame : rename node ≠ rename other := fun met => same (apart below otherBelow met)
      rw [Array.getElem?_setIfInBounds_ne same, Array.getElem?_setIfInBounds_ne imageSame,
        mirrored.same other otherBelow]

theorem getD (mirrored : Mirrored size rename values images) (below : node < size) (value : α) :
    images.getD (rename node) value = values.getD node value := by
  rw [Array.getD_eq_getD_getElem?, Array.getD_eq_getD_getElem?, mirrored.same node below]

theorem outside (mirrored : Mirrored size rename values images) (beyond : size ≤ node) :
    values[node]? = none ∧ images[node]? = none :=
  ⟨Array.getElem?_eq_none (mirrored.valuesSize ▸ beyond),
    Array.getElem?_eq_none (mirrored.imagesSize ▸ beyond)⟩

end Mirrored

structure Walk.Mirrors (size : Nat) (rename : Nat → Nat) (walk image : Walk) : Prop where
  onPath : Mirrored size rename walk.onPath image.onPath
  explored : Mirrored size rename walk.explored image.explored
  direct : Mirrored size rename walk.direct image.direct
  depth : Mirrored size rename walk.depth image.depth

namespace Walk.Mirrors

variable {size node : Nat} {rename : Nat → Nat} {walk image : Walk}

private theorem start (inside : Set.MapsTo rename (Set.Iio size) (Set.Iio size)) :
    Mirrors size rename (Walk.start size) (Walk.start size) :=
  ⟨.replicate _ inside, .replicate _ inside, .replicate _ inside, .replicate _ inside⟩

theorem arrives_eq (mirrors : Mirrors size rename walk image) (below : node < size) :
    image.arrives (rename node) = walk.arrives node := by
  rw [Walk.arrives, Walk.arrives, mirrors.onPath.getD below]

private theorem isExplored_eq (mirrors : Mirrors size rename walk image) (below : node < size) :
    image.isExplored (rename node) = walk.isExplored node :=
  mirrors.explored.getD below _

theorem depthOf_eq (mirrors : Mirrors size rename walk image) (below : node < size) :
    image.depthOf (rename node) = walk.depthOf node :=
  mirrors.depth.getD below _

theorem stays (mirrors : Mirrors size rename walk image) (beyond : size ≤ node) :
    walk.arrives node = false ∧ image.arrives node = false := by
  obtain ⟨none, none'⟩ := mirrors.onPath.outside beyond
  simp [Walk.arrives, none, none']

section

variable (mirrors : Mirrors size rename walk image) (apart : Set.InjOn rename (Set.Iio size))
  (below : node < size)

include mirrors apart below

theorem enter : Mirrors size rename (walk.enter node) (image.enter (rename node)) :=
  { mirrors with onPath := mirrors.onPath.set apart below true }

theorem leave : Mirrors size rename (walk.leave node) (image.leave (rename node)) :=
  { mirrors with onPath := mirrors.onPath.set apart below false }

private theorem explore : Mirrors size rename (walk.explore node) (image.explore (rename node)) :=
  { mirrors with explored := mirrors.explored.set apart below true }

theorem setDepth (depth : Nat) :
    Mirrors size rename (walk.setDepth node depth) (image.setDepth (rename node) depth) :=
  { mirrors with depth := mirrors.depth.set apart below depth }

private theorem count : Mirrors size rename (walk.count node) (image.count (rename node)) where
  onPath := mirrors.onPath
  explored := mirrors.explored
  direct := by
    rw [Walk.count, Walk.count, mirrors.direct.getD below]
    exact mirrors.direct.set apart below _
  depth := mirrors.depth

end

end Walk.Mirrors

section

variable {graph other : ImportGraph} {rename : Nat → Nat} {entry node depth : Nat} {walk image : Walk}

/-- Pushing a depth through corresponding nodes keeps walks in step. -/
theorem Mirrors.deepen (mirrors : graph.Mirrors rename other entry) (inside : entry < graph.size)
    (fuel : Nat) (reached : graph.Reaches entry node)
    (walks : Walk.Mirrors graph.size rename walk image) :
    Walk.Mirrors graph.size rename (graph.deepen fuel node depth walk)
      (other.deepen fuel (rename node) depth image) := by
  induction fuel generalizing node depth walk image with
  | zero => exact walks
  | succ fuel ih =>
    have below := reached.lt_size inside
    refine Walk.Mirrors.leave ?_ mirrors.apart below
    refine (mirrors.aligned node reached).foldl ?_ ?_ (walks.enter mirrors.apart below)
    · intro walk image target walks beyond
      simp [walks.stays beyond]
    · intro walk image target walks member targetBelow
      rw [walks.arrives_eq targetBelow, walks.depthOf_eq targetBelow]
      split
      · exact ih (reached.step ⟨member, targetBelow⟩) (walks.setDepth mirrors.apart targetBelow _)
      · exact walks

/-- Visiting corresponding nodes keeps walks in step. -/
theorem Mirrors.visit (mirrors : graph.Mirrors rename other entry) (inside : entry < graph.size)
    (fuel : Nat) (reached : graph.Reaches entry node)
    (walks : Walk.Mirrors graph.size rename walk image) :
    Walk.Mirrors graph.size rename (graph.visit fuel node depth walk)
      (other.visit fuel (rename node) depth image) := by
  induction fuel generalizing node depth walk image with
  | zero => exact walks
  | succ fuel ih =>
    have below := reached.lt_size inside
    refine Walk.Mirrors.leave ?_ mirrors.apart below
    refine (mirrors.aligned node reached).foldl ?_ ?_
      ((walks.enter mirrors.apart below).explore mirrors.apart below)
    · intro walk image target walks beyond
      simp [walks.stays beyond]
    · intro walk image target walks member targetBelow
      have counted := walks.count mirrors.apart targetBelow
      have deeper := counted.setDepth mirrors.apart targetBelow (depth + 1)
      have next := reached.step ⟨member, targetBelow⟩
      simp only [walks.arrives_eq targetBelow, counted.isExplored_eq targetBelow,
        counted.depthOf_eq targetBelow]
      split
      · split
        · exact ih next deeper
        · split
          · exact mirrors.deepen inside fuel next deeper
          · exact counted
      · exact walks

theorem Mirrors.walkFrom (mirrors : graph.Mirrors rename other entry) (inside : entry < graph.size) :
    Walk.Mirrors graph.size rename (graph.walkFrom entry) (other.walkFrom (rename entry)) := by
  have image : rename entry < other.size := mirrors.size.symm ▸ mirrors.inside inside
  rw [ImportGraph.walkFrom, ImportGraph.walkFrom, if_pos inside, if_pos image, mirrors.size]
  exact mirrors.visit inside graph.size (.refl entry) (.start mirrors.inside)

end

structure CycleSearch.Mirrors (size : Nat) (rename : Nat → Nat) (state image : CycleSearch) :
    Prop where
  visited : Mirrored size rename state.visited image.visited
  below : ∀ node ∈ state.stack, node < size
  stack : image.stack = state.stack.map rename
  cycles : image.cycles = state.cycles.map (List.map rename)

namespace CycleSearch.Mirrors

variable {size node : Nat} {rename : Nat → Nat} {state image : CycleSearch}

private theorem start (inside : Set.MapsTo rename (Set.Iio size) (Set.Iio size)) :
    Mirrors size rename (CycleSearch.start size) (CycleSearch.start size) where
  visited := .replicate false inside
  below := by simp [CycleSearch.start]
  stack := rfl
  cycles := rfl

private theorem enter (mirrors : Mirrors size rename state image) (apart : Set.InjOn rename (Set.Iio size))
    (below : node < size) : Mirrors size rename (state.enter node) (image.enter (rename node)) where
  visited := mirrors.visited.set apart below true
  below := by
    rw [CycleSearch.enter, List.forall_mem_append]
    exact ⟨mirrors.below, List.forall_mem_singleton.mpr below⟩
  stack := by simp [CycleSearch.enter, mirrors.stack]
  cycles := mirrors.cycles

private theorem leave (mirrors : Mirrors size rename state image) :
    Mirrors size rename state.leave image.leave where
  visited := mirrors.visited
  below node member := mirrors.below node (List.dropLast_subset _ member)
  stack := by simp [CycleSearch.leave, mirrors.stack, List.map_dropLast]
  cycles := mirrors.cycles

private theorem dropWhile_map (apart : Set.InjOn rename (Set.Iio size)) (below : node < size)
    {nodes : List Nat} (inside : ∀ other ∈ nodes, other < size) :
    (nodes.map rename).dropWhile (· != rename node) = (nodes.dropWhile (· != node)).map rename := by
  induction nodes with
  | nil => rfl
  | cons first rest ih =>
    rw [List.forall_mem_cons] at inside
    have met : (rename first != rename node) = (first != node) := by
      rw [Bool.eq_iff_iff, bne_iff_ne, bne_iff_ne, ne_eq, ne_eq, apart.eq_iff inside.1 below]
    rw [List.map_cons, List.dropWhile_cons, List.dropWhile_cons, met]
    split
    · exact ih inside.2
    · rfl

private theorem close (mirrors : Mirrors size rename state image) (apart : Set.InjOn rename (Set.Iio size))
    (below : node < size) : Mirrors size rename (state.close node) (image.close (rename node)) := by
  have met : rename node ∈ image.stack ↔ node ∈ state.stack := by
    rw [mirrors.stack, List.mem_map]
    constructor
    · rintro ⟨other, member, same⟩
      exact apart (mirrors.below other member) below same ▸ member
    · exact fun member => ⟨node, member, rfl⟩
  unfold CycleSearch.close
  by_cases member : node ∈ state.stack
  · rw [if_pos member, if_pos (met.mpr member)]
    refine { mirrors with cycles := ?_ }
    simp [mirrors.cycles, mirrors.stack, dropWhile_map apart below mirrors.below]
  · rw [if_neg member, if_neg fun found => member (met.mp found)]
    exact mirrors

end CycleSearch.Mirrors

section

variable {graph other : ImportGraph} {rename : Nat → Nat} {entry node : Nat}
  {state image : CycleSearch}

/-- Searching from corresponding nodes keeps cycle searches in step. -/
theorem Mirrors.search (mirrors : graph.Mirrors rename other entry) (inside : entry < graph.size)
    (fuel : Nat) (reached : graph.Reaches entry node)
    (searches : CycleSearch.Mirrors graph.size rename state image) :
    CycleSearch.Mirrors graph.size rename (graph.search fuel node state)
      (other.search fuel (rename node) image) := by
  induction fuel generalizing node state image with
  | zero => exact searches
  | succ fuel ih =>
    refine CycleSearch.Mirrors.leave ?_
    refine (mirrors.aligned node reached).foldl ?_ ?_
      (searches.enter mirrors.apart (reached.lt_size inside))
    · intro state image target searches beyond
      obtain ⟨none, none'⟩ := searches.visited.outside beyond
      simp [none, none']
    · intro state image target searches member targetBelow
      rw [searches.visited.same target targetBelow]
      split
      · exact searches
      · exact ih (reached.step ⟨member, targetBelow⟩) searches
      · exact searches.close mirrors.apart targetBelow

theorem Mirrors.cycles_eq (mirrors : graph.Mirrors rename other entry) (inside : entry < graph.size) :
    other.cycles (rename entry) = (graph.cycles entry).map (List.map rename) := by
  have image : rename entry < other.size := mirrors.size.symm ▸ mirrors.inside inside
  rw [cycles, cycles, if_pos inside, if_pos image, mirrors.size]
  exact (mirrors.search inside graph.size (.refl entry) (.start mirrors.inside)).cycles

end

/-- Fan-in, depth and cycles do not depend on the numbers of nodes: in a graph with new numbers each
node has the same measures, and the same walks are reported in the same order. -/
theorem measures_renumbered (graph other : ImportGraph) (rename : Nat → Nat) (entry : Nat)
    (renumbers : graph.Renumbers rename other) (inside : entry < graph.size) :
    (∀ node < graph.size,
      (other.metrics (rename entry)).direct[rename node]? = (graph.metrics entry).direct[node]? ∧
      (other.metrics (rename entry)).depth[rename node]? = (graph.metrics entry).depth[node]?) ∧
    other.cycles (rename entry) = (graph.cycles entry).map (List.map rename) := by
  have mirrors := renumbers.mirrors inside
  have walks := mirrors.walkFrom inside
  exact ⟨fun node below => ⟨walks.direct.same node below, walks.depth.same node below⟩,
    mirrors.cycles_eq inside⟩

def braided : ImportGraph :=
  ofLists [[1, 3, 9], [2, 2], [1, 2, 4], [1]]

def reordered : ImportGraph :=
  ofLists [[2, 0, 5], [2], [0, 0], [2, 1, 7]]

def reorder : Nat → Nat
  | 0 => 3
  | 1 => 2
  | 2 => 0
  | 3 => 1
  | other => other

private theorem braided_reordered : braided.Renumbers reorder reordered where
  size := rfl
  permutes := by
    have inside : ∀ node < 4, reorder node < 4 := by decide
    have apart : ∀ first < 4, ∀ second < 4, reorder first = reorder second → first = second := by
      decide
    have onto : ∀ image < 4, ∃ node < 4, reorder node = image := by decide
    exact ⟨inside, fun first below second below' => apart first below second below', onto⟩
  edges := by decide

theorem measures_renumbered_braided :
    braided.Renumbers reorder reordered ∧ 0 < braided.size ∧
    braided.metrics 0 = ⟨#[0, 2, 2, 1], #[0, 2, 3, 1]⟩ ∧
    braided.cycles 0 = [[1, 2, 1], [2, 2]] ∧
    (∀ node < braided.size,
      (reordered.metrics 3).direct[reorder node]? = (braided.metrics 0).direct[node]? ∧
      (reordered.metrics 3).depth[reorder node]? = (braided.metrics 0).depth[node]?) ∧
    reordered.cycles 3 = (braided.cycles 0).map (List.map reorder) := by
  have renumbered := measures_renumbered braided reordered reorder 0 braided_reordered (by decide)
  exact ⟨braided_reordered, by decide, by decide, by decide, renumbered⟩

end CrateAtlas.ImportGraph
