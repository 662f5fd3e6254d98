import CrateAtlas.Proofs.CycleSearch
import Mathlib.Logic.Relation

/-!
No cycle escapes the search. The nodes are finished in an order in which every edge that completes no
reported cycle leads to an earlier node; so a closed walk has to use an edge that does.
-/

namespace CrateAtlas.ImportGraph

def ClosesOne (cycles : List (List Nat)) (source target : Nat) : Prop :=
  ∃ cycle ∈ cycles, [source, target] <:+ cycle

/-- Whether an edge is the last one of a reported cycle. -/
def Closes (graph : ImportGraph) (entry source target : Nat) : Prop :=
  ClosesOne (graph.cycles entry) source target

private theorem ClosesOne.mono {first second : List (List Nat)} {source target : Nat}
    (closing : ClosesOne first source target) (included : first ⊆ second) :
    ClosesOne second source target := by
  obtain ⟨cycle, reported, last⟩ := closing
  exact ⟨cycle, included reported, last⟩

/-- An edge that has been followed leads to a finished node, or back into the path. -/
def Answered (state : CycleSearch) (finished : List Nat) (source target : Nat) : Prop :=
  target ∈ finished ∨ state.visited[target]? = some true ∧ ClosesOne state.cycles source target

/-- The nodes that a search has finished, in the order in which it left them. -/
structure Finished (graph : ImportGraph) (finished : List Nat) (state : CycleSearch) : Prop where
  visited_iff : ∀ node, state.visited[node]? = some true ↔ node ∈ finished ∨ node ∈ state.stack
  distinct : (finished ++ state.stack).Nodup
  answered : ∀ before node after, finished = before ++ node :: after →
    ∀ target, graph.Edge node target → Answered state before node target

private theorem finished_start {graph : ImportGraph} {entry : Nat} (inside : entry < graph.size) :
    Finished graph [] ((CycleSearch.start graph.size).enter entry) where
  visited_iff node := by
    rw [CycleSearch.enter_visited]
    split
    next same => simp [CycleSearch.start, same.1]
    next different =>
      have apart : node ≠ entry := by
        rintro rfl
        exact different ⟨rfl, by simpa [CycleSearch.start] using inside⟩
      simp [CycleSearch.start, Array.getElem?_replicate, apart]
  distinct := by simp [CycleSearch.start]
  answered before node after split := by simp at split

private theorem Finished.enter {graph : ImportGraph} {finished : List Nat} {state : CycleSearch}
    {target : Nat} (done : Finished graph finished state)
    (fresh : state.visited[target]? = some false) :
    Finished graph finished (state.enter target) := by
  have inside := CycleSearch.lt_size_of_visited fresh
  have unmet : ¬ (target ∈ finished ∨ target ∈ state.stack) := by
    rw [← done.visited_iff target, fresh]
    simp
  refine ⟨?_, ?_, ?_⟩
  · intro node
    rw [CycleSearch.enter_visited]
    split
    next same => simp [same.1]
    next different =>
      have apart : node ≠ target := by
        rintro rfl
        exact different ⟨rfl, inside⟩
      simp [done.visited_iff node, apart]
  · rw [CycleSearch.enter_stack, ← List.append_assoc]
    refine List.nodup_append.mpr ⟨done.distinct, by simp, ?_⟩
    intro node old last new same
    rw [same, List.mem_singleton.mp new] at old
    exact unmet (List.mem_append.mp old)
  · intro before node after split other edge
    rcases done.answered before node after split other edge with earlier | ⟨visited, closing⟩
    · exact .inl earlier
    · exact .inr ⟨CycleSearch.visited_enter target visited, closing⟩

theorem Finished.leave {graph : ImportGraph} {finished path : List Nat} {state : CycleSearch}
    {node : Nat} (done : Finished graph finished state) (shape : state.stack = path ++ [node])
    (answered : ∀ target, graph.Edge node target → Answered state finished node target) :
    Finished graph (finished ++ [node]) state.leave := by
  have left : state.leave.stack = path := by simp [CycleSearch.leave, shape]
  refine ⟨?_, ?_, ?_⟩
  · intro other
    rw [CycleSearch.leave_visited, done.visited_iff other, left, shape]
    simp only [List.mem_append, List.mem_singleton]
    tauto
  · have distinct := done.distinct
    rw [shape] at distinct
    rw [left]
    refine (List.Perm.nodup_iff ?_).mp distinct
    rw [List.append_assoc]
    exact List.perm_append_comm.append_left finished
  · intro before other after split target edge
    rcases List.eq_nil_or_concat after with rfl | ⟨rest, last, rfl⟩
    · obtain ⟨same, lastSame⟩ := List.append_inj' split rfl
      rw [← same, ← List.head_eq_of_cons_eq lastSame]
      exact answered target (List.head_eq_of_cons_eq lastSame ▸ edge)
    · have longer : finished ++ [node] = (before ++ other :: rest) ++ [last] := by simpa using split
      exact done.answered before other rest (List.append_inj' longer rfl).1 target edge

/-- Every edge that is followed gets its answer, and the nodes finished meanwhile come in order. -/
theorem follows_finished {graph : ImportGraph} {node : Nat} {targets path finished : List Nat}
    {state final : CycleSearch} (followed : Follows graph targets state final)
    (size : state.visited.size = graph.size) (shape : state.stack = path ++ [node])
    (done : Finished graph finished state) :
    ∃ later, Finished graph (finished ++ later) final ∧
      ∀ target ∈ targets, target < graph.size → Answered final (finished ++ later) node target := by
  induction followed generalizing node path finished with
  | nil state => exact ⟨[], by simpa using done, by simp⟩
  | @outside target targets state final absent rest ih =>
    obtain ⟨later, settled, answered⟩ := ih size shape done
    refine ⟨later, settled, ?_⟩
    intro other member inside
    rcases List.mem_cons.mp member with rfl | tail
    · have beyond := Array.getElem?_eq_none_iff.mp absent
      omega
    · exact answered other tail inside
  | @enter target targets state middle final fresh inner rest ihInner ihRest =>
    obtain ⟨first, searched, answeredInner⟩ :=
      ihInner (by simpa using size) rfl (done.enter fresh)
    have pushed : middle.stack = state.stack ++ [target] := follows_stack inner
    have left := searched.leave pushed fun other edge => answeredInner other edge.1 edge.2
    have restored : middle.leave.stack = path ++ [node] := by
      simp [CycleSearch.leave, pushed, shape]
    have sameSize : middle.leave.visited.size = graph.size := by
      simpa [follows_visited_size inner] using size
    obtain ⟨second, settled, answered⟩ := ihRest sameSize restored left
    refine ⟨first ++ target :: second, by simpa using settled, ?_⟩
    intro other member inside
    rcases List.mem_cons.mp member with rfl | tail
    · exact .inl (by simp)
    · simpa using answered other tail inside
  | @close target targets state final met rest ih =>
    have kept : Finished graph finished (state.close target) := by
      refine ⟨by simpa using done.visited_iff, by simpa using done.distinct, ?_⟩
      intro before other after split next edge
      rcases done.answered before other after split next edge with earlier | ⟨visited, closing⟩
      · exact .inl earlier
      · exact .inr ⟨by simpa using visited, closing.mono (CycleSearch.close_cycles state target)⟩
    obtain ⟨later, settled, answered⟩ := ih (by simpa using size) (by simpa using shape) kept
    refine ⟨later, settled, ?_⟩
    intro other member inside
    rcases List.mem_cons.mp member with rfl | tail
    · rcases (done.visited_iff other).mp met with earlier | onPath
      · exact .inl (List.mem_append_left _ earlier)
      · have visited := follows_visited rest other (by simpa using met)
        have closing : ClosesOne (state.close other).cycles node other := by
          refine ⟨state.stack.dropWhile (· != other) ++ [other], ?_, ?_⟩
          · simp [CycleSearch.close, onPath]
          · exact cut_suffix (by simp [shape]) onPath
        exact .inr ⟨visited, closing.mono (follows_cycles rest)⟩
    · exact answered other tail inside

theorem follows_from_entry {graph : ImportGraph} {entry : Nat} {final : CycleSearch}
    (inside : entry < graph.size)
    (followed : Follows graph (graph.imports entry) ((CycleSearch.start graph.size).enter entry) final) :
    ∃ order, Finished graph order final.leave ∧ final.leave.stack = [] ∧
      ∀ node, node ∈ order ↔ graph.Reaches entry node := by
  have tracked := follows_tracked followed rfl (List.Subset.refl _) (tracked_start inside)
  have begun : ((CycleSearch.start graph.size).enter entry).stack = [] ++ [entry] := rfl
  have shape : final.stack = [] ++ [entry] := (follows_stack followed).trans begun
  obtain ⟨later, searched, answered⟩ :=
    follows_finished followed (tracked_start inside).size begun (finished_start inside)
  have finished := searched.leave shape fun target edge => answered target edge.1 edge.2
  have left : final.leave.stack = [] := by simp [CycleSearch.leave, shape]
  have visited (node : Nat) : final.visited[node]? = some true ↔ node ∈ [] ++ later ++ [entry] := by
    simpa [left] using finished.visited_iff node
  refine ⟨[] ++ later ++ [entry], finished, left, ?_⟩
  intro node
  constructor
  · intro member
    exact tracked.reached node ((visited node).mpr member)
  · intro reached
    induction reached with
    | refl => simp
    | step reached edge ih =>
      obtain ⟨before, after, split⟩ := List.append_of_mem ih
      rcases finished.answered before _ after split _ edge with earlier | ⟨marked, _⟩
      · rw [split]
        exact List.mem_append_left _ earlier
      · exact (visited _).mp marked

theorem follows_visited_iff {graph : ImportGraph} {entry : Nat} {final : CycleSearch}
    (inside : entry < graph.size)
    (followed : Follows graph (graph.imports entry) ((CycleSearch.start graph.size).enter entry) final)
    (node : Nat) : final.visited[node]? = some true ↔ graph.Reaches entry node := by
  obtain ⟨order, finished, left, member⟩ := follows_from_entry inside followed
  rw [← member node]
  simpa [left] using finished.visited_iff node

/-- The nodes that the entry reaches can be ordered so that every edge that ends no reported cycle
leads from a node to an earlier one. -/
theorem exists_finishing_order (graph : ImportGraph) (entry : Nat) (inside : entry < graph.size) :
    ∃ order : List Nat, order.Nodup ∧ (∀ node, node ∈ order ↔ graph.Reaches entry node) ∧
      ∀ before node after, order = before ++ node :: after →
        ∀ target, graph.Edge node target → target ∈ before ∨ graph.Closes entry node target := by
  obtain ⟨final, followed, computed⟩ := cycles_follows graph entry inside
  obtain ⟨order, finished, left, member⟩ := follows_from_entry inside followed
  refine ⟨order, by simpa [left] using finished.distinct, member, ?_⟩
  intro before node after split target edge
  rcases finished.answered before node after split target edge with earlier | ⟨_, closing⟩
  · exact .inl earlier
  · exact .inr (by simpa [Closes, computed] using closing)

def Kept (graph : ImportGraph) (entry source target : Nat) : Prop :=
  graph.Reaches entry source ∧ graph.Edge source target ∧ ¬ graph.Closes entry source target

/-- Without the last edges of the reported cycles nothing leads back to where it starts. -/
theorem kept_acyclic (graph : ImportGraph) (entry : Nat) (inside : entry < graph.size) (node : Nat) :
    ¬ Relation.TransGen (graph.Kept entry) node node := by
  obtain ⟨order, distinct, member, earlier⟩ := exists_finishing_order graph entry inside
  have descends {source target : Nat} (kept : graph.Kept entry source target) :
      order.idxOf target < order.idxOf source := by
    obtain ⟨reached, edge, open_⟩ := kept
    obtain ⟨before, after, split⟩ := List.append_of_mem ((member source).mpr reached)
    have front : target ∈ before :=
      (earlier before source after split target edge).resolve_right open_
    have apart : source ∉ before := by
      intro again
      rw [split] at distinct
      exact (List.nodup_append.mp distinct).2.2 source again source List.mem_cons_self rfl
    rw [split, List.idxOf_append_of_mem front, List.idxOf_append_of_notMem apart]
    have bound := List.idxOf_lt_length_of_mem front
    omega
  have descendsAll {source target : Nat} (path : Relation.TransGen (graph.Kept entry) source target) :
      order.idxOf target < order.idxOf source := by
    induction path with
    | single kept => exact descends kept
    | tail path kept ih => exact lt_trans (descends kept) ih
  intro cyclic
  exact lt_irrefl _ (descendsAll cyclic)

theorem transGen_of_closed {kept : Nat → Nat → Prop} {walk : List Nat} (long : 2 ≤ walk.length)
    (closed : walk.head? = walk.getLast?) (linked : walk.IsChain kept) :
    ∃ node, Relation.TransGen kept node node := by
  match walk, long with
  | first :: second :: rest, _ =>
    obtain ⟨edge, tail⟩ := List.isChain_cons_cons.mp linked
    have back : (second :: rest).getLast (List.cons_ne_nil _ _) = first := by
      rw [List.head?_cons, List.getLast?_cons_cons, List.getLast?_eq_some_getLast (by simp)] at closed
      exact (Option.some.inj closed).symm
    exact ⟨first, .head' edge (List.relationReflTransGen_of_exists_isChain_cons rest tail back)⟩

/-- Every closed walk among the nodes that the entry reaches uses the last edge of a reported cycle;
so nothing leads back to where it starts when these edges are taken away, and no cycle is reported
exactly if there is no closed walk. -/
theorem cycles_complete (graph : ImportGraph) (entry : Nat) (inside : entry < graph.size) :
    (∀ walk, graph.ClosedWalk walk → (∀ node ∈ walk, graph.Reaches entry node) →
      ∃ cycle ∈ graph.cycles entry, ∃ source target,
        [source, target] <:+ cycle ∧ [source, target] <:+: walk) ∧
    (∀ node, ¬ Relation.TransGen (graph.Kept entry) node node) ∧
    (graph.cycles entry = [] ↔
      ¬ ∃ walk, graph.ClosedWalk walk ∧ ∀ node ∈ walk, graph.Reaches entry node) := by
  have uses (walk : List Nat) (closed : graph.ClosedWalk walk)
      (reached : ∀ node ∈ walk, graph.Reaches entry node) :
      ∃ cycle ∈ graph.cycles entry, ∃ source target,
        [source, target] <:+ cycle ∧ [source, target] <:+: walk := by
    by_contra unused
    have kept : walk.IsChain (graph.Kept entry) := by
      refine List.isChain_iff_forall_rel_of_append_cons_cons.mpr ?_
      intro source target before after split
      refine ⟨reached source (by simp [split]), ?_, ?_⟩
      · exact List.isChain_iff_forall_rel_of_append_cons_cons.mp closed.linked split
      · rintro ⟨cycle, reported, last⟩
        exact unused ⟨cycle, reported, source, target, last, before, after, by simp [split]⟩
    obtain ⟨node, cyclic⟩ := transGen_of_closed closed.long closed.closed kept
    exact kept_acyclic graph entry inside node cyclic
  refine ⟨uses, kept_acyclic graph entry inside, ?_⟩
  constructor
  · rintro none ⟨walk, closed, reached⟩
    obtain ⟨cycle, reported, _⟩ := uses walk closed reached
    simp [none] at reported
  · intro none
    refine List.eq_nil_iff_forall_not_mem.mpr ?_
    intro cycle reported
    obtain ⟨closed, _, reached⟩ := cycles_walks graph entry inside cycle reported
    exact none ⟨cycle, closed, reached⟩

theorem cycles_complete_shared : 0 < (ofLists [[1], [2, 3], [0], [1]]).size ∧
    ∃ cycle ∈ (ofLists [[1], [2, 3], [0], [1]]).cycles 0, ∃ source target,
      [source, target] <:+ cycle ∧ [source, target] <:+: [1, 3, 1] := by
  have first : (ofLists [[1], [2, 3], [0], [1]]).Edge 0 1 := by decide
  have there : (ofLists [[1], [2, 3], [0], [1]]).Edge 1 3 := by decide
  have back : (ofLists [[1], [2, 3], [0], [1]]).Edge 3 1 := by decide
  refine ⟨by decide, (cycles_complete _ 0 (by decide)).1 [1, 3, 1] ⟨by decide, by decide, ?_⟩ ?_⟩
  · exact .cons_cons there (.cons_cons back (.singleton 1))
  · have near := Reaches.step (.refl 0) first
    simpa using ⟨near, near.step there, near⟩

end CrateAtlas.ImportGraph
