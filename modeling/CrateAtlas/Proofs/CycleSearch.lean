import CrateAtlas.Graph.Cycles
import Mathlib.Data.List.Chain
import Mathlib.Data.List.Infix

/-!
The cycle search as a derivation. A search follows the edges of the node at the end of its path, one
after the other; an edge to a fresh node is followed by the whole search of that node. What holds of
the search is shown by induction over these derivations, where fuel plays no part.
-/

namespace CrateAtlas.ImportGraph

instance (graph : ImportGraph) (source target : Nat) : Decidable (graph.Edge source target) :=
  inferInstanceAs (Decidable (_ ∧ _))

/-- Following edges to some targets, in their order, takes a search from one state to another. -/
inductive Follows (graph : ImportGraph) : List Nat → CycleSearch → CycleSearch → Prop where
  | nil (state : CycleSearch) : Follows graph [] state state
  | outside {target : Nat} {targets : List Nat} {state final : CycleSearch}
      (absent : state.visited[target]? = none) (rest : Follows graph targets state final) :
      Follows graph (target :: targets) state final
  | enter {target : Nat} {targets : List Nat} {state middle final : CycleSearch}
      (fresh : state.visited[target]? = some false)
      (inner : Follows graph (graph.imports target) (state.enter target) middle)
      (rest : Follows graph targets middle.leave final) :
      Follows graph (target :: targets) state final
  | close {target : Nat} {targets : List Nat} {state final : CycleSearch}
      (met : state.visited[target]? = some true)
      (rest : Follows graph targets (state.close target) final) :
      Follows graph (target :: targets) state final

namespace CycleSearch

def unvisited (state : CycleSearch) : Nat :=
  state.visited.count false

@[simp] theorem close_visited (state : CycleSearch) (target : Nat) :
    (state.close target).visited = state.visited := by
  unfold close
  split <;> rfl

@[simp] theorem close_stack (state : CycleSearch) (target : Nat) :
    (state.close target).stack = state.stack := by
  unfold close
  split <;> rfl

theorem close_cycles (state : CycleSearch) (target : Nat) :
    state.cycles ⊆ (state.close target).cycles := by
  unfold close
  split
  · exact List.subset_append_left _ _
  · exact List.Subset.refl _

@[simp] theorem leave_visited (state : CycleSearch) : state.leave.visited = state.visited := rfl

@[simp] theorem leave_cycles (state : CycleSearch) : state.leave.cycles = state.cycles := rfl

@[simp] theorem enter_stack (state : CycleSearch) (node : Nat) :
    (state.enter node).stack = state.stack ++ [node] := rfl

@[simp] theorem enter_cycles (state : CycleSearch) (node : Nat) :
    (state.enter node).cycles = state.cycles := rfl

theorem enter_visited (state : CycleSearch) (node other : Nat) :
    (state.enter node).visited[other]? =
      if node = other ∧ other < state.visited.size then some true else state.visited[other]? := by
  simp only [enter, Array.getElem?_setIfInBounds]
  by_cases same : node = other
  · subst same
    by_cases inside : node < state.visited.size
    · simp [inside]
    · simp [inside]
  · simp [same]

@[simp] theorem enter_visited_size (state : CycleSearch) (node : Nat) :
    (state.enter node).visited.size = state.visited.size := by
  simp [enter]

theorem lt_size_of_visited {state : CycleSearch} {node : Nat} {mark : Bool}
    (known : state.visited[node]? = some mark) : node < state.visited.size := by
  obtain ⟨inside, _⟩ := Array.getElem?_eq_some_iff.mp known
  exact inside

theorem visited_enter {state : CycleSearch} {node : Nat} (target : Nat)
    (visited : state.visited[node]? = some true) :
    (state.enter target).visited[node]? = some true := by
  rw [enter_visited]
  split <;> simp [visited]

theorem marked_enter {state : CycleSearch} {target : Nat}
    (marked : ∀ node ∈ state.stack, state.visited[node]? = some true)
    (inside : target < state.visited.size) :
    ∀ node ∈ (state.enter target).stack, (state.enter target).visited[node]? = some true := by
  intro node member
  rcases List.mem_append.mp member with old | new
  · exact visited_enter target (marked node old)
  · rw [List.mem_singleton.mp new, enter_visited, if_pos ⟨rfl, inside⟩]

theorem unvisited_enter {state : CycleSearch} {node : Nat}
    (fresh : state.visited[node]? = some false) :
    (state.enter node).unvisited + 1 = state.unvisited := by
  obtain ⟨inside, unmarked⟩ := Array.getElem?_eq_some_iff.mp fresh
  have positive : 0 < state.visited.count false :=
    Array.count_pos_iff.mpr (unmarked ▸ Array.getElem_mem inside)
  simp only [unvisited, enter, Array.setIfInBounds, inside, dite_true]
  rw [Array.count_set inside, unmarked]
  simp
  omega

end CycleSearch

theorem follows_visited_size {graph : ImportGraph} {targets : List Nat} {state final : CycleSearch}
    (followed : Follows graph targets state final) : final.visited.size = state.visited.size := by
  induction followed with
  | nil state => rfl
  | outside absent rest ih => exact ih
  | enter fresh inner rest ihInner ihRest => simpa [ihInner] using ihRest
  | close met rest ih => simpa using ih

private theorem follows_unvisited {graph : ImportGraph} {targets : List Nat} {state final : CycleSearch}
    (followed : Follows graph targets state final) : final.unvisited ≤ state.unvisited := by
  induction followed with
  | nil state => exact le_rfl
  | outside absent rest ih => exact ih
  | enter fresh inner rest ihInner ihRest =>
    have entered := CycleSearch.unvisited_enter fresh
    simp only [CycleSearch.unvisited, CycleSearch.leave_visited] at *
    omega
  | close met rest ih => simpa [CycleSearch.unvisited] using ih

theorem follows_unique {graph : ImportGraph} {targets : List Nat} {state first second : CycleSearch}
    (followed : Follows graph targets state first) (again : Follows graph targets state second) :
    first = second := by
  induction followed generalizing second with
  | nil state =>
    cases again
    rfl
  | outside absent rest ih =>
    cases again with
    | outside _ restAgain => exact ih restAgain
    | enter fresh _ _ => simp [absent] at fresh
    | close met _ => simp [absent] at met
  | enter fresh inner rest ihInner ihRest =>
    cases again with
    | outside absent _ => simp [fresh] at absent
    | enter _ innerAgain restAgain => exact ihRest (ihInner innerAgain ▸ restAgain)
    | close met _ => simp [fresh] at met
  | close met rest ih =>
    cases again with
    | outside absent _ => simp [met] at absent
    | enter fresh _ _ => simp [met] at fresh
    | close _ restAgain => exact ih restAgain

/-- The edges are followed by any expansion of fresh nodes that follows their edges in turn. -/
theorem follows_foldl (graph : ImportGraph) (expand : Nat → CycleSearch → CycleSearch) (fuel : Nat)
    (expands : ∀ target state, state.unvisited ≤ fuel → state.visited[target]? = some false →
      ∃ middle, Follows graph (graph.imports target) (state.enter target) middle ∧
        expand target state = middle.leave)
    (targets : List Nat) (state : CycleSearch) (enough : state.unvisited ≤ fuel) :
    Follows graph targets state (targets.foldl
      (fun state target =>
        match state.visited[target]? with
        | none => state
        | some false => expand target state
        | some true => state.close target) state) := by
  induction targets generalizing state with
  | nil => exact .nil state
  | cons target targets ih =>
    simp only [List.foldl_cons]
    cases mark : state.visited[target]? with
    | none => exact .outside mark (ih state enough)
    | some visited =>
      cases visited with
      | false =>
        obtain ⟨middle, inner, expanded⟩ := expands target state enough mark
        have entered := CycleSearch.unvisited_enter mark
        have fewer := follows_unvisited inner
        refine .enter mark inner ?_
        simp only [expanded]
        exact ih middle.leave (by
          simp only [CycleSearch.unvisited, CycleSearch.leave_visited] at *
          omega)
      | true => exact .close mark (ih _ (by simpa [CycleSearch.unvisited] using enough))

/-- With fuel for every node that is still to be entered, the search of a node follows all of its
edges. -/
theorem search_follows (graph : ImportGraph) (fuel target : Nat) (state : CycleSearch)
    (enough : state.unvisited ≤ fuel) (fresh : state.visited[target]? = some false) :
    ∃ middle, Follows graph (graph.imports target) (state.enter target) middle ∧
      graph.search fuel target state = middle.leave := by
  have entered := CycleSearch.unvisited_enter fresh
  induction fuel generalizing target state with
  | zero => omega
  | succ fuel ih =>
    refine ⟨_, follows_foldl graph (graph.search fuel) fuel ?_ (graph.imports target)
      (state.enter target) (by omega), rfl⟩
    intro next before enough fresh
    exact ih next before enough fresh (CycleSearch.unvisited_enter fresh)

theorem cycles_follows (graph : ImportGraph) (entry : Nat) (inside : entry < graph.size) :
    ∃ final, Follows graph (graph.imports entry) ((CycleSearch.start graph.size).enter entry) final ∧
      graph.cycles entry = final.cycles := by
  have enough : (CycleSearch.start graph.size).unvisited ≤ graph.size := by
    simp [CycleSearch.unvisited, CycleSearch.start]
  have fresh : (CycleSearch.start graph.size).visited[entry]? = some false := by
    simp [CycleSearch.start, inside]
  obtain ⟨final, followed, computed⟩ := search_follows graph graph.size entry _ enough fresh
  refine ⟨final, followed, ?_⟩
  simp [cycles, inside, computed]

theorem follows_stack {graph : ImportGraph} {targets : List Nat} {state final : CycleSearch}
    (followed : Follows graph targets state final) : final.stack = state.stack := by
  induction followed with
  | nil state => rfl
  | outside absent rest ih => exact ih
  | enter fresh inner rest ihInner ihRest => simpa [CycleSearch.leave, ihInner] using ihRest
  | close met rest ih => simpa using ih

theorem follows_visited {graph : ImportGraph} {targets : List Nat} {state final : CycleSearch}
    (followed : Follows graph targets state final) (node : Nat)
    (visited : state.visited[node]? = some true) : final.visited[node]? = some true := by
  induction followed with
  | nil state => exact visited
  | outside absent rest ih => exact ih visited
  | enter fresh inner rest ihInner ihRest =>
    exact ihRest (ihInner (CycleSearch.visited_enter _ visited))
  | close met rest ih => exact ih (by simpa using visited)

theorem follows_cycles {graph : ImportGraph} {targets : List Nat} {state final : CycleSearch}
    (followed : Follows graph targets state final) : state.cycles ⊆ final.cycles := by
  induction followed with
  | nil state => exact List.Subset.refl _
  | outside absent rest ih => exact ih
  | enter fresh inner rest ihInner ihRest => exact List.Subset.trans ihInner ihRest
  | close met rest ih => exact List.Subset.trans (CycleSearch.close_cycles _ _) ih

structure ClosedWalk (graph : ImportGraph) (walk : List Nat) : Prop where
  long : 2 ≤ walk.length
  closed : walk.head? = walk.getLast?
  linked : walk.IsChain graph.Edge

theorem cut_shape {path : List Nat} {node target : Nat} (current : path.getLast? = some node)
    (member : target ∈ path) :
    ∃ before after, path = before ++ target :: after ∧
      path.dropWhile (· != target) = target :: after ∧ (target :: after).getLast? = some node := by
  obtain ⟨before, after, rfl, absent⟩ := List.eq_append_cons_of_mem member
  refine ⟨before, after, rfl, ?_, ?_⟩
  · rw [List.dropWhile_append_of_pos]
    · simp
    · intro other present
      simpa using fun same : other = target => absent (same ▸ present)
  · rw [← current, List.getLast?_append_of_ne_nil _ (by simp)]

theorem cut_suffix {path : List Nat} {node target : Nat} (current : path.getLast? = some node)
    (member : target ∈ path) : [node, target] <:+ path.dropWhile (· != target) ++ [target] := by
  obtain ⟨before, after, _, cut, last⟩ := cut_shape current member
  obtain ⟨initial, shape⟩ := List.getLast?_eq_some_iff.mp last
  exact ⟨initial, by rw [cut, shape]; simp⟩

/-- An edge back into a path of the graph cuts a closed walk out of it. -/
theorem cut_closedWalk {graph : ImportGraph} {path : List Nat} {node target : Nat}
    (linked : path.IsChain graph.Edge) (distinct : path.Nodup) (current : path.getLast? = some node)
    (edge : graph.Edge node target) (member : target ∈ path) :
    graph.ClosedWalk (path.dropWhile (· != target) ++ [target]) ∧
      (path.dropWhile (· != target)).Nodup ∧ path.dropWhile (· != target) ⊆ path := by
  obtain ⟨before, after, rfl, cut, last⟩ := cut_shape current member
  rw [cut]
  refine ⟨⟨by simp, by rw [List.getLast?_concat]; rfl, ?_⟩, ?_, List.subset_append_right _ _⟩
  · refine List.IsChain.append linked.right_of_append (by simp) ?_
    intro source found other final
    simp only [List.head?_cons, Option.mem_some_iff] at final
    rw [last, Option.mem_some_iff] at found
    exact found ▸ final ▸ edge
  · exact (List.nodup_append.mp distinct).2.1

/-- A search that has been tracked from an entry: its path is a path of the graph, it has entered only
what the entry reaches, and it has reported only closed walks there. -/
structure Tracked (graph : ImportGraph) (entry : Nat) (state : CycleSearch) : Prop where
  size : state.visited.size = graph.size
  reached : ∀ node, state.visited[node]? = some true → graph.Reaches entry node
  marked : ∀ node ∈ state.stack, state.visited[node]? = some true
  distinct : state.stack.Nodup
  linked : state.stack.IsChain graph.Edge
  walks : ∀ cycle ∈ state.cycles, graph.ClosedWalk cycle ∧ cycle.dropLast.Nodup ∧
    ∀ node ∈ cycle, state.visited[node]? = some true

theorem tracked_start {graph : ImportGraph} {entry : Nat} (inside : entry < graph.size) :
    Tracked graph entry ((CycleSearch.start graph.size).enter entry) where
  size := by simp [CycleSearch.start]
  reached := by
    intro node visited
    rw [CycleSearch.enter_visited] at visited
    split at visited
    next same => exact same.1 ▸ .refl entry
    next other => simp [CycleSearch.start, Array.getElem?_replicate] at visited
  marked := CycleSearch.marked_enter (by simp [CycleSearch.start]) (by simpa [CycleSearch.start])
  distinct := by simp [CycleSearch.start]
  linked := by simp [CycleSearch.start]
  walks := by simp [CycleSearch.start]

private theorem Tracked.enter {graph : ImportGraph} {entry node target : Nat} {state : CycleSearch}
    (tracked : Tracked graph entry state) (current : state.stack.getLast? = some node)
    (imported : target ∈ graph.imports node) (fresh : state.visited[target]? = some false) :
    Tracked graph entry (state.enter target) := by
  have inside := CycleSearch.lt_size_of_visited fresh
  have edge : graph.Edge node target := ⟨imported, tracked.size ▸ inside⟩
  have member : node ∈ state.stack := List.mem_of_getLast? current
  refine ⟨by simpa using tracked.size, ?_, CycleSearch.marked_enter tracked.marked inside, ?_, ?_, ?_⟩
  · intro other visited
    rw [CycleSearch.enter_visited] at visited
    split at visited
    next same => exact same.1 ▸ .step (tracked.reached node (tracked.marked node member)) edge
    next different => exact tracked.reached other visited
  · refine List.nodup_append.mpr ⟨tracked.distinct, by simp, ?_⟩
    intro other old last new same
    rw [← List.mem_singleton.mp new, ← same, tracked.marked other old] at fresh
    cases fresh
  · refine tracked.linked.append (by simp) ?_
    intro source found last final
    simp only [List.head?_cons, Option.mem_some_iff] at final
    rw [current, Option.mem_some_iff] at found
    exact found ▸ final ▸ edge
  · intro cycle reported
    obtain ⟨closed, distinct, visited⟩ := tracked.walks cycle reported
    exact ⟨closed, distinct, fun other present =>
      CycleSearch.visited_enter target (visited other present)⟩

private theorem Tracked.leave {graph : ImportGraph} {entry : Nat} {state : CycleSearch}
    (tracked : Tracked graph entry state) : Tracked graph entry state.leave where
  size := tracked.size
  reached := tracked.reached
  marked node member := tracked.marked node (List.dropLast_subset _ member)
  distinct := tracked.distinct.sublist (List.dropLast_sublist _)
  linked := tracked.linked.dropLast
  walks := tracked.walks

private theorem Tracked.close {graph : ImportGraph} {entry node target : Nat} {state : CycleSearch}
    (tracked : Tracked graph entry state) (current : state.stack.getLast? = some node)
    (imported : target ∈ graph.imports node) (met : state.visited[target]? = some true) :
    Tracked graph entry (state.close target) := by
  refine ⟨by simpa using tracked.size, by simpa using tracked.reached, by simpa using tracked.marked,
    by simpa using tracked.distinct, by simpa using tracked.linked, ?_⟩
  have edge : graph.Edge node target :=
    ⟨imported, tracked.size ▸ CycleSearch.lt_size_of_visited met⟩
  intro cycle reported
  rw [CycleSearch.close_visited]
  unfold CycleSearch.close at reported
  split at reported
  next member =>
    rcases List.mem_append.mp reported with old | new
    · exact tracked.walks cycle old
    · obtain ⟨closed, distinct, inner⟩ :=
        cut_closedWalk tracked.linked tracked.distinct current edge member
      rw [List.mem_singleton.mp new]
      refine ⟨closed, by rwa [List.dropLast_concat], ?_⟩
      intro other present
      rcases List.mem_append.mp present with left | last
      · exact tracked.marked other (inner left)
      · exact List.mem_singleton.mp last ▸ met
  next absent => exact tracked.walks cycle reported

theorem follows_tracked {graph : ImportGraph} {entry node : Nat} {targets : List Nat}
    {state final : CycleSearch} (followed : Follows graph targets state final)
    (current : state.stack.getLast? = some node) (imported : targets ⊆ graph.imports node)
    (tracked : Tracked graph entry state) : Tracked graph entry final := by
  induction followed generalizing node with
  | nil state => exact tracked
  | outside absent rest ih => exact ih current (List.subset_of_cons_subset imported) tracked
  | @enter target targets state middle final fresh inner rest ihInner ihRest =>
    have entered := tracked.enter current (imported List.mem_cons_self) fresh
    have searched := ihInner (by simp) (List.Subset.refl _) entered
    have restored : middle.leave.stack = state.stack := by
      simp [CycleSearch.leave, follows_stack inner]
    exact ihRest (restored ▸ current) (List.subset_of_cons_subset imported) searched.leave
  | close met rest ih =>
    exact ih (by simpa using current) (List.subset_of_cons_subset imported)
      (tracked.close current (imported List.mem_cons_self) met)

/-- What is reported is a closed walk without repetitions, among the nodes that the entry reaches. -/
theorem cycles_walks (graph : ImportGraph) (entry : Nat) (inside : entry < graph.size) :
    ∀ cycle ∈ graph.cycles entry, graph.ClosedWalk cycle ∧ cycle.dropLast.Nodup ∧
      ∀ node ∈ cycle, graph.Reaches entry node := by
  obtain ⟨final, followed, computed⟩ := cycles_follows graph entry inside
  have tracked := follows_tracked followed rfl (List.Subset.refl _) (tracked_start inside)
  intro cycle reported
  obtain ⟨closed, distinct, visited⟩ := tracked.walks cycle (computed ▸ reported)
  exact ⟨closed, distinct, fun node member => tracked.reached node (visited node member)⟩

private theorem ClosedWalk.getElem_edge {graph : ImportGraph} {walk : List Nat}
    (closed : graph.ClosedWalk walk) {position : Nat} (inside : position + 1 < walk.length) :
    ∃ source target, walk[position]? = some source ∧ walk[position + 1]? = some target ∧
      graph.Edge source target :=
  ⟨walk[position], walk[position + 1], by simp, by simp, closed.linked.getElem position inside⟩

/-- A reported cycle goes along at least one edge and ends where it starts. It meets no other node
twice, and only nodes that the entry reaches. -/
theorem cycles_sound (graph : ImportGraph) (entry : Nat) (cycle : List Nat)
    (reported : cycle ∈ graph.cycles entry) :
    ∃ edges, 1 ≤ edges ∧ cycle.length = edges + 1 ∧ cycle[0]? = cycle[edges]? ∧
      (cycle.take edges).Nodup ∧
      (∀ node ∈ cycle, node < graph.size ∧ graph.Reaches entry node) ∧
      ∀ position < edges, ∃ source target, cycle[position]? = some source ∧
        cycle[position + 1]? = some target ∧ target ∈ graph.imports source := by
  have inside : entry < graph.size := by
    by_contra outside
    simp [cycles, outside] at reported
  obtain ⟨closed, distinct, reached⟩ := cycles_walks graph entry inside cycle reported
  have long := closed.long
  have length : cycle.length = cycle.length - 1 + 1 := by omega
  refine ⟨cycle.length - 1, by omega, length, ?_, ?_, ?_, ?_⟩
  · rw [← List.head?_eq_getElem?, ← List.getLast?_eq_getElem?]
    exact closed.closed
  · rwa [← List.dropLast_eq_take]
  · exact fun node member => ⟨(reached node member).lt_size inside, reached node member⟩
  · intro position before
    obtain ⟨source, target, first, second, edge⟩ := closed.getElem_edge (by omega : position + 1 < _)
    exact ⟨source, target, first, second, edge.1⟩

theorem cycles_sound_knotted :
    [1, 2, 1] ∈ (ofLists [[1, 5], [2, 1, 1], [0, 1]]).cycles 0 ∧
    ∃ edges, 1 ≤ edges ∧ [1, 2, 1].length = edges + 1 ∧
      ([1, 2, 1].take edges).Nodup ∧
      ∀ node ∈ [1, 2, 1], (ofLists [[1, 5], [2, 1, 1], [0, 1]]).Reaches 0 node := by
  have reported : [1, 2, 1] ∈ (ofLists [[1, 5], [2, 1, 1], [0, 1]]).cycles 0 := by decide
  obtain ⟨edges, positive, length, _, distinct, reached, _⟩ := cycles_sound _ 0 _ reported
  exact ⟨reported, edges, positive, length, distinct, fun node member => (reached node member).2⟩

end CrateAtlas.ImportGraph
