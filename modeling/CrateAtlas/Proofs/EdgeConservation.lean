import CrateAtlas.Proofs.CycleCompleteness
import CrateAtlas.Proofs.Walk
import Mathlib.Algebra.BigOperators.Group.Finset.Basic
import Mathlib.Data.Finset.Range

/-!
The walk and the cycle search judge every edge alike. They go through the graph in step: the marks of
the one are the stack of the other, and an edge that the walk passes over is one that the search
reports. So the edges of the nodes that the entry reaches are shared out between fan-in and cycles.
-/

namespace CrateAtlas.ImportGraph

/-- A walk and a cycle search at the same point of the graph. -/
structure InStep (walk : Walk) (state : CycleSearch) : Prop where
  explored : walk.explored = state.visited
  pathSize : walk.onPath.size = state.visited.size
  onPath : ∀ node < state.visited.size, walk.onPath[node]? = some (decide (node ∈ state.stack))
  marked : ∀ node ∈ state.stack, state.visited[node]? = some true
  directSize : walk.direct.size = state.visited.size

namespace InStep

private theorem arrives_iff {walk : Walk} {state : CycleSearch} (step : InStep walk state) (target : Nat) :
    walk.arrives target = true ↔ target < state.visited.size ∧ target ∉ state.stack := by
  rw [Walk.arrives_iff]
  by_cases inside : target < state.visited.size
  · simp [step.onPath target inside, inside]
  · have beyond : walk.onPath[target]? = none := by
      simpa [step.pathSize] using inside
    simp [beyond, inside]

private theorem visited_of_explored {walk : Walk} {state : CycleSearch} {target : Nat} {mark : Bool}
    (step : InStep walk state) (inside : target < state.visited.size)
    (known : walk.isExplored target = mark) : state.visited[target]? = some mark := by
  rw [Walk.isExplored, step.explored] at known
  simpa [Array.getD_eq_getD_getElem?, inside] using known

private theorem start (size : Nat) : InStep (Walk.start size) (CycleSearch.start size) where
  explored := rfl
  pathSize := by simp [Walk.start, CycleSearch.start]
  onPath node inside := by
    simpa [Walk.start, CycleSearch.start, Array.getElem?_replicate] using inside
  marked := by simp [CycleSearch.start]
  directSize := by simp [Walk.start, CycleSearch.start]

private theorem noted {walk noted : Walk} {state : CycleSearch} (step : InStep walk state)
    (path : noted.onPath = walk.onPath) (explored : noted.explored = walk.explored)
    (direct : noted.direct.size = walk.direct.size) : InStep noted state where
  explored := explored.trans step.explored
  pathSize := path ▸ step.pathSize
  onPath := path ▸ step.onPath
  marked := step.marked
  directSize := direct.trans step.directSize

private theorem close {walk : Walk} {state : CycleSearch} (step : InStep walk state) (target : Nat) :
    InStep walk (state.close target) where
  explored := by simpa using step.explored
  pathSize := by simpa using step.pathSize
  onPath := by simpa using step.onPath
  marked := by simpa using step.marked
  directSize := by simpa using step.directSize

theorem enter {walk : Walk} {state : CycleSearch} {target : Nat} (step : InStep walk state)
    (inside : target < state.visited.size) :
    InStep ((walk.enter target).explore target) (state.enter target) where
  explored := by simp [Walk.enter, Walk.explore, CycleSearch.enter, step.explored]
  pathSize := by simpa [Walk.enter, Walk.explore] using step.pathSize
  onPath node bound := by
    simp only [CycleSearch.enter_visited_size] at bound
    simp only [Walk.enter, Walk.explore, CycleSearch.enter_stack, List.mem_append,
      List.mem_singleton]
    by_cases same : target = node
    · subst same
      simp [step.pathSize, bound]
    · simp [same, step.onPath node bound, Ne.symm same]
  marked := CycleSearch.marked_enter step.marked inside
  directSize := by simpa [Walk.enter, Walk.explore] using step.directSize

private theorem leave {walk : Walk} {state : CycleSearch} {target : Nat} {path : List Nat}
    (step : InStep walk state) (shape : state.stack = path ++ [target]) (apart : target ∉ path) :
    InStep (walk.leave target) state.leave where
  explored := step.explored
  pathSize := by simpa [Walk.leave] using step.pathSize
  onPath node bound := by
    rw [CycleSearch.leave_visited] at bound
    simp only [Walk.leave, CycleSearch.leave, shape, List.dropLast_concat]
    by_cases same : target = node
    · subst same
      simp [step.pathSize, bound, apart]
    · simp [same, step.onPath node bound, shape, Ne.symm same]
  marked node member := step.marked node (List.dropLast_subset _ member)
  directSize := step.directSize

end InStep

def endings (cycles : List (List Nat)) (node : Nat) : Nat :=
  cycles.countP fun cycle => cycle.getLast? == some node

def occurrences (graph : ImportGraph) (state : CycleSearch) (node : Nat) : Nat :=
  ∑ source ∈ Finset.range graph.size with state.visited[source]? = some true,
    (graph.imports source).count node

@[simp] theorem occurrences_leave (graph : ImportGraph) (state : CycleSearch) (node : Nat) :
    occurrences graph state.leave node = occurrences graph state node := rfl

@[simp] theorem occurrences_close (graph : ImportGraph) (state : CycleSearch) (target node : Nat) :
    occurrences graph (state.close target) node = occurrences graph state node := by
  simp [occurrences]

private theorem endings_close {state : CycleSearch} {target : Nat} (member : target ∈ state.stack)
    (node : Nat) : endings (state.close target).cycles node =
      endings state.cycles node + if target = node then 1 else 0 := by
  simp [endings, CycleSearch.close, member, List.countP_append, List.countP_singleton]

theorem occurrences_enter {graph : ImportGraph} {state : CycleSearch} {target : Nat}
    (size : state.visited.size = graph.size) (fresh : state.visited[target]? = some false)
    (node : Nat) : occurrences graph (state.enter target) node =
      occurrences graph state node + (graph.imports target).count node := by
  have inside := CycleSearch.lt_size_of_visited fresh
  have grown : (Finset.range graph.size).filter
        (fun source => (state.enter target).visited[source]? = some true) =
      insert target ((Finset.range graph.size).filter
        fun source => state.visited[source]? = some true) := by
    ext source
    simp only [Finset.mem_filter, Finset.mem_range, Finset.mem_insert, CycleSearch.enter_visited]
    by_cases same : target = source
    · subst same
      simp [inside, ← size]
    · simp [same, Ne.symm same]
  rw [occurrences, grown, Finset.sum_insert (by simp [fresh]), occurrences, Nat.add_comm]

/-- The edges followed on the way from one point to another are counted or reported, once each. -/
def Balanced (graph : ImportGraph) (targets : List Nat) (walk final : Walk)
    (state searched : CycleSearch) : Prop :=
  ∀ node < graph.size,
    final.direct.getD node 0 + endings searched.cycles node + occurrences graph state node =
      walk.direct.getD node 0 + endings state.cycles node + targets.count node +
        occurrences graph searched node

namespace Balanced

variable {graph : ImportGraph} {target : Nat} {targets : List Nat} {walk final : Walk}
  {state searched : CycleSearch}

private theorem close (rest : Balanced graph targets walk final (state.close target) searched)
    (member : target ∈ state.stack) : Balanced graph (target :: targets) walk final state searched := by
  intro node inside
  have shared := rest node inside
  rw [endings_close member, occurrences_close] at shared
  simp only [List.count_cons, beq_iff_eq]
  omega

private theorem outside (rest : Balanced graph targets walk final state searched)
    (beyond : ¬ target < graph.size) : Balanced graph (target :: targets) walk final state searched := by
  intro node inside
  have apart : target ≠ node := fun same => beyond (same ▸ inside)
  simpa [List.count_cons, apart] using rest node inside

/-- An arrival is counted, whatever else the walk does at a node that it knows. -/
private theorem arrive {noted : Walk} (rest : Balanced graph targets noted final state searched)
    (counts : noted.direct = (walk.count target).direct) (inside : target < walk.direct.size) :
    Balanced graph (target :: targets) walk final state searched := by
  intro node bound
  have shared := rest node bound
  have counted := count_direct walk inside node
  rw [counts] at shared
  simp only [List.count_cons, beq_iff_eq]
  omega

private theorem enter {depth : Nat} {middle : Walk} {between : CycleSearch}
    (inner : Balanced graph (graph.imports target)
      ((((walk.count target).setDepth target depth).enter target).explore target) middle
      (state.enter target) between)
    (rest : Balanced graph targets (middle.leave target) final between.leave searched)
    (size : state.visited.size = graph.size) (fresh : state.visited[target]? = some false)
    (inside : target < walk.direct.size) :
    Balanced graph (target :: targets) walk final state searched := by
  intro node bound
  have first := inner node bound
  have second := rest node bound
  have counted := count_direct walk inside node
  rw [occurrences_enter size fresh] at first
  simp only [occurrences_leave, CycleSearch.leave_cycles, CycleSearch.enter_cycles, Walk.leave,
    Walk.enter, Walk.explore, Walk.setDepth, List.count_cons, beq_iff_eq] at first second ⊢
  omega

end Balanced

/-- The search follows wherever the walk goes. -/
theorem walks_follows {graph : ImportGraph} {depth : Nat} {targets : List Nat} {walk final : Walk}
    {state : CycleSearch} (walked : Walks graph depth targets walk final)
    (step : InStep walk state) (size : state.visited.size = graph.size) :
    ∃ searched, Follows graph targets state searched ∧ InStep final searched ∧
      Balanced graph targets walk final state searched := by
  induction walked generalizing state with
  | nil depth walk => exact ⟨state, .nil state, step, fun node inside => by simp⟩
  | @pass depth target targets walk final stays rest ih =>
    have passed : ¬ (target < state.visited.size ∧ target ∉ state.stack) := by
      rw [← step.arrives_iff target, stays]
      simp
    by_cases member : target ∈ state.stack
    · obtain ⟨searched, followed, together, balance⟩ := ih (step.close target) (by simpa using size)
      exact ⟨searched, .close (step.marked target member) followed, together, balance.close member⟩
    · have beyond : ¬ target < state.visited.size := fun inside => passed ⟨inside, member⟩
      obtain ⟨searched, followed, together, balance⟩ := ih step size
      exact ⟨searched, .outside (by simpa using beyond) followed, together,
        balance.outside (size ▸ beyond)⟩
  | @explore depth target targets walk middle final arrives fresh inner rest ihInner ihRest =>
    obtain ⟨inside, apart⟩ := (step.arrives_iff target).mp arrives
    have unvisited := step.visited_of_explored inside fresh
    have noted : InStep ((walk.count target).setDepth target (depth + 1)) state :=
      step.noted rfl rfl (by simp [Walk.count, Walk.setDepth])
    obtain ⟨between, followed, together, balance⟩ := ihInner (noted.enter inside) (by simpa using size)
    have shape : between.stack = state.stack ++ [target] := follows_stack followed
    have sameSize : between.leave.visited.size = graph.size := by
      simpa [follows_visited_size followed] using size
    obtain ⟨searched, followedRest, togetherRest, balanceRest⟩ :=
      ihRest (together.leave shape apart) sameSize
    exact ⟨searched, .enter unvisited followed followedRest, togetherRest,
      balance.enter balanceRest size unvisited (step.directSize ▸ inside)⟩
  | @deepen depth target targets walk middle final arrives known deeper inner rest ih =>
    obtain ⟨inside, apart⟩ := (step.arrives_iff target).mp arrives
    obtain ⟨path, explored, direct⟩ := deepens_frame inner
    have kept : middle.onPath = (walk.enter target).onPath := path
    have noted : InStep (middle.leave target) state :=
      step.noted (Walk.leave_enter_onPath arrives kept) explored
        (by simp [Walk.leave, direct, Walk.enter, Walk.setDepth, Walk.count])
    have visited := step.visited_of_explored inside known
    have same : state.close target = state := by simp [CycleSearch.close, apart]
    obtain ⟨searched, followed, together, balance⟩ := ih noted size
    exact ⟨searched, .close visited (by rwa [same]), together,
      balance.arrive direct (step.directSize ▸ inside)⟩
  | @meet depth target targets walk final arrives known shallow rest ih =>
    obtain ⟨inside, apart⟩ := (step.arrives_iff target).mp arrives
    have noted : InStep (walk.count target) state := step.noted rfl rfl (by simp [Walk.count])
    have visited := step.visited_of_explored inside known
    have same : state.close target = state := by simp [CycleSearch.close, apart]
    obtain ⟨searched, followed, together, balance⟩ := ih noted size
    exact ⟨searched, .close visited (by rwa [same]), together,
      balance.arrive rfl (step.directSize ▸ inside)⟩

def reports (cycles : List (List Nat)) (source target : Nat) : Nat :=
  cycles.countP fun cycle => [source, target] <:+ cycle

private theorem reports_close {state : CycleSearch} {node target : Nat}
    (current : state.stack.getLast? = some node) (member : target ∈ state.stack)
    (source final : Nat) : reports (state.close target).cycles source final =
      reports state.cycles source final + if node = source ∧ target = final then 1 else 0 := by
  have last := cut_suffix current member
  have ends : [source, final] <:+ state.stack.dropWhile (· != target) ++ [target] ↔
      node = source ∧ target = final := by
    constructor
    · intro other
      have same := (List.suffix_of_suffix_length_le other last (by simp)).eq_of_length (by simp)
      simp only [List.cons.injEq, and_true] at same
      exact ⟨same.1.symm, same.2.symm⟩
    · rintro ⟨rfl, rfl⟩
      exact last
  simp [reports, CycleSearch.close, member, List.countP_append, List.countP_singleton, ends]

/-- What the cycles reported while edges of a node are followed say of an edge. Those of the node that
lead into the path are reported, each as often as it occurs. No edge of another node of the path is
reported meanwhile; of a node entered meanwhile, all occurrences of an edge are reported or none. -/
structure Reported (graph : ImportGraph) (node : Nat) (targets : List Nat) (state final : CycleSearch)
    (source target : Nat) : Prop where
  own : source = node → reports final.cycles source target = reports state.cycles source target +
    if target ∈ state.stack then targets.count target else 0
  others : source ≠ node → state.visited[source]? = some true →
    reports final.cycles source target = reports state.cycles source target
  fresh : state.visited[source]? = some false →
    reports final.cycles source target = reports state.cycles source target ∨
    final.visited[source]? = some true ∧ reports final.cycles source target =
      reports state.cycles source target + (graph.imports source).count target

namespace Reported

variable {graph : ImportGraph} {node next source target : Nat} {targets : List Nat}
  {state middle final : CycleSearch}

/-- An edge that does not lead into the path is not reported. -/
theorem cons (reported : Reported graph node targets state final source target)
    (apart : next ∉ state.stack) : Reported graph node (next :: targets) state final source target where
  own same := by
    rw [reported.own same]
    by_cases member : target ∈ state.stack
    · have different : next ≠ target := fun equal => apart (equal ▸ member)
      simp [member, different]
    · simp [member]
  others := reported.others
  fresh := reported.fresh

private theorem close_cons (reported : Reported graph node targets (state.close next) final source target)
    (current : state.stack.getLast? = some node)
    (marked : ∀ other ∈ state.stack, state.visited[other]? = some true) (member : next ∈ state.stack) :
    Reported graph node (next :: targets) state final source target := by
  have closed := reports_close current member source target
  constructor
  case own =>
    rintro rfl
    rw [reported.own rfl, closed, CycleSearch.close_stack]
    by_cases same : next = target
    · subst same
      simp [member]
      omega
    · simp [same]
  case others =>
    intro apart visited
    rw [reported.others apart (by simpa using visited), closed]
    simp [Ne.symm apart]
  case fresh =>
    intro unvisited
    have apart : node ≠ source := by
      rintro rfl
      simp [marked node (List.mem_of_getLast? current)] at unvisited
    simpa [closed, apart] using reported.fresh (by simpa using unvisited)

/-- What is reported of a node that has not been entered: all occurrences of an edge or none, by the
search below the next node or by the one after it. -/
theorem fresh_enter (inner : Follows graph (graph.imports next) (state.enter next) middle)
    (rest : Follows graph targets middle.leave final)
    (below : Reported graph next (graph.imports next) (state.enter next) middle source target)
    (after : Reported graph node targets middle.leave final source target) (apart : source ≠ node)
    (unvisited : state.visited[source]? = some false) :
    reports final.cycles source target = reports state.cycles source target ∨
    final.visited[source]? = some true ∧ reports final.cycles source target =
      reports state.cycles source target + (graph.imports source).count target := by
  have settled (visited : middle.visited[source]? = some true) :
      final.visited[source]? = some true ∧
        reports final.cycles source target = reports middle.cycles source target :=
    ⟨follows_visited rest source visited, after.others apart visited⟩
  by_cases same : source = next
  · subst same
    have entered : (state.enter source).visited[source]? = some true := by
      rw [CycleSearch.enter_visited, if_pos ⟨rfl, CycleSearch.lt_size_of_visited unvisited⟩]
    obtain ⟨visited, kept⟩ := settled (follows_visited inner source entered)
    rw [kept, below.own rfl]
    split
    · exact .inr ⟨visited, rfl⟩
    · exact .inl rfl
  · have still : (state.enter next).visited[source]? = some false := by
      simpa [CycleSearch.enter_visited, Ne.symm same] using unvisited
    rcases below.fresh still with equal | ⟨visited, more⟩
    · have bound : source < middle.visited.size := by
        rw [follows_visited_size inner]
        exact CycleSearch.lt_size_of_visited still
      cases mark : middle.visited[source] with
      | false => simpa [equal] using after.fresh (Array.getElem?_eq_some_iff.mpr ⟨bound, mark⟩)
      | true =>
        have kept := (settled (Array.getElem?_eq_some_iff.mpr ⟨bound, mark⟩)).2
        exact .inl (kept.trans equal)
    · obtain ⟨entered, kept⟩ := settled visited
      exact .inr ⟨entered, kept.trans more⟩

private theorem enter_cons (inner : Follows graph (graph.imports next) (state.enter next) middle)
    (rest : Follows graph targets middle.leave final)
    (below : Reported graph next (graph.imports next) (state.enter next) middle source target)
    (after : Reported graph node targets middle.leave final source target)
    (visitedNode : state.visited[node]? = some true)
    (unmet : state.visited[next]? = some false) (apart : next ∉ state.stack) :
    Reported graph node (next :: targets) state final source target := by
  have restored : middle.leave.stack = state.stack := by
    simp [CycleSearch.leave, follows_stack inner]
  -- the search below the next node reports no edge of a node that was visited before
  have unchanged (visited : state.visited[source]? = some true) :
      reports middle.cycles source target = reports state.cycles source target := by
    refine below.others ?_ (CycleSearch.visited_enter next visited)
    rintro rfl
    simp [visited] at unmet
  suffices entered : Reported graph node targets state final source target from entered.cons apart
  constructor
  case own =>
    rintro rfl
    rw [after.own rfl, CycleSearch.leave_cycles, unchanged visitedNode, restored]
  case others =>
    intro different visited
    have kept : middle.visited[source]? = some true :=
      follows_visited inner source (CycleSearch.visited_enter next visited)
    rw [after.others different kept, CycleSearch.leave_cycles, unchanged visited]
  case fresh =>
    intro unvisited
    refine fresh_enter inner rest below after ?_ unvisited
    rintro rfl
    simp [visitedNode] at unvisited

end Reported

private theorem follows_reported {graph : ImportGraph} {node : Nat} {targets : List Nat}
    {state final : CycleSearch} (followed : Follows graph targets state final)
    (current : state.stack.getLast? = some node)
    (marked : ∀ other ∈ state.stack, state.visited[other]? = some true) (source target : Nat) :
    Reported graph node targets state final source target := by
  induction followed generalizing node with
  | nil state => exact ⟨by simp, by simp, by simp⟩
  | @outside next targets state final absent rest ih =>
    refine (ih current marked).cons fun member => ?_
    simp [marked next member] at absent
  | @enter next targets state middle final unmet inner rest ihInner ihRest =>
    have restored : middle.leave.stack = state.stack := by
      simp [CycleSearch.leave, follows_stack inner]
    have markedEnter := CycleSearch.marked_enter marked (CycleSearch.lt_size_of_visited unmet)
    have markedLeave (other : Nat) (member : other ∈ middle.leave.stack) :
        middle.leave.visited[other]? = some true :=
      follows_visited inner other (CycleSearch.visited_enter next (marked other (restored ▸ member)))
    refine .enter_cons inner rest (ihInner (by simp) markedEnter)
      (ihRest (restored ▸ current) markedLeave) (marked node (List.mem_of_getLast? current)) unmet ?_
    intro member
    simp [marked next member] at unmet
  | @close next targets state final met rest ih =>
    have reported := ih (by simpa using current) (by simpa using marked)
    by_cases member : next ∈ state.stack
    · exact reported.close_cons current marked member
    · rw [show state.close next = state by simp [CycleSearch.close, member]] at reported
      exact reported.cons member

open Classical in
noncomputable def reachable (graph : ImportGraph) (entry : Nat) : Finset Nat :=
  {node ∈ Finset.range graph.size | graph.Reaches entry node}

theorem mem_reachable {graph : ImportGraph} {entry node : Nat} :
    node ∈ graph.reachable entry ↔ node < graph.size ∧ graph.Reaches entry node := by
  simp [reachable]

private theorem occurrences_reachable {graph : ImportGraph} {entry : Nat} {final : CycleSearch}
    (inside : entry < graph.size)
    (followed : Follows graph (graph.imports entry) ((CycleSearch.start graph.size).enter entry) final)
    (node : Nat) : occurrences graph final node =
      ∑ source ∈ graph.reachable entry, (graph.imports source).count node := by
  apply Finset.sum_congr _ (fun source _ => rfl)
  ext source
  rw [mem_reachable, Finset.mem_filter, Finset.mem_range, follows_visited_iff inside followed source]

theorem direct_balance (graph : ImportGraph) (entry node : Nat) (inside : entry < graph.size)
    (bound : node < graph.size) :
    ∃ fanIn, (graph.metrics entry).direct[node]? = some fanIn ∧
      fanIn + endings (graph.cycles entry) node =
        ∑ source ∈ graph.reachable entry, (graph.imports source).count node := by
  obtain ⟨final, walked, walkComputed⟩ := walkFrom_walks graph entry inside
  obtain ⟨searched, followed, computed⟩ := cycles_follows graph entry inside
  have size : (CycleSearch.start graph.size).visited.size = graph.size := by
    simp [CycleSearch.start]
  have fresh : (CycleSearch.start graph.size).visited[entry]? = some false := by
    simp [CycleSearch.start, inside]
  obtain ⟨other, followedOther, together, balance⟩ := walks_follows walked
    ((InStep.start graph.size).enter (CycleSearch.lt_size_of_visited fresh)) (by simpa using size)
  obtain rfl := follows_unique followed followedOther
  have directSize : final.direct.size = graph.size := by
    rw [together.directSize, follows_visited_size followed]
    simpa using size
  have shared := balance node bound
  have unentered : occurrences graph (CycleSearch.start graph.size) node = 0 := by
    simp [occurrences, CycleSearch.start, Array.getElem?_replicate]
  have uncounted : (Walk.start graph.size).direct.getD node 0 = 0 := by
    simp [Walk.start, bound]
  have unreported : endings (CycleSearch.start graph.size).cycles node = 0 := rfl
  rw [occurrences_enter size fresh, unentered, occurrences_reachable inside followed] at shared
  simp only [Walk.enter, Walk.explore, uncounted, CycleSearch.enter_cycles, unreported] at shared
  refine ⟨final.direct.getD node 0, ?_, ?_⟩
  · simp [metrics, walkComputed, Walk.leave, directSize, bound]
  · rw [computed]
    omega

theorem reports_all_or_none (graph : ImportGraph) (entry source target : Nat)
    (inside : entry < graph.size) (bound : source < graph.size) :
    reports (graph.cycles entry) source target = 0 ∨
      reports (graph.cycles entry) source target = (graph.imports source).count target := by
  obtain ⟨searched, followed, computed⟩ := cycles_follows graph entry inside
  have marked := (tracked_start inside).marked
  have unreported : reports ((CycleSearch.start graph.size).enter entry).cycles source target = 0 :=
    rfl
  obtain ⟨own, _, fresh⟩ := follows_reported followed rfl marked source target
  rw [computed]
  by_cases same : source = entry
  · subst same
    rw [own rfl, unreported]
    split <;> simp
  · have unvisited : ((CycleSearch.start graph.size).enter entry).visited[source]? = some false := by
      rw [CycleSearch.enter_visited]
      simp [Ne.symm same, CycleSearch.start, bound]
    rw [unreported] at fresh
    rcases fresh unvisited with equal | ⟨_, equal⟩
    · exact .inl equal
    · exact .inr (by omega)

/-- Every occurrence of a node among the imports of the nodes that the entry reaches adds one to its
fan-in or is reported as one cycle that ends there, and never both: of an edge, all occurrences are
reported or none. -/
theorem edges_conserved (graph : ImportGraph) (entry node : Nat) (inside : entry < graph.size)
    (bound : node < graph.size) :
    (∃ fanIn, (graph.metrics entry).direct[node]? = some fanIn ∧
      fanIn + endings (graph.cycles entry) node =
        ∑ source ∈ graph.reachable entry, (graph.imports source).count node) ∧
    ∀ source ∈ graph.reachable entry,
      reports (graph.cycles entry) source node = 0 ∨
        reports (graph.cycles entry) source node = (graph.imports source).count node := by
  refine ⟨direct_balance graph entry node inside bound, ?_⟩
  intro source member
  exact reports_all_or_none graph entry source node inside (mem_reachable.mp member).1

theorem edges_conserved_doubled : 0 < (ofLists [[1, 1, 7], [0, 2, 2], [1, 2]]).size ∧
    (ofLists [[1, 1, 7], [0, 2, 2], [1, 2]]).cycles 0 = [[0, 1, 0], [1, 2, 1], [2, 2]] ∧
    ∃ fanIn, ((ofLists [[1, 1, 7], [0, 2, 2], [1, 2]]).metrics 0).direct[1]? = some fanIn ∧
      fanIn + 1 = ∑ source ∈ (ofLists [[1, 1, 7], [0, 2, 2], [1, 2]]).reachable 0,
        ((ofLists [[1, 1, 7], [0, 2, 2], [1, 2]]).imports source).count 1 :=
  ⟨by decide, by decide, (edges_conserved _ 0 1 (by decide) (by decide)).1⟩

end CrateAtlas.ImportGraph
