import CrateAtlas.Proofs.EdgeConservation
import CrateAtlas.Proofs.ImportDepth

/-!
Imports that are repeated. A walk and a search that meet a target again at the same node find nothing
more to do: it is on the path as before, or it has been explored and lies deep enough. So the graph in
which every import is kept once has the same depths. It reports each cycle once, because the last edge of
a cycle tells at which node, and along which path, it was found.
-/

namespace CrateAtlas.ImportGraph

def distinct (graph : ImportGraph) : ImportGraph :=
  ⟨graph.edges.map List.eraseDups⟩

@[simp] theorem size_distinct (graph : ImportGraph) : graph.distinct.size = graph.size := by
  simp [distinct, size]

theorem imports_distinct (graph : ImportGraph) (node : Nat) :
    graph.distinct.imports node = (graph.imports node).eraseDups := by
  simp only [distinct, imports, Array.getD_eq_getD_getElem?, Array.getElem?_map]
  cases graph.edges[node]? <;> simp

/-- The targets that are still to be followed, each once, behind those that have been seen. -/
def remaining (seen targets : List Nat) : List Nat :=
  (targets.filter (· ∉ seen)).eraseDups

theorem remaining_nil (targets : List Nat) : remaining [] targets = targets.eraseDups := by
  simp [remaining]

theorem remaining_of_mem {seen : List Nat} {target : Nat} (member : target ∈ seen)
    (targets : List Nat) : remaining seen (target :: targets) = remaining seen targets := by
  simp [remaining, member]

theorem remaining_of_notMem {seen : List Nat} {target : Nat} (new : target ∉ seen)
    (targets : List Nat) :
    remaining seen (target :: targets) = target :: remaining (target :: seen) targets := by
  have kept (other : Nat) : (!other == target && decide (other ∉ seen)) =
      decide (other ∉ target :: seen) := by
    by_cases same : other = target <;> simp [same]
  rw [remaining, List.filter_cons_of_pos (by simpa using new), List.eraseDups_cons, List.filter_filter]
  simp only [kept, remaining]

structure Walk.Alike (walk other : Walk) : Prop where
  onPath : other.onPath = walk.onPath
  explored : other.explored = walk.explored
  depth : other.depth = walk.depth

namespace Walk.Alike

variable {walk other : Walk}

theorem arrives_eq (alike : walk.Alike other) (target : Nat) :
    other.arrives target = walk.arrives target := by
  rw [Walk.arrives, Walk.arrives, alike.onPath]

private theorem isExplored_eq (alike : walk.Alike other) (target : Nat) :
    other.isExplored target = walk.isExplored target := by
  rw [Walk.isExplored, Walk.isExplored, alike.explored]

theorem depthOf_eq (alike : walk.Alike other) (target : Nat) :
    other.depthOf target = walk.depthOf target := by
  rw [Walk.depthOf, Walk.depthOf, alike.depth]

private theorem count (alike : walk.Alike other) (target : Nat) :
    (walk.count target).Alike (other.count target) :=
  ⟨alike.onPath, alike.explored, alike.depth⟩

private theorem countAgain (alike : walk.Alike other) (target : Nat) : (walk.count target).Alike other :=
  ⟨alike.onPath, alike.explored, alike.depth⟩

theorem push (alike : walk.Alike other) (target depth : Nat) :
    ((walk.setDepth target depth).enter target).Alike ((other.setDepth target depth).enter target) where
  onPath := congrArg (·.setIfInBounds target true) alike.onPath
  explored := alike.explored
  depth := congrArg (·.setIfInBounds target depth) alike.depth

private theorem explore (alike : walk.Alike other) (target : Nat) :
    (walk.explore target).Alike (other.explore target) :=
  { alike with explored := congrArg (·.setIfInBounds target true) alike.explored }

theorem leave (alike : walk.Alike other) (target : Nat) :
    (walk.leave target).Alike (other.leave target) :=
  { alike with onPath := congrArg (·.setIfInBounds target false) alike.onPath }

end Walk.Alike

/-- An edge to the target from a node at the depth changes nothing but the number of arrivals. -/
def Walk.Spent (walk : Walk) (depth target : Nat) : Prop :=
  walk.arrives target = true → walk.isExplored target = true ∧ depth + 1 ≤ walk.depthOf target

theorem Underway.spent {graph : ImportGraph} {entry depth target : Nat} {path seen : List Nat}
    {walk later : Walk} (underway : Underway graph entry path walk)
    (left : Underway graph entry path later) (grows : Walk.Grows path walk later)
    (done : later.Spent depth target) (spent : ∀ other ∈ seen, walk.Spent depth other) :
    ∀ other ∈ target :: seen, later.Spent depth other := by
  refine List.forall_mem_cons.mpr ⟨done, ?_⟩
  intro other member arrives
  have before : walk.arrives other = true :=
    (underway.arrives_iff other).mpr ((left.arrives_iff other).mp arrives)
  obtain ⟨explored, deep⟩ := spent other member before
  exact ⟨grows.explored other explored, Nat.le_trans deep (grows.depths other)⟩

section

variable {graph : ImportGraph} {entry node target depth : Nat} {path seen targets : List Nat}
  {walk middle final other finalOther : Walk}

theorem Underway.pushed (underway : Underway graph entry path walk)
    (trail : graph.Trail entry node depth path) (edge : graph.Edge node target) (apart : target ∉ path)
    (explored : walk.isExplored target = true) (deeper : walk.depthOf target < depth + 1)
    (inner : Deepens graph (depth + 1) (graph.imports target)
      ((walk.setDepth target (depth + 1)).enter target) middle) :
    Underway graph entry (path ++ [target]) ((walk.setDepth target (depth + 1)).enter target) ∧
      Underway graph entry path (middle.leave target) ∧ Walk.Grows path walk (middle.leave target) ∧
      (middle.leave target).Spent depth target := by
  have arrived := (underway.arrive trail edge apart (Nat.le_of_lt deeper)).1
  rw [← Walk.enter_eq_arrive explored] at arrived
  obtain ⟨left, grown, deep⟩ := underway.pushes trail edge apart explored deeper fun arrived known =>
    deepens_underway inner (trail.extend edge apart) (List.Subset.refl _) known arrived
  exact ⟨arrived, left, grown, fun _ => ⟨grown.explored target explored, deep.ge⟩⟩

private theorem deepens_alike (deepened : Deepens graph depth targets walk final)
    (again : Deepens graph.distinct depth (remaining seen targets) other finalOther)
    (alike : walk.Alike other) (spent : ∀ target ∈ seen, walk.Spent depth target)
    (trail : graph.Trail entry node depth path) (imported : targets ⊆ graph.imports node)
    (known : ∀ target ∈ targets, target < graph.size → walk.isExplored target = true)
    (underway : Underway graph entry path walk) : final.Alike finalOther := by
  induction deepened generalizing node path seen other finalOther with
  | nil depth walk =>
    cases again
    exact alike
  | @pass depth target targets walk final stays rest ih =>
    rw [List.forall_mem_cons] at known
    have later := List.subset_of_cons_subset imported
    by_cases member : target ∈ seen
    · rw [remaining_of_mem member] at again
      exact ih again alike spent trail later known.2 underway
    · rw [remaining_of_notMem member] at again
      have done : walk.Spent depth target := by
        intro arrives
        obtain ⟨inside, _⟩ := (underway.arrives_iff target).mp arrives
        exact ⟨known.1 inside, Nat.not_lt.mp fun lower => stays ⟨arrives, lower⟩⟩
      cases again with
      | pass _ restAgain =>
        exact ih restAgain alike (List.forall_mem_cons.mpr ⟨done, spent⟩) trail later known.2 underway
      | push arrives deeper _ _ =>
        rw [alike.arrives_eq] at arrives
        rw [alike.depthOf_eq] at deeper
        exact absurd ⟨arrives, deeper⟩ stays
  | @push depth target targets walk middle final arrives deeper inner rest ihInner ihRest =>
    obtain ⟨inside, apart⟩ := (underway.arrives_iff target).mp arrives
    have explored := known target List.mem_cons_self inside
    have edge : graph.Edge node target := ⟨imported List.mem_cons_self, inside⟩
    by_cases member : target ∈ seen
    · exact absurd deeper (Nat.not_lt.mpr (spent target member arrives).2)
    · rw [remaining_of_notMem member] at again
      cases again with
      | pass stays _ =>
        rw [alike.arrives_eq, alike.depthOf_eq] at stays
        exact absurd ⟨arrives, deeper⟩ stays
      | push _ _ innerAgain restAgain =>
        rw [imports_distinct, ← remaining_nil] at innerAgain
        obtain ⟨arrived, left, grown, done⟩ :=
          underway.pushed trail edge apart explored deeper inner
        have same := ihInner innerAgain (alike.push target (depth + 1)) (by simp)
          (trail.extend edge apart) (List.Subset.refl _)
          (fun next member bound => underway.closed target explored apart next ⟨member, bound⟩) arrived
        exact ihRest restAgain (same.leave target) (underway.spent left grown done spent) trail
          (List.subset_of_cons_subset imported)
          (fun next member bound =>
            grown.explored next (known next (List.mem_cons_of_mem target member) bound)) left

private theorem walks_alike (walked : Walks graph depth targets walk final)
    (again : Walks graph.distinct depth (remaining seen targets) other finalOther)
    (alike : walk.Alike other) (spent : ∀ target ∈ seen, walk.Spent depth target)
    (trail : graph.Trail entry node depth path) (imported : targets ⊆ graph.imports node)
    (underway : Underway graph entry path walk) : final.Alike finalOther := by
  -- By induction on the walk along all edges. A target that was seen is spent, and the other walk does not
  -- meet it again; at any other target both walks take the same branch, because they are alike.
  induction walked generalizing node path seen other finalOther with
  | nil depth walk =>
    cases again
    exact alike
  | @pass depth target targets walk final stays rest ih =>
    have later := List.subset_of_cons_subset imported
    by_cases member : target ∈ seen
    · rw [remaining_of_mem member] at again
      exact ih again alike spent trail later underway
    · rw [remaining_of_notMem member] at again
      have done : walk.Spent depth target := fun arrives => by simp [stays] at arrives
      cases again with
      | pass _ restAgain =>
        exact ih restAgain alike (List.forall_mem_cons.mpr ⟨done, spent⟩) trail later underway
      | explore arrives => simp [alike.arrives_eq, stays] at arrives
      | deepen arrives => simp [alike.arrives_eq, stays] at arrives
      | meet arrives => simp [alike.arrives_eq, stays] at arrives
  | @explore depth target targets walk middle final arrives fresh inner rest ihInner ihRest =>
    obtain ⟨inside, apart⟩ := (underway.arrives_iff target).mp arrives
    have edge : graph.Edge node target := ⟨imported List.mem_cons_self, inside⟩
    have below := trail.extend edge apart
    by_cases member : target ∈ seen
    · simp [(spent target member arrives).1] at fresh
    · rw [remaining_of_notMem member] at again
      cases again with
      | pass stays => simp [alike.arrives_eq, arrives] at stays
      | deepen _ known => simp [alike.isExplored_eq, fresh] at known
      | meet _ known => simp [alike.isExplored_eq, fresh] at known
      | explore _ _ innerAgain restAgain =>
        rw [imports_distinct, ← remaining_nil] at innerAgain
        have counted := underway.count target
        obtain ⟨left, grown, deep, known⟩ := counted.explores trail edge apart fresh
          (walks_underway inner below (List.Subset.refl _))
        have lower : walk.depthOf target ≤ depth + 1 := by simp [underway.untouched target fresh]
        have same := ihInner innerAgain (((alike.count target).push target (depth + 1)).explore target)
          (by simp) below (List.Subset.refl _) (counted.arrive trail edge apart lower).1
        exact ihRest restAgain (same.leave target)
          (counted.spent left grown (fun _ => ⟨known, deep.ge⟩) spent) trail
          (List.subset_of_cons_subset imported) left
  | @deepen depth target targets walk middle final arrives known deeper inner rest ih =>
    obtain ⟨inside, apart⟩ := (underway.arrives_iff target).mp arrives
    have edge : graph.Edge node target := ⟨imported List.mem_cons_self, inside⟩
    by_cases member : target ∈ seen
    · exact absurd deeper (Nat.not_lt.mpr (spent target member arrives).2)
    · rw [remaining_of_notMem member] at again
      cases again with
      | pass stays => simp [alike.arrives_eq, arrives] at stays
      | explore _ fresh => simp [alike.isExplored_eq, known] at fresh
      | meet _ _ shallow => exact absurd deeper (alike.depthOf_eq target ▸ shallow)
      | deepen _ _ _ innerAgain restAgain =>
        rw [imports_distinct, ← remaining_nil] at innerAgain
        have counted := underway.count target
        obtain ⟨arrived, left, grown, done⟩ := counted.pushed trail edge apart known deeper inner
        have same := deepens_alike inner innerAgain ((alike.count target).push target (depth + 1))
          (by simp) (trail.extend edge apart) (List.Subset.refl _)
          (fun next member bound => underway.closed target known apart next ⟨member, bound⟩) arrived
        exact ih restAgain (same.leave target) (counted.spent left grown done spent) trail
          (List.subset_of_cons_subset imported) left
  | @meet depth target targets walk final arrives known shallow rest ih =>
    have later := List.subset_of_cons_subset imported
    have counted := underway.count target
    by_cases member : target ∈ seen
    · rw [remaining_of_mem member] at again
      exact ih again (alike.countAgain target) spent trail later counted
    · rw [remaining_of_notMem member] at again
      cases again with
      | pass stays => simp [alike.arrives_eq, arrives] at stays
      | explore _ fresh => simp [alike.isExplored_eq, known] at fresh
      | deepen _ _ deeper => exact absurd (alike.depthOf_eq target ▸ deeper) shallow
      | meet _ _ _ restAgain =>
        have done : walk.Spent depth target := fun _ => ⟨known, Nat.not_lt.mp shallow⟩
        exact ih restAgain (alike.count target) (List.forall_mem_cons.mpr ⟨done, spent⟩) trail later counted

end

private theorem depth_distinct (graph : ImportGraph) (entry : Nat) :
    (graph.distinct.metrics entry).depth = (graph.metrics entry).depth := by
  by_cases inside : entry < graph.size
  · obtain ⟨final, walked, computed⟩ := walkFrom_walks graph entry inside
    obtain ⟨other, again, computedOther⟩ :=
      walkFrom_walks graph.distinct entry (by simpa using inside)
    rw [imports_distinct, ← remaining_nil, size_distinct] at again
    have alike := walks_alike walked again ⟨rfl, rfl, rfl⟩ (by simp) (Trail.single graph entry)
      (List.Subset.refl _) (underway_start inside)
    simpa [metrics, computed, computedOther] using (alike.leave entry).depth
  · simp [metrics, walkFrom, inside]

theorem eraseDups_concat_of_mem {α : Type} [BEq α] [LawfulBEq α] {items : List α} {item : α}
    (member : item ∈ items) : (items ++ [item]).eraseDups = items.eraseDups := by
  simp [List.eraseDups_append, List.removeAll, member]

private theorem eraseDups_concat_of_notMem {α : Type} [BEq α] [LawfulBEq α] {items : List α} {item : α}
    (new : item ∉ items) : (items ++ [item]).eraseDups = items.eraseDups ++ [item] := by
  simp [List.eraseDups_append, List.removeAll, new, List.eraseDups_cons]

private theorem eraseDups_of_nodup {α : Type} [BEq α] [LawfulBEq α] {items : List α}
    (distinct : items.Nodup) : items.eraseDups = items := by
  induction items with
  | nil => rfl
  | cons item items ih =>
    obtain ⟨new, distinct⟩ := List.nodup_cons.mp distinct
    have kept : items.filter (fun other => !other == item) = items := by
      rw [List.filter_eq_self]
      intro other member
      have apart : other ≠ item := fun same => new (same ▸ member)
      simpa using apart
    rw [List.eraseDups_cons, kept, ih distinct]

namespace CycleSearch

variable {state other : CycleSearch}

structure Alike (state other : CycleSearch) : Prop where
  visited : other.visited = state.visited
  stack : other.stack = state.stack
  cycles : other.cycles.eraseDups = state.cycles.eraseDups

/-- An edge to the target from the end of the path leads nowhere new, and reports no new cycle. -/
structure Spent (state : CycleSearch) (target : Nat) : Prop where
  met : state.visited[target]? ≠ some false
  reported : target ∈ state.stack → state.stack.dropWhile (· != target) ++ [target] ∈ state.cycles

private theorem Alike.mem_cycles (alike : state.Alike other) (cycle : List Nat) :
    cycle ∈ other.cycles ↔ cycle ∈ state.cycles := by
  rw [← List.mem_eraseDups, alike.cycles, List.mem_eraseDups]

private theorem Alike.enter (alike : state.Alike other) (target : Nat) :
    (state.enter target).Alike (other.enter target) where
  visited := congrArg (·.setIfInBounds target true) alike.visited
  stack := congrArg (· ++ [target]) alike.stack
  cycles := alike.cycles

private theorem Alike.leave (alike : state.Alike other) : state.leave.Alike other.leave :=
  { alike with stack := congrArg List.dropLast alike.stack }

private theorem Alike.close (alike : state.Alike other) (target : Nat) :
    (state.close target).Alike (other.close target) := by
  refine ⟨by simpa using alike.visited, by simpa using alike.stack, ?_⟩
  rw [CycleSearch.close, CycleSearch.close, alike.stack]
  split
  · by_cases old : state.stack.dropWhile (· != target) ++ [target] ∈ state.cycles
    · rw [eraseDups_concat_of_mem old, eraseDups_concat_of_mem ((alike.mem_cycles _).mpr old),
        alike.cycles]
    · rw [eraseDups_concat_of_notMem old,
        eraseDups_concat_of_notMem (mt (alike.mem_cycles _).mp old), alike.cycles]
  · exact alike.cycles

private theorem Alike.closeAgain (alike : state.Alike other) {target : Nat} (spent : state.Spent target) :
    (state.close target).Alike other := by
  refine ⟨by simpa using alike.visited, by simpa using alike.stack, ?_⟩
  rw [CycleSearch.close]
  split
  next member => rw [alike.cycles, eraseDups_concat_of_mem (spent.reported member)]
  next => exact alike.cycles

theorem Spent.mono {later : CycleSearch} {target : Nat} (spent : state.Spent target)
    (size : later.visited.size = state.visited.size) (stack : later.stack = state.stack)
    (visited : state.visited[target]? = some true → later.visited[target]? = some true)
    (cycles : state.cycles ⊆ later.cycles) : later.Spent target where
  met := by
    cases mark : state.visited[target]? with
    | none =>
      have beyond := Array.getElem?_eq_none_iff.mp mark
      have absent : later.visited[target]? = none := Array.getElem?_eq_none (size ▸ beyond)
      simp [absent]
    | some known =>
      cases known with
      | false => exact absurd mark spent.met
      | true => simp [visited mark]
  reported member := by
    rw [stack] at member ⊢
    exact cycles (spent.reported member)

private theorem Spent.close {target : Nat} (spent : state.Spent target) (next : Nat) :
    (state.close next).Spent target :=
  spent.mono (by simp) (by simp) (by simp) (close_cycles state next)

private theorem spent_close {target : Nat} (met : state.visited[target]? = some true) :
    (state.close target).Spent target where
  met := by simp [met]
  reported member := by
    rw [close_stack] at member ⊢
    simp [CycleSearch.close, member]

end CycleSearch

private theorem follows_alike {graph : ImportGraph} {targets seen : List Nat}
    {state final other finalOther : CycleSearch} (followed : Follows graph targets state final)
    (again : Follows graph.distinct (remaining seen targets) other finalOther)
    (alike : state.Alike other) (spent : ∀ target ∈ seen, state.Spent target)
    (marked : ∀ node ∈ state.stack, state.visited[node]? = some true) : final.Alike finalOther := by
  induction followed generalizing seen other finalOther with
  | nil state =>
    cases again
    exact alike
  | @outside target targets state final absent rest ih =>
    by_cases member : target ∈ seen
    · rw [remaining_of_mem member] at again
      exact ih again alike spent marked
    · rw [remaining_of_notMem member] at again
      have done : state.Spent target := by
        refine ⟨by simp [absent], fun onPath => ?_⟩
        simp [marked target onPath] at absent
      cases again with
      | outside _ restAgain => exact ih restAgain alike (List.forall_mem_cons.mpr ⟨done, spent⟩) marked
      | enter fresh => simp [alike.visited, absent] at fresh
      | close met => simp [alike.visited, absent] at met
  | @enter target targets state middle final fresh inner rest ihInner ihRest =>
    by_cases member : target ∈ seen
    · exact absurd fresh (spent target member).met
    · rw [remaining_of_notMem member] at again
      cases again with
      | outside absent => simp [alike.visited, fresh] at absent
      | close met => simp [alike.visited, fresh] at met
      | enter _ innerAgain restAgain =>
        rw [imports_distinct, ← remaining_nil] at innerAgain
        have inside := CycleSearch.lt_size_of_visited fresh
        have entered := CycleSearch.marked_enter marked inside
        have same := ihInner innerAgain (alike.enter target) (by simp) entered
        have restored : middle.leave.stack = state.stack := by
          simp [CycleSearch.leave, follows_stack inner]
        have size : middle.leave.visited.size = state.visited.size := by
          simp [follows_visited_size inner]
        have keeps (node : Nat) (visited : state.visited[node]? = some true) :
            middle.leave.visited[node]? = some true :=
          follows_visited inner node (CycleSearch.visited_enter target visited)
        have done : middle.leave.Spent target := by
          refine ⟨?_, fun onPath => ?_⟩
          · simp [follows_visited inner target (entered target (by simp))]
          · rw [restored] at onPath
            simp [marked target onPath] at fresh
        refine ihRest restAgain same.leave (List.forall_mem_cons.mpr ⟨done, ?_⟩) ?_
        · intro earlier old
          have reported : (state.enter target).cycles ⊆ middle.cycles := follows_cycles inner
          exact (spent earlier old).mono size restored (keeps earlier) reported
        · intro node onPath
          exact keeps node (marked node (restored ▸ onPath))
  | @close target targets state final met rest ih =>
    have later (earlier : Nat) (old : earlier ∈ seen) : (state.close target).Spent earlier :=
      (spent earlier old).close target
    by_cases member : target ∈ seen
    · rw [remaining_of_mem member] at again
      exact ih again (alike.closeAgain (spent target member)) later (by simpa using marked)
    · rw [remaining_of_notMem member] at again
      cases again with
      | outside absent => simp [alike.visited, met] at absent
      | enter fresh => simp [alike.visited, met] at fresh
      | close _ restAgain =>
        exact ih restAgain (alike.close target)
          (List.forall_mem_cons.mpr ⟨CycleSearch.spent_close met, later⟩) (by simpa using marked)

private theorem cycles_nodup {graph : ImportGraph} (distinct : ∀ node, (graph.imports node).Nodup)
    (entry : Nat) : (graph.cycles entry).Nodup := by
  by_cases inside : entry < graph.size
  · rw [List.nodup_iff_count_le_one]
    intro cycle
    by_cases reported : cycle ∈ graph.cycles entry
    · obtain ⟨closed, _, reached⟩ := cycles_walks graph entry inside cycle reported
      obtain ⟨front, source, target, rfl⟩ : ∃ front source target, cycle = front ++ [source, target] := by
        obtain ⟨front, target, rfl⟩ := (List.eq_nil_or_concat' cycle).resolve_left
          (List.ne_nil_of_mem (List.getElem_mem closed.long))
        obtain ⟨front, source, rfl⟩ := (List.eq_nil_or_concat' front).resolve_left (by
          rintro rfl
          simpa using closed.long)
        exact ⟨front, source, target, by simp⟩
      have bound := (reached source (by simp)).lt_size inside
      have single := List.nodup_iff_count_le_one.mp (distinct source) target
      -- reports of one cycle are reports of its last edge, of which there are at most as many as imports
      calc (graph.cycles entry).count (front ++ [source, target])
          ≤ reports (graph.cycles entry) source target := by
            refine List.countP_mono_left fun other _ same => ?_
            rw [beq_iff_eq] at same
            simp [same]
        _ ≤ (graph.imports source).count target := by
            rcases reports_all_or_none graph entry source target inside bound with none | all
            · omega
            · omega
        _ ≤ 1 := single
    · simp [List.count_eq_zero_of_not_mem reported]
  · simp [cycles, inside]

private theorem nodup_eraseDups (items : List Nat) : items.eraseDups.Nodup := by
  match items with
  | [] => simp
  | item :: items =>
    rw [List.eraseDups_cons, List.nodup_cons]
    refine ⟨?_, nodup_eraseDups _⟩
    rw [List.mem_eraseDups]
    simp
termination_by items.length
decreasing_by exact Nat.lt_succ_of_le (List.length_filter_le _ _)

private theorem cycles_distinct (graph : ImportGraph) (entry : Nat) :
    graph.distinct.cycles entry = (graph.cycles entry).eraseDups := by
  by_cases inside : entry < graph.size
  · obtain ⟨final, followed, computed⟩ := cycles_follows graph entry inside
    obtain ⟨other, again, computedOther⟩ :=
      cycles_follows graph.distinct entry (by simpa using inside)
    rw [imports_distinct, ← remaining_nil, size_distinct] at again
    have alike := follows_alike followed again ⟨rfl, rfl, rfl⟩ (by simp) (tracked_start inside).marked
    have once := cycles_nodup (fun node => imports_distinct graph node ▸ nodup_eraseDups _) entry
    rw [← eraseDups_of_nodup once, computed, computedOther, alike.cycles]
  · simp [cycles, inside]

/-- Repeated imports are felt in fan-in only: with the first of equal imports of each node kept, depths
are what they were, and every cycle that was reported is reported once, in the order of first reports. -/
theorem measures_distinct (graph : ImportGraph) (entry : Nat) :
    (graph.distinct.metrics entry).depth = (graph.metrics entry).depth ∧
      graph.distinct.cycles entry = (graph.cycles entry).eraseDups :=
  ⟨depth_distinct graph entry, cycles_distinct graph entry⟩

example : (ofLists [[1, 1, 2], [2, 0, 0], [1, 0, 1]]).cycles 0 =
      [[1, 2, 1], [0, 1, 2, 0], [1, 2, 1], [0, 1, 0], [0, 1, 0]] ∧
    (ofLists [[1, 1, 2], [2, 0, 0], [1, 0, 1]]).distinct.cycles 0 =
      [[1, 2, 1], [0, 1, 2, 0], [0, 1, 0]] := by
  decide +kernel

end CrateAtlas.ImportGraph
