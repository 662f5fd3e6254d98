import CrateAtlas.Proofs.ImportDepth
import CrateAtlas.Proofs.WalkCalls

/-!
What every call of a walk keeps to. At each moment the calls in progress are a derivation of the walk that
is cut off: each of them has followed the imports of its node up to some point, where it made the call
above it. So what is known of derivations tells what a call finds when it is made, what it has kept since,
and in which state it returns.
-/

namespace CrateAtlas.ImportGraph

/-- A moment of the walk from an entry at which a call is the innermost one above others. -/
inductive Midway (graph : ImportGraph) (entry : Nat) : Call → List Call → Walk → Prop where
  | entry {seen rest : List Nat} {walk : Walk} (inside : entry < graph.size)
      (imports : graph.imports entry = seen ++ rest)
      (followed : Pursues graph .visit 0 seen (Purpose.visit.opens entry (Walk.start graph.size)) walk) :
      Midway graph entry ⟨.visit, entry, 0, Walk.start graph.size, rest⟩ [] walk
  | call {caller : Call} {calls : List Call} {inner : Purpose} {target : Nat}
      {rest seen ahead : List Nat} {walk noted now : Walk}
      (below : Midway graph entry caller calls walk) (next : caller.rest = target :: rest)
      (met : caller.purpose.meet caller.depth walk target = .call inner noted)
      (imports : graph.imports target = seen ++ ahead)
      (followed : Pursues graph inner (caller.depth + 1) seen (inner.opens target noted) now) :
      Midway graph entry ⟨inner, target, caller.depth + 1, noted, ahead⟩
        ({ caller with rest := rest } :: calls) now

inductive Moment (graph : ImportGraph) (entry : Nat) : Execution → Prop where
  | midway {call : Call} {calls : List Call} {walk : Walk} (midway : Midway graph entry call calls walk) :
      Moment graph entry ⟨call :: calls, walk⟩
  | finished : Moment graph entry ⟨[], graph.walkFrom entry⟩

/-- A node from which a depth can be pushed on: it is explored and not on the path, and everything that it
imports is explored. -/
structure Walk.Grounds (graph : ImportGraph) (walk : Walk) (node : Nat) : Prop where
  explored : walk.isExplored node = true
  offPath : walk.onPath[node]? = some false
  targets : ∀ target ∈ graph.imports node, target < graph.size → walk.isExplored target = true

/-- What a later state of a walk has kept of an earlier one: the nodes that were on the path and their
depths, and if depths were merely pushed in between, the explored nodes and the counts. -/
structure Walk.Retains (pushes : Prop) (earlier later : Walk) : Prop where
  onPath : ∀ node : Nat, earlier.onPath[node]? = some true → later.onPath[node]? = some true
  depths : ∀ node : Nat, earlier.onPath[node]? = some true → later.depthOf node = earlier.depthOf node
  explored : pushes → later.explored = earlier.explored
  direct : pushes → later.direct = earlier.direct

private theorem Walk.Retains.trans {pushes pushesAfter : Prop} {first second third : Walk}
    (before : Retains pushes first second) (after : Retains pushesAfter second third)
    (still : pushes → pushesAfter) : Retains pushes first third where
  onPath node marked := after.onPath node (before.onPath node marked)
  depths node marked := (after.depths node (before.onPath node marked)).trans (before.depths node marked)
  explored pushed := (after.explored (still pushed)).trans (before.explored pushed)
  direct pushed := (after.direct (still pushed)).trans (before.direct pushed)

theorem Walk.Grows.opens (path : List Nat) (walk : Walk) (purpose : Purpose) (node : Nat) :
    Walk.Grows path walk (purpose.opens node walk) := by
  cases purpose with
  | visit =>
    refine ⟨fun _ => Nat.le_refl _, fun _ _ => rfl, fun other known => ?_⟩
    by_cases same : node = other
    · subst same
      have kept : (walk.enter node).isExplored node = true := known
      rw [Purpose.opens, Walk.explore_of_explored kept]
      exact kept
    · simpa [Purpose.opens, Walk.isExplored, Walk.explore, Walk.enter, same] using known
  | deepen => exact ⟨fun _ => Nat.le_refl _, fun _ _ => rfl, fun _ known => known⟩

section

variable {graph : ImportGraph} {entry node depth : Nat} {path targets : List Nat} {purpose : Purpose}
  {walk final : Walk}

private theorem Pursues.underway (pursued : Pursues graph purpose depth targets walk final)
    (trail : graph.Trail entry node depth path) (imported : targets ⊆ graph.imports node)
    (known : purpose = .deepen → ∀ target, graph.Edge node target → walk.isExplored target = true)
    (underway : Underway graph entry path walk) :
    Underway graph entry path final ∧ Walk.Grows path walk final := by
  cases purpose with
  | visit =>
    obtain ⟨done, grows, _⟩ := walks_underway pursued.walks trail imported underway
    exact ⟨done, grows⟩
  | deepen =>
    obtain ⟨done, grows, _⟩ := deepens_underway pursued.deepens trail imported
      (fun target member inside => known rfl target ⟨imported member, inside⟩) underway
    exact ⟨done, grows⟩

theorem Underway.mem_of_marked (underway : Underway graph entry path walk)
    (marked : walk.onPath[node]? = some true) : node < graph.size ∧ node ∈ path := by
  have inside : node < graph.size := underway.pathSize ▸ (Array.getElem?_eq_some_iff.mp marked).1
  rw [underway.onPath node inside] at marked
  exact ⟨inside, by simpa using marked⟩

end

def pathOf (calls : List Call) : List Nat :=
  (calls.map Call.node).reverse

/-- A call was made at the end of a path, and the walk is still under way from there. -/
structure Call.Within (graph : ImportGraph) (entry : Nat) (path : List Nat) (call : Call) (walk : Walk) :
    Prop where
  trail : graph.Trail entry call.node call.depth (path ++ [call.node])
  underway : Underway graph entry (path ++ [call.node]) walk
  grows : Walk.Grows path call.before walk
  known : call.purpose = .deepen → call.before.isExplored call.node = true ∧
    ∀ target, graph.Edge call.node target → call.before.isExplored target = true

namespace Call.Within

variable {graph : ImportGraph} {entry target : Nat} {path : List Nat} {call : Call} {inner : Purpose}
  {walk noted : Walk}

theorem edge (within : call.Within graph entry path walk) (imported : target ∈ graph.imports call.node)
    (meeting : Meets call.depth target walk call.purpose (.call inner noted)) :
    graph.Edge call.node target ∧ target ∉ path ++ [call.node] := by
  obtain ⟨inside, apart⟩ := (within.underway.arrives_iff target).mp meeting.arrives
  exact ⟨⟨imported, inside⟩, apart⟩

theorem finds (within : call.Within graph entry path walk) (imported : target ∈ graph.imports call.node)
    (meeting : Meets call.depth target walk call.purpose (.call inner noted)) (deepens : inner = .deepen) :
    noted.isExplored target = true ∧
      ∀ next, graph.Edge target next → noted.isExplored next = true := by
  obtain ⟨edge, apart⟩ := within.edge imported meeting
  -- the target is off the path, so the walk has left it if it is explored
  have closed (explored : walk.isExplored target = true) := within.underway.closed target explored apart
  generalize purpose : call.purpose = purpose at meeting
  cases meeting with
  | explore => cases deepens
  | deepen arrives explored deeper => exact ⟨explored, closed explored⟩
  | push arrives deeper =>
    have explored := within.grows.explored target ((within.known purpose).2 target edge)
    exact ⟨explored, closed explored⟩

theorem arrives (within : call.Within graph entry path walk) (imported : target ∈ graph.imports call.node)
    (meeting : Meets call.depth target walk call.purpose (.call inner noted)) :
    Underway graph entry (path ++ [call.node] ++ [target]) (inner.opens target noted) ∧
      Walk.Grows (path ++ [call.node]) walk noted := by
  obtain ⟨edge, apart⟩ := within.edge imported meeting
  have finds := within.finds imported meeting
  have underway := within.underway
  have trail := within.trail
  generalize call.purpose = purpose at meeting
  cases meeting with
  | explore arrives fresh =>
    -- the depth is written without a comparison, but over zero
    have lower : walk.depthOf target ≤ call.depth + 1 := by simp [underway.untouched target fresh]
    obtain ⟨arrived, grows, _⟩ := (underway.count target).arrive trail edge apart lower
    exact ⟨arrived, grows.depths, grows.pathDepths, fun _ known => known⟩
  | deepen arrives explored deeper =>
    obtain ⟨arrived, grows, _⟩ := (underway.count target).arrive trail edge apart (Nat.le_of_lt deeper)
    rw [← @Walk.enter_eq_arrive (walk.count target) target explored] at arrived
    exact ⟨arrived, grows.depths, grows.pathDepths, fun _ known => known⟩
  | push arrives deeper =>
    obtain ⟨arrived, grows, _⟩ := underway.arrive trail edge apart (Nat.le_of_lt deeper)
    have explored : walk.isExplored target = true := (finds rfl).1
    rw [← Walk.enter_eq_arrive explored] at arrived
    exact ⟨arrived, grows.depths, grows.pathDepths, fun _ known => known⟩

private theorem retains (within : call.Within graph entry path walk)
    (imported : target ∈ graph.imports call.node)
    (meeting : Meets call.depth target walk call.purpose (.call inner noted)) :
    Walk.Retains (call.purpose = .deepen) walk noted := by
  have kept : noted.onPath = walk.onPath := meeting.onPath
  have grows := (within.arrives imported meeting).2
  refine ⟨fun node marked => kept ▸ marked, ?_, ?_, ?_⟩
  · exact fun node marked => grows.pathDepths node (within.underway.mem_of_marked marked).2
  · exact fun deepens => (meeting.pushes deepens).2.1
  · exact fun deepens => (meeting.pushes deepens).2.2

end Call.Within

namespace Midway

variable {graph : ImportGraph} {entry target : Nat} {call : Call} {calls : List Call}
  {walk later : Walk}

theorem imports (midway : Midway graph entry call calls walk) :
    ∃ seen, graph.imports call.node = seen ++ call.rest ∧
      Pursues graph call.purpose call.depth seen (call.purpose.opens call.node call.before) walk := by
  cases midway with
  | entry inside imports followed => exact ⟨_, imports, followed⟩
  | call below next met imports followed => exact ⟨_, imports, followed⟩

theorem next_mem {rest : List Nat} (midway : Midway graph entry call calls walk)
    (next : call.rest = target :: rest) : target ∈ graph.imports call.node := by
  obtain ⟨seen, imports, _⟩ := midway.imports
  simp [imports, next]

theorem within (midway : Midway graph entry call calls walk) :
    call.Within graph entry (pathOf calls) walk := by
  induction midway with
  | entry inside imports followed =>
    have trail := Trail.single graph entry
    obtain ⟨done, grew⟩ := followed.underway trail (by simp [imports]) (by simp) (underway_start inside)
    have opened := Walk.Grows.opens (pathOf []) (Walk.start graph.size) .visit entry
    exact ⟨trail, done, opened.trans (Walk.Grows.shorten grew), by simp⟩
  | @call caller calls inner target rest seen ahead walk noted now below next met imports followed ih =>
    have imported := below.next_mem next
    obtain ⟨edge, apart⟩ := ih.edge imported (meets met)
    have finds := ih.finds imported (meets met)
    have trail := ih.trail.extend edge apart
    have opened := Walk.Grows.opens (pathOf calls ++ [caller.node]) noted inner target
    obtain ⟨done, grew⟩ := followed.underway trail (by simp [imports])
      (fun deepens next edge => opened.explored next ((finds deepens).2 next edge))
      (ih.arrives imported (meets met)).1
    have path : pathOf ({ caller with rest := rest } :: calls) = pathOf calls ++ [caller.node] := by
      simp [pathOf]
    rw [path]
    exact ⟨trail, done, opened.trans grew.shorten, finds⟩

private theorem extend {rest : List Nat} (midway : Midway graph entry call calls walk)
    (next : call.rest = target :: rest)
    (pursued : Pursues graph call.purpose call.depth [target] walk later) :
    Midway graph entry { call with rest := rest } calls later := by
  cases midway with
  | entry inside imports followed =>
    cases next
    exact .entry inside (by simpa using imports) (followed.append pursued)
  | call below nextBelow met imports followed =>
    cases next
    exact .call below nextBelow met (by simpa using imports) (followed.append pursued)

theorem arrives (midway : Midway graph entry call calls walk) :
    call.before.arrives call.node = true := by
  cases midway with
  | entry inside => exact Walk.start_arrives inside
  | call below next met => exact (meets met).arrives_after

theorem leave_eq_perform (midway : Midway graph entry call calls walk) (done : call.rest = [])
    (fuel : Nat) (enough : call.before.offPath ≤ fuel) :
    walk.leave call.node = graph.perform call.purpose fuel call.node call.depth call.before := by
  obtain ⟨seen, imports, followed⟩ := midway.imports
  obtain ⟨final, pursued, computed⟩ :=
    perform_pursues graph call.purpose fuel call.node call.depth call.before enough midway.arrives
  rw [imports, done, List.append_nil] at pursued
  rw [computed, pursued.unique followed]

theorem leave_onPath (midway : Midway graph entry call calls walk) :
    (walk.leave call.node).onPath = call.before.onPath := by
  obtain ⟨_, _, followed⟩ := midway.imports
  exact followed.leave_onPath midway.arrives

private theorem grounds_last (midway : Midway graph entry call calls walk)
    (deepens : call.purpose = .deepen) : call.before.Grounds graph call.node := by
  obtain ⟨explored, targets⟩ := midway.within.known deepens
  refine ⟨explored, (Walk.arrives_iff _ _).mp midway.arrives, ?_⟩
  exact fun target member inside => targets target ⟨member, inside⟩

private theorem grounds (midway : Midway graph entry call calls walk) :
    ∀ other ∈ call :: calls, other.purpose = .deepen → other.before.Grounds graph other.node := by
  induction midway with
  | entry => simp
  | call below next met imports followed ih =>
    have last := (Midway.call below next met imports followed).grounds_last
    obtain ⟨caller, others⟩ := List.forall_mem_cons.mp ih
    exact List.forall_mem_cons.mpr ⟨last, List.forall_mem_cons.mpr ⟨caller, others⟩⟩

theorem retains_last (midway : Midway graph entry call calls walk) :
    Walk.Retains (call.purpose = .deepen) call.before walk := by
  obtain ⟨_, _, followed⟩ := midway.imports
  have within := midway.within
  -- leaving the node would restore the path of the call, so what was marked then is marked now
  have marked {node : Nat} (before : call.before.onPath[node]? = some true) :
      walk.onPath[node]? = some true ∧ node ≠ call.node := by
    rw [← midway.leave_onPath, Walk.leave, Array.getElem?_setIfInBounds] at before
    split at before
    next same => simp at before
    next apart => exact ⟨before, Ne.symm apart⟩
  have framed (deepens : call.purpose = .deepen) :
      walk.explored = call.before.explored ∧ walk.direct = call.before.direct := by
    rw [deepens] at followed
    exact (deepens_frame followed.deepens).2
  refine ⟨fun node before => (marked before).1, ?_, fun deepens => (framed deepens).1,
    fun deepens => (framed deepens).2⟩
  intro node before
  obtain ⟨now, apart⟩ := marked before
  have member := (within.underway.mem_of_marked now).2
  exact within.grows.pathDepths node (by simpa [apart] using member)

private theorem deepens (midway : Midway graph entry call calls walk) :
    ∀ other ∈ call :: calls, other.purpose = .deepen → call.purpose = .deepen := by
  induction midway with
  | entry => simp
  | call below next met imports followed ih =>
    have pushes := (meets met).pushes
    obtain ⟨caller, others⟩ := List.forall_mem_cons.mp ih
    refine List.forall_mem_cons.mpr ⟨id, List.forall_mem_cons.mpr ⟨?_, ?_⟩⟩
    · exact fun deepens => (pushes deepens).1
    · exact fun other member deepens => (pushes (others other member deepens)).1

private theorem retains (midway : Midway graph entry call calls walk) :
    ∀ other ∈ call :: calls, Walk.Retains (other.purpose = .deepen) other.before walk := by
  induction midway with
  | entry inside imports followed =>
    exact List.forall_mem_singleton.mpr (Midway.entry inside imports followed).retains_last
  | call below next met imports followed ih =>
    -- a call further down has kept its state up to the moment of this call, and from there until now
    have made := below.within.retains (below.next_mem next) (meets met)
    have last := (Midway.call below next met imports followed).retains_last
    have since := made.trans last fun deepens => ((meets met).pushes deepens).1
    obtain ⟨caller, others⟩ := List.forall_mem_cons.mp ih
    refine List.forall_mem_cons.mpr ⟨last, List.forall_mem_cons.mpr ⟨caller.trans since id, ?_⟩⟩
    intro other member
    exact (others other member).trans since (below.deepens other (List.mem_cons_of_mem _ member))

end Midway

namespace Moment

variable {graph : ImportGraph} {entry : Nat} {now next later : Execution}

private theorem advance (moment : Moment graph entry now) (advance : Advances graph now next) :
    Moment graph entry next := by
  cases moment with
  | midway midway =>
    cases advance with
    | leave done =>
      cases midway with
      | entry inside imports followed =>
        have enough := Nat.le_of_eq (Walk.start_offPath graph.size)
        have returned := (Midway.entry inside imports followed).leave_eq_perform done graph.size enough
        rw [returned, ← walkFrom_eq_perform inside]
        exact .finished
      | call below next met imports followed =>
        -- the whole call becomes the next piece of what its caller has followed
        cases done
        rw [List.append_nil] at imports
        rw [← imports] at followed
        exact .midway (below.extend next (.call met followed (.nil _ _ _)))
    | onward next met => exact .midway (midway.extend next (.onward met (.nil _ _ _)))
    | call next met => exact .midway (.call midway next met (List.nil_append _).symm (.nil _ _ _))
  | finished => cases advance

private theorem depthOf_le (moment : Moment graph entry now) (advance : Advances graph now next)
    (node : Nat) : now.walk.depthOf node ≤ next.walk.depthOf node := by
  cases moment with
  | midway midway =>
    cases advance with
    | leave done => exact Nat.le_refl _
    | onward next met => exact Nat.le_of_eq ((meets met).depthOf_onward node).symm
    | @call call calls walk later target rest inner next met =>
      have made := (midway.within.arrives (midway.next_mem next) (meets met)).2
      have opened := Walk.Grows.opens [] later inner target
      exact Nat.le_trans (made.depths node) (opened.depths node)
  | finished => cases advance

theorem reaches {size : Nat} (moment : Moment graph entry now) (placed : now.Placed size)
    (reached : StateTransition.Reaches graph.step now later) :
    Moment graph entry later ∧ ∀ node, now.walk.depthOf node ≤ later.walk.depthOf node := by
  induction reached with
  | refl => exact ⟨moment, fun _ => Nat.le_refl _⟩
  | tail reached stepped ih =>
    obtain ⟨middle, grown⟩ := ih
    have advance := (placed.reaches reached).advances_of_step stepped
    have grows := middle.depthOf_le advance
    exact ⟨middle.advance advance, fun node => Nat.le_trans (grown node) (grows node)⟩

theorem returns {size : Nat} {above below : List Call} {call : Call} {walk : Walk}
    (moment : Moment graph entry ⟨above ++ call :: below, walk⟩)
    (placed : Execution.Placed size ⟨above ++ call :: below, walk⟩) :
    ∃ after, StateTransition.Reaches graph.step ⟨above ++ call :: below, walk⟩ ⟨below, after⟩ ∧
      after.onPath = call.before.onPath ∧
      Walk.Retains (call.purpose = .deepen) call.before after ∧
      ∀ fuel, call.before.offPath ≤ fuel →
        graph.perform call.purpose fuel call.node call.depth call.before = after := by
  obtain ⟨final, reached⟩ := placed.exhausts graph
  obtain ⟨ended, _⟩ := moment.reaches placed reached
  cases ended with
  | midway midway =>
    have retains := midway.retains_last
    refine ⟨final.leave call.node, reached.trans ?_, midway.leave_onPath, ?_, ?_⟩
    · exact (placed.reaches reached).head (.leave rfl) fun _ => .refl
    · exact ⟨fun node marked => midway.leave_onPath ▸ marked, retains.depths, retains.explored,
        retains.direct⟩
    · exact fun fuel enough => (midway.leave_eq_perform rfl fuel enough).symm

private theorem ends {size : Nat} (moment : Moment graph entry now) (placed : now.Placed size) :
    ⟨[], graph.walkFrom entry⟩ ∈ StateTransition.eval graph.step now := by
  obtain ⟨calls, walk⟩ := now
  obtain ⟨after, reached⟩ :
      ∃ after, StateTransition.Reaches graph.step ⟨calls, walk⟩ ⟨[], after⟩ := by
    rcases List.eq_nil_or_concat calls with rfl | ⟨above, call, rfl⟩
    · exact ⟨walk, .refl⟩
    · rw [List.concat_eq_append] at moment placed ⊢
      obtain ⟨after, reached, _⟩ := moment.returns placed
      exact ⟨after, reached⟩
  cases (moment.reaches placed reached).1 with
  | finished => exact StateTransition.mem_eval.mpr ⟨reached, rfl⟩

private theorem grounds (moment : Moment graph entry now) :
    ∀ call ∈ now.calls, call.purpose = .deepen → call.before.Grounds graph call.node := by
  cases moment with
  | midway midway => exact midway.grounds
  | finished => simp

private theorem retains (moment : Moment graph entry now) :
    ∀ call ∈ now.calls, Walk.Retains (call.purpose = .deepen) call.before now.walk := by
  cases moment with
  | midway midway => exact midway.retains
  | finished => simp

end Moment

private theorem outset_moment (graph : ImportGraph) (entry : Nat) :
    ∃ first, graph.outset entry = some first ∧ Moment graph entry first ∧ first.Placed graph.size := by
  have sized := Walk.Sized.start graph.size
  by_cases inside : entry < graph.size
  · refine ⟨_, (if_pos inside).trans (sized.enter? inside), ?_, sized.opens .visit entry, ?_⟩
    · exact .midway (.entry inside (List.nil_append _).symm (.nil _ _ _))
    · simpa using inside
  · have same : graph.walkFrom entry = Walk.start graph.size := if_neg inside
    exact ⟨_, if_neg inside, same ▸ .finished, sized, by simp⟩

/-- The walk from an entry, call by call. It comes to an end, in the state that `walkFrom` gives, and has
then explored just what the entry reaches. At every moment until then the next action finds all places
that it needs, and no depth will be less later on. Each call in progress, if it pushes a depth, was made at
an explored node off the path that imports explored nodes only; it has kept the path and the depths along
it, and if it pushes a depth, the explored nodes and the counts; and it returns, with the path as it was at
the call, in the state that `visit` or `deepen` computes. -/
theorem calls_sound (graph : ImportGraph) (entry : Nat) :
    ∃ first, graph.outset entry = some first ∧
      ⟨[], graph.walkFrom entry⟩ ∈ StateTransition.eval graph.step first ∧
      (entry < graph.size →
        ∀ node, (graph.walkFrom entry).isExplored node = true ↔ graph.Reaches entry node) ∧
      ∀ now, StateTransition.Reaches graph.step first now →
        (now.calls ≠ [] → ∃ next, graph.step now = some next) ∧
        (∀ later, StateTransition.Reaches graph.step now later →
          ∀ node, now.walk.depthOf node ≤ later.walk.depthOf node) ∧
        ∀ above call below, now.calls = above ++ call :: below →
          (call.purpose = .deepen → call.before.Grounds graph call.node) ∧
          Walk.Retains (call.purpose = .deepen) call.before now.walk ∧
          ∃ after, StateTransition.Reaches graph.step now ⟨below, after⟩ ∧
            after.onPath = call.before.onPath ∧
            Walk.Retains (call.purpose = .deepen) call.before after ∧
            ∀ fuel, call.before.offPath ≤ fuel →
              graph.perform call.purpose fuel call.node call.depth call.before = after := by
  obtain ⟨first, begun, moment, placed⟩ := outset_moment graph entry
  have explored (inside : entry < graph.size) := (walkFrom_underway graph entry inside).2
  refine ⟨first, begun, moment.ends placed, explored, ?_⟩
  intro now reached
  obtain ⟨current, _⟩ := moment.reaches placed reached
  have placedNow := placed.reaches reached
  refine ⟨?_, fun later onward => (current.reaches placedNow onward).2, ?_⟩
  · intro left
    exact Option.ne_none_iff_exists'.mp fun stuck => left (placedNow.step_eq_none_iff.mp stuck)
  · obtain ⟨calls, walk⟩ := now
    rintro above call below rfl
    have member : call ∈ above ++ call :: below := by simp
    exact ⟨current.grounds call member, current.retains call member, current.returns placedNow⟩

def detour : ImportGraph :=
  ofLists [[1, 2, 9], [3], [1], []]

theorem calls_sound_detour :
    ∃ first now above call below, detour.outset 0 = some first ∧
      StateTransition.Reaches detour.step first now ∧ now.calls = above ++ call :: below ∧
      call.purpose = .deepen ∧ call.node = 1 ∧ above.map Call.node = [3] ∧ below.map Call.node = [2, 0] ∧
      call.before.Grounds detour 1 ∧
      ∃ after, StateTransition.Reaches detour.step now ⟨below, after⟩ ∧
        after.onPath = call.before.onPath ∧ after.depth = #[0, 2, 1, 3] := by
  obtain ⟨first, begun, _, _, moments⟩ := calls_sound detour 0
  cases begun
  have reached : StateTransition.Reaches detour.step
      ⟨[⟨.visit, 0, 0, Walk.start 4, [1, 2, 9]⟩], Purpose.visit.opens 0 (Walk.start 4)⟩ _ :=
    .head rfl (.head rfl (.head rfl (.head rfl (.head rfl (.head rfl (.head rfl .refl))))))
  obtain ⟨_, _, calls⟩ := moments _ reached
  obtain ⟨grounds, _, after, returned, path, _, computed⟩ := calls [_] _ _ rfl
  have depths : after.depth = #[0, 2, 1, 3] := by
    rw [← computed 4 (by decide)]
    decide
  exact ⟨_, _, [_], _, _, rfl, reached, rfl, rfl, rfl, rfl, rfl, grounds rfl, after, returned, path,
    depths⟩

end CrateAtlas.ImportGraph
