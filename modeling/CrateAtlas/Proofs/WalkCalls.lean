import CrateAtlas.Proofs.Walk
import Mathlib.Computability.StateTransition

/-!
The walk one action after the other. An execution is the stack of the calls that have not returned, with
the state of the walk. At each step its innermost call turns to the next import of its node, or returns if
none is left. Every place of an array is looked up before it is read or written, so that an execution
which needs a place outside an array is stuck. None is: there is a place for every node, and numbers that
name no node are passed over.
-/

namespace CrateAtlas.ImportGraph

/-- What a call at a depth makes of an import, with every place looked up. -/
def Purpose.meet? (purpose : Purpose) (depth : Nat) (walk : Walk) (target : Nat) : Option Turn := do
  if walk.onPath.size ≤ target then return .onward walk
  if ← walk.onPath[target]? then return .onward walk
  match purpose with
  | .visit =>
    guard (target < walk.direct.size)
    let walk := walk.count target
    if !(← walk.explored[target]?) then
      guard (target < walk.depth.size)
      return .call .visit (walk.setDepth target (depth + 1))
    if (← walk.depth[target]?) < depth + 1 then
      return .call .deepen (walk.setDepth target (depth + 1))
    return .onward walk
  | .deepen =>
    if (← walk.depth[target]?) < depth + 1 then
      return .call .deepen (walk.setDepth target (depth + 1))
    return .onward walk

structure Call where
  purpose : Purpose
  node : Nat
  depth : Nat
  before : Walk
  rest : List Nat
  deriving DecidableEq, Repr

structure Execution where
  calls : List Call
  walk : Walk
  deriving DecidableEq, Repr

/-- Makes a call above others, if there are places for the marks that it sets at its node. -/
def enter? (graph : ImportGraph) (purpose : Purpose) (node depth : Nat) (calls : List Call)
    (walk : Walk) : Option Execution := do
  guard (node < walk.onPath.size)
  guard (purpose = .visit → node < walk.explored.size)
  return ⟨⟨purpose, node, depth, walk, graph.imports node⟩ :: calls, purpose.opens node walk⟩

/-- The next action of the innermost call. There is none once all calls have returned, nor if the action
needs a place that an array does not have. -/
def step (graph : ImportGraph) : Execution → Option Execution
  | ⟨[], _⟩ => none
  | ⟨call :: calls, walk⟩ =>
    match call.rest with
    | [] => do
      guard (call.node < walk.onPath.size)
      return ⟨calls, walk.leave call.node⟩
    | target :: rest => do
      let calls := { call with rest := rest } :: calls
      match ← call.purpose.meet? call.depth walk target with
      | .onward later => return ⟨calls, later⟩
      | .call inner later => graph.enter? inner target (call.depth + 1) calls later

def outset (graph : ImportGraph) (entry : Nat) : Option Execution :=
  if entry < graph.size then graph.enter? .visit entry 0 [] (Walk.start graph.size)
  else some ⟨[], Walk.start graph.size⟩

namespace Pursues

variable {graph : ImportGraph} {purpose : Purpose} {depth : Nat} {targets : List Nat}
  {walk middle final : Walk}

theorem append {others : List Nat} (first : Pursues graph purpose depth targets walk middle)
    (second : Pursues graph purpose depth others middle final) :
    Pursues graph purpose depth (targets ++ others) walk final := by
  induction first with
  | nil => exact second
  | onward met rest ih => exact .onward met (ih second)
  | call met within rest _ ih => exact .call met within (ih second)

theorem unique {other : Walk} (first : Pursues graph purpose depth targets walk final)
    (second : Pursues graph purpose depth targets walk other) : final = other := by
  induction first generalizing other with
  | nil =>
    cases second
    rfl
  | onward met rest ih =>
    cases second with
    | onward met' rest' =>
      cases met.symm.trans met'
      exact ih rest'
    | call met' => cases met.symm.trans met'
  | call met within rest ihWithin ihRest =>
    cases second with
    | onward met' => cases met.symm.trans met'
    | call met' within' rest' =>
      cases met.symm.trans met'
      cases ihWithin within'
      exact ihRest rest'

end Pursues

private theorem exists_pursues (graph : ImportGraph) (purpose : Purpose) (depth : Nat) (targets : List Nat)
    (walk : Walk) : ∃ final, Pursues graph purpose depth targets walk final := by
  induction targets generalizing walk with
  | nil => exact ⟨walk, .nil purpose depth walk⟩
  | cons target targets ih =>
    cases met : purpose.meet depth walk target with
    | onward later =>
      obtain ⟨final, rest⟩ := ih later
      exact ⟨final, .onward met rest⟩
    | call inner later =>
      obtain ⟨middle, within, _⟩ := perform_pursues graph inner later.offPath target (depth + 1) later
        (Nat.le_refl _) (meets met).arrives_after
      obtain ⟨final, rest⟩ := ih (middle.leave target)
      exact ⟨final, .call met within rest⟩

/-- All arrays of a walk have one place for each of a number of nodes. -/
structure Walk.Sized (size : Nat) (walk : Walk) : Prop where
  onPath : walk.onPath.size = size
  explored : walk.explored.size = size
  direct : walk.direct.size = size
  depth : walk.depth.size = size

namespace Walk.Sized

variable {size : Nat} {walk : Walk}

theorem start (size : Nat) : (Walk.start size).Sized size := by
  constructor <;> simp [Walk.start]

theorem opens (sized : walk.Sized size) (purpose : Purpose) (node : Nat) :
    (purpose.opens node walk).Sized size := by
  obtain ⟨onPath, explored, direct, depth⟩ := sized
  cases purpose <;> constructor <;> simpa [Purpose.opens, Walk.enter, Walk.explore]

private theorem leave (sized : walk.Sized size) (node : Nat) : (walk.leave node).Sized size :=
  { sized with onPath := by simpa [Walk.leave] using sized.onPath }

theorem turn {purpose : Purpose} {depth target : Nat} {turn : Turn} (sized : walk.Sized size)
    (meeting : Meets depth target walk purpose turn) : turn.walk.Sized size := by
  obtain ⟨onPath, explored, direct, depths⟩ := sized
  cases meeting <;> constructor <;> simpa [Turn.walk, Walk.count, Walk.setDepth]

theorem lt_of_arrives {target : Nat} (sized : walk.Sized size) (arrives : walk.arrives target = true) :
    target < size := by
  have unmarked := (Walk.arrives_iff walk target).mp arrives
  exact sized.onPath ▸ (Array.getElem?_eq_some_iff.mp unmarked).1

private theorem meet? (sized : walk.Sized size) (purpose : Purpose) (depth target : Nat) :
    purpose.meet? depth walk target = some (purpose.meet depth walk target) := by
  generalize met : purpose.meet depth walk target = turn
  by_cases inside : target < size
  · have named : ¬ walk.onPath.size ≤ target := by
      rw [sized.onPath]
      exact Nat.not_le.mpr inside
    have onPath : walk.onPath[target]? = some (!walk.arrives target) := by
      simp [Walk.arrives, sized.onPath, inside]
    have explored : (walk.count target).explored[target]? = some (walk.isExplored target) := by
      simp [Walk.count, Walk.isExplored, sized.explored, inside]
    have depths : walk.depth[target]? = some (walk.depthOf target) := by
      simp [Walk.depthOf, sized.depth, inside]
    have depthsAfter : (walk.count target).depth[target]? = some (walk.depthOf target) := depths
    have roomDirect : target < walk.direct.size := sized.direct ▸ inside
    have roomDepth : target < (walk.count target).depth.size := sized.depth ▸ inside
    simp only [Purpose.meet?, if_neg named, onPath, explored, depths, depthsAfter, roomDirect, roomDepth,
      guard, Option.bind_eq_bind, Option.bind_some]
    cases meets met with
    | pass stays => simp [stays]
    | explore arrives fresh => simp [arrives, fresh]
    | deepen arrives known deeper => simp [arrives, known, deeper]
    | count arrives known shallow => simp [arrives, known, shallow]
    | skip stays =>
      cases arrives : walk.arrives target with
      | false => simp
      | true =>
        have shallow : ¬ walk.depthOf target < depth + 1 := fun deeper => stays ⟨arrives, deeper⟩
        simp [shallow]
    | push arrives deeper => simp [arrives, deeper]
  · -- a number that names no node is told by the size of the first array alone
    have beyond : walk.onPath.size ≤ target := sized.onPath ▸ Nat.not_lt.mp inside
    have stays : walk.arrives target = false := by simp [Walk.arrives, beyond]
    subst met
    cases purpose <;> simp [Purpose.meet?, Purpose.meet, beyond, stays]

end Walk.Sized

theorem Walk.Sized.enter? {graph : ImportGraph} {purpose : Purpose} {size node depth : Nat}
    {calls : List Call} {walk : Walk} (sized : walk.Sized size) (inside : node < size) :
    graph.enter? purpose node depth calls walk =
      some ⟨⟨purpose, node, depth, walk, graph.imports node⟩ :: calls, purpose.opens node walk⟩ := by
  simp [ImportGraph.enter?, guard, sized.onPath, sized.explored, inside]

inductive Advances (graph : ImportGraph) : Execution → Execution → Prop where
  | leave {call : Call} {calls : List Call} {walk : Walk} (done : call.rest = []) :
      Advances graph ⟨call :: calls, walk⟩ ⟨calls, walk.leave call.node⟩
  | onward {call : Call} {calls : List Call} {walk later : Walk} {target : Nat} {rest : List Nat}
      (next : call.rest = target :: rest)
      (met : call.purpose.meet call.depth walk target = .onward later) :
      Advances graph ⟨call :: calls, walk⟩ ⟨{ call with rest := rest } :: calls, later⟩
  | call {call : Call} {calls : List Call} {walk later : Walk} {target : Nat} {rest : List Nat}
      {inner : Purpose} (next : call.rest = target :: rest)
      (met : call.purpose.meet call.depth walk target = .call inner later) :
      Advances graph ⟨call :: calls, walk⟩
        ⟨⟨inner, target, call.depth + 1, later, graph.imports target⟩ ::
          { call with rest := rest } :: calls, inner.opens target later⟩

theorem exists_advances (graph : ImportGraph) (call : Call) (calls : List Call) (walk : Walk) :
    ∃ next, Advances graph ⟨call :: calls, walk⟩ next := by
  cases next : call.rest with
  | nil => exact ⟨_, .leave next⟩
  | cons target rest =>
    cases met : call.purpose.meet call.depth walk target with
    | onward later => exact ⟨_, .onward next met⟩
    | call inner later => exact ⟨_, .call next met⟩

/-- There is a place in every array for each of a number of nodes, and all calls are at such nodes. -/
structure Execution.Placed (size : Nat) (now : Execution) : Prop where
  sized : now.walk.Sized size
  nodes : ∀ call ∈ now.calls, call.node < size

namespace Execution.Placed

variable {graph : ImportGraph} {size : Nat} {now next later : Execution}

theorem step_of_advances (placed : now.Placed size) (advance : Advances graph now next) :
    graph.step now = some next := by
  cases advance with
  | @leave call calls walk done =>
    have inside : call.node < walk.onPath.size := placed.sized.onPath ▸ placed.nodes call (by simp)
    simp [step, done, guard, inside]
  | onward next met => simp [step, next, placed.sized.meet?, met]
  | @call call calls walk later target rest inner next met =>
    have noted : later.Sized size := placed.sized.turn (meets met)
    have inside := placed.sized.lt_of_arrives (meets met).arrives
    simpa [step, next, placed.sized.meet?, met] using noted.enter? inside

theorem step_eq_none_iff (placed : now.Placed size) : graph.step now = none ↔ now.calls = [] := by
  obtain ⟨calls, walk⟩ := now
  cases calls with
  | nil => simp [step]
  | cons call calls =>
    obtain ⟨next, advance⟩ := exists_advances graph call calls walk
    simp [placed.step_of_advances advance]

theorem advances_of_step (placed : now.Placed size) (stepped : graph.step now = some next) :
    Advances graph now next := by
  obtain ⟨calls, walk⟩ := now
  cases calls with
  | nil => simp [step] at stepped
  | cons call calls =>
    obtain ⟨other, advance⟩ := exists_advances graph call calls walk
    rw [placed.step_of_advances advance] at stepped
    cases stepped
    exact advance

theorem advance (placed : now.Placed size) (advance : Advances graph now next) : next.Placed size := by
  obtain ⟨sized, nodes⟩ := placed
  cases advance with
  | leave done => exact ⟨sized.leave _, fun call member => nodes call (List.mem_cons_of_mem _ member)⟩
  | onward next met =>
    refine ⟨sized.turn (meets met), ?_⟩
    simpa using nodes
  | call next met =>
    have noted := sized.turn (meets met)
    have inside := sized.lt_of_arrives (meets met).arrives
    refine ⟨noted.opens _ _, ?_⟩
    simpa [inside] using nodes

theorem reaches (placed : now.Placed size) (reached : StateTransition.Reaches graph.step now later) :
    later.Placed size := by
  induction reached with
  | refl => exact placed
  | tail _ stepped ih => exact ih.advance (ih.advances_of_step stepped)

theorem head (placed : now.Placed size) (advance : Advances graph now next)
    (onward : next.Placed size → StateTransition.Reaches graph.step next later) :
    StateTransition.Reaches graph.step now later :=
  .head (placed.step_of_advances advance) (onward (placed.advance advance))

end Execution.Placed

private theorem Pursues.reaches {graph : ImportGraph} {purpose : Purpose} {size node depth : Nat}
    {targets : List Nat} {before walk final : Walk} {calls : List Call}
    (pursued : Pursues graph purpose depth targets walk final)
    (placed : Execution.Placed size ⟨⟨purpose, node, depth, before, targets⟩ :: calls, walk⟩) :
    StateTransition.Reaches graph.step ⟨⟨purpose, node, depth, before, targets⟩ :: calls, walk⟩
      ⟨⟨purpose, node, depth, before, []⟩ :: calls, final⟩ := by
  -- the inner call runs above this one, so the induction is general in the calls below
  induction pursued generalizing node before calls with
  | nil => exact .refl
  | onward met rest ih => exact placed.head (.onward rfl met) ih
  | call met within rest ihWithin ihRest =>
    refine placed.head (.call rfl met) fun entered => ?_
    have reached := ihWithin entered
    refine reached.trans ?_
    exact (entered.reaches reached).head (.leave rfl) ihRest

/-- Every call in progress comes to the point where it has followed all imports of its node. -/
theorem Execution.Placed.exhausts (graph : ImportGraph) {size : Nat} {above below : List Call}
    {call : Call} {walk : Walk} (placed : Execution.Placed size ⟨above ++ call :: below, walk⟩) :
    ∃ final, StateTransition.Reaches graph.step ⟨above ++ call :: below, walk⟩
      ⟨{ call with rest := [] } :: below, final⟩ := by
  induction above generalizing walk with
  | nil =>
    obtain ⟨final, pursued⟩ := exists_pursues graph call.purpose call.depth call.rest walk
    exact ⟨final, pursued.reaches placed⟩
  | cons top above ih =>
    obtain ⟨middle, pursued⟩ := exists_pursues graph top.purpose top.depth top.rest walk
    have reached := pursued.reaches placed
    have ended := placed.reaches reached
    have left : Advances graph ⟨{ top with rest := [] } :: (above ++ call :: below), middle⟩ _ :=
      .leave rfl
    obtain ⟨final, onward⟩ := ih (ended.advance left)
    exact ⟨final, reached.trans (ended.head left fun _ => onward)⟩

end CrateAtlas.ImportGraph
