import CrateAtlas.Graph.Walk
import Mathlib.Data.List.Basic

/-!
The walk as a derivation. Exploring a node follows its edges one after the other; each of them is
passed over, explores its target, pushes a greater depth through it, or only counts. As in the cycle
search, what holds of a walk is shown by induction over such derivations, without fuel. A call that
explores and one that pushes a depth are the same loop, which differs in what comes of an edge.
-/

namespace CrateAtlas.ImportGraph

inductive Deepens (graph : ImportGraph) : Nat → List Nat → Walk → Walk → Prop where
  | nil (depth : Nat) (walk : Walk) : Deepens graph depth [] walk walk
  | pass {depth target : Nat} {targets : List Nat} {walk final : Walk}
      (stays : ¬ (walk.arrives target = true ∧ walk.depthOf target < depth + 1))
      (rest : Deepens graph depth targets walk final) :
      Deepens graph depth (target :: targets) walk final
  | push {depth target : Nat} {targets : List Nat} {walk middle final : Walk}
      (arrives : walk.arrives target = true) (deeper : walk.depthOf target < depth + 1)
      (inner : Deepens graph (depth + 1) (graph.imports target)
        ((walk.setDepth target (depth + 1)).enter target) middle)
      (rest : Deepens graph depth targets (middle.leave target) final) :
      Deepens graph depth (target :: targets) walk final

inductive Walks (graph : ImportGraph) : Nat → List Nat → Walk → Walk → Prop where
  | nil (depth : Nat) (walk : Walk) : Walks graph depth [] walk walk
  | pass {depth target : Nat} {targets : List Nat} {walk final : Walk}
      (stays : walk.arrives target = false) (rest : Walks graph depth targets walk final) :
      Walks graph depth (target :: targets) walk final
  | explore {depth target : Nat} {targets : List Nat} {walk middle final : Walk}
      (arrives : walk.arrives target = true) (fresh : walk.isExplored target = false)
      (inner : Walks graph (depth + 1) (graph.imports target)
        ((((walk.count target).setDepth target (depth + 1)).enter target).explore target) middle)
      (rest : Walks graph depth targets (middle.leave target) final) :
      Walks graph depth (target :: targets) walk final
  | deepen {depth target : Nat} {targets : List Nat} {walk middle final : Walk}
      (arrives : walk.arrives target = true) (known : walk.isExplored target = true)
      (deeper : walk.depthOf target < depth + 1)
      (inner : Deepens graph (depth + 1) (graph.imports target)
        (((walk.count target).setDepth target (depth + 1)).enter target) middle)
      (rest : Walks graph depth targets (middle.leave target) final) :
      Walks graph depth (target :: targets) walk final
  | meet {depth target : Nat} {targets : List Nat} {walk final : Walk}
      (arrives : walk.arrives target = true) (known : walk.isExplored target = true)
      (shallow : ¬ walk.depthOf target < depth + 1)
      (rest : Walks graph depth targets (walk.count target) final) :
      Walks graph depth (target :: targets) walk final

namespace Walk

def offPath (walk : Walk) : Nat :=
  walk.onPath.count false

theorem arrives_iff (walk : Walk) (target : Nat) :
    walk.arrives target = true ↔ walk.onPath[target]? = some false := by
  simp only [arrives, Array.getD_eq_getD_getElem?]
  cases walk.onPath[target]? with
  | none => simp
  | some mark => cases mark <;> simp

private theorem offPath_enter {walk : Walk} {target : Nat} (arrives : walk.arrives target = true) :
    (walk.enter target).offPath + 1 = walk.offPath := by
  obtain ⟨inside, unmarked⟩ := Array.getElem?_eq_some_iff.mp ((arrives_iff walk target).mp arrives)
  have positive : 0 < walk.onPath.count false :=
    Array.count_pos_iff.mpr (unmarked ▸ Array.getElem_mem inside)
  simp only [offPath, enter, Array.setIfInBounds, inside, dite_true]
  rw [Array.count_set inside, unmarked]
  simp
  omega

theorem leave_enter_onPath {walk middle : Walk} {target : Nat} (arrives : walk.arrives target = true)
    (kept : middle.onPath = (walk.enter target).onPath) :
    (middle.leave target).onPath = walk.onPath := by
  obtain ⟨inside, unmarked⟩ := Array.getElem?_eq_some_iff.mp ((arrives_iff walk target).mp arrives)
  simp only [leave, kept, enter]
  apply Array.ext_getElem?
  intro other
  by_cases same : target = other
  · subst same
    simp [inside, unmarked]
  · simp [same]

end Walk

theorem count_direct (walk : Walk) {target : Nat} (inside : target < walk.direct.size) (node : Nat) :
    (walk.count target).direct.getD node 0 =
      walk.direct.getD node 0 + if target = node then 1 else 0 := by
  simp only [Walk.count, Array.getD_eq_getD_getElem?]
  by_cases same : target = node
  · subst same
    simp [inside]
  · simp [same]

/-- Pushing depths leaves the path, the explored nodes and the counts as they are. -/
theorem deepens_frame {graph : ImportGraph} {depth : Nat} {targets : List Nat} {walk final : Walk}
    (deepened : Deepens graph depth targets walk final) :
    final.onPath = walk.onPath ∧ final.explored = walk.explored ∧ final.direct = walk.direct := by
  induction deepened with
  | nil depth walk => exact ⟨rfl, rfl, rfl⟩
  | pass stays rest ih => exact ih
  | @push depth target targets walk middle final arrives deeper inner rest ihInner ihRest =>
    obtain ⟨path, explored, direct⟩ := ihInner
    obtain ⟨pathRest, exploredRest, directRest⟩ := ihRest
    exact ⟨pathRest.trans (Walk.leave_enter_onPath arrives path), exploredRest.trans explored,
      directRest.trans direct⟩

private theorem walks_onPath {graph : ImportGraph} {depth : Nat} {targets : List Nat} {walk final : Walk}
    (walked : Walks graph depth targets walk final) : final.onPath = walk.onPath := by
  induction walked with
  | nil depth walk => rfl
  | pass stays rest ih => exact ih
  | explore arrives fresh inner rest ihInner ihRest =>
    exact ihRest.trans (Walk.leave_enter_onPath arrives ihInner)
  | deepen arrives known deeper inner rest ih =>
    exact ih.trans (Walk.leave_enter_onPath arrives (deepens_frame inner).1)
  | meet arrives known shallow rest ih => exact ih

inductive Purpose where
  | visit
  | deepen
  deriving DecidableEq, Repr

/-- What comes of an import: its call goes on to the next one, or makes a call at the target first. -/
inductive Turn where
  | onward (walk : Walk)
  | call (purpose : Purpose) (walk : Walk)

def Turn.walk : Turn → Walk
  | onward walk => walk
  | call _ walk => walk

namespace Purpose

def opens (purpose : Purpose) (node : Nat) (walk : Walk) : Walk :=
  match purpose with
  | .visit => (walk.enter node).explore node
  | .deepen => walk.enter node

def meet (purpose : Purpose) (depth : Nat) (walk : Walk) (target : Nat) : Turn :=
  match purpose with
  | .visit =>
    if walk.arrives target then
      let walk := walk.count target
      if !walk.isExplored target then .call .visit (walk.setDepth target (depth + 1))
      else if walk.depthOf target < depth + 1 then .call .deepen (walk.setDepth target (depth + 1))
      else .onward walk
    else .onward walk
  | .deepen =>
    if walk.arrives target && decide (walk.depthOf target < depth + 1) then
      .call .deepen (walk.setDepth target (depth + 1))
    else .onward walk

end Purpose

@[simp] theorem Walk.isExplored_count (walk : Walk) (target node : Nat) :
    (walk.count target).isExplored node = walk.isExplored node := rfl

@[simp] theorem Walk.depthOf_count (walk : Walk) (target node : Nat) :
    (walk.count target).depthOf node = walk.depthOf node := rfl

/-- The six things that can come of an import. -/
inductive Meets (depth target : Nat) (walk : Walk) : Purpose → Turn → Prop where
  | pass (stays : walk.arrives target = false) : Meets depth target walk .visit (.onward walk)
  | explore (arrives : walk.arrives target = true) (fresh : walk.isExplored target = false) :
      Meets depth target walk .visit (.call .visit ((walk.count target).setDepth target (depth + 1)))
  | deepen (arrives : walk.arrives target = true) (known : walk.isExplored target = true)
      (deeper : walk.depthOf target < depth + 1) :
      Meets depth target walk .visit (.call .deepen ((walk.count target).setDepth target (depth + 1)))
  | count (arrives : walk.arrives target = true) (known : walk.isExplored target = true)
      (shallow : ¬ walk.depthOf target < depth + 1) :
      Meets depth target walk .visit (.onward (walk.count target))
  | skip (stays : ¬ (walk.arrives target = true ∧ walk.depthOf target < depth + 1)) :
      Meets depth target walk .deepen (.onward walk)
  | push (arrives : walk.arrives target = true) (deeper : walk.depthOf target < depth + 1) :
      Meets depth target walk .deepen (.call .deepen (walk.setDepth target (depth + 1)))

theorem meets {purpose : Purpose} {depth target : Nat} {walk : Walk} {turn : Turn}
    (met : purpose.meet depth walk target = turn) : Meets depth target walk purpose turn := by
  subst met
  cases purpose with
  | visit =>
    simp only [Purpose.meet]
    split
    next arrives =>
      split
      next fresh => exact .explore arrives (by simpa using fresh)
      next known =>
        have known : walk.isExplored target = true := by simpa using known
        split
        next deeper => exact .deepen arrives known deeper
        next shallow => exact .count arrives known shallow
    next stays => exact .pass (by simpa using stays)
  | deepen =>
    simp only [Purpose.meet]
    split
    next goes =>
      obtain ⟨arrives, deeper⟩ : walk.arrives target = true ∧ walk.depthOf target < depth + 1 := by
        simpa using goes
      exact .push arrives deeper
    next stays => exact .skip (by simpa using stays)

namespace Meets

variable {purpose inner : Purpose} {depth target : Nat} {walk later : Walk} {turn : Turn}

theorem onPath (meeting : Meets depth target walk purpose turn) : turn.walk.onPath = walk.onPath := by
  cases meeting <;> rfl

theorem arrives (meeting : Meets depth target walk purpose (.call inner later)) :
    walk.arrives target = true := by
  cases meeting <;> assumption

theorem arrives_after (meeting : Meets depth target walk purpose (.call inner later)) :
    later.arrives target = true := by
  have kept : later.onPath = walk.onPath := meeting.onPath
  rw [Walk.arrives, kept]
  exact meeting.arrives

theorem depthOf_onward (meeting : Meets depth target walk purpose (.onward later)) (node : Nat) :
    later.depthOf node = walk.depthOf node := by
  cases meeting <;> rfl

/-- A call that pushes a depth makes only such calls, and neither explores nor counts. -/
theorem pushes (meeting : Meets depth target walk purpose (.call inner later))
    (deepens : purpose = .deepen) :
    inner = .deepen ∧ later.explored = walk.explored ∧ later.direct = walk.direct := by
  subst deepens
  cases meeting with
  | push => exact ⟨rfl, rfl, rfl⟩

end Meets

def perform (graph : ImportGraph) (purpose : Purpose) (fuel node depth : Nat) (walk : Walk) : Walk :=
  match purpose with
  | .visit => graph.visit fuel node depth walk
  | .deepen => graph.deepen fuel node depth walk

def follow (graph : ImportGraph) (purpose : Purpose) (fuel depth : Nat) (walk : Walk) (target : Nat) :
    Walk :=
  match purpose.meet depth walk target with
  | .onward later => later
  | .call inner later => graph.perform inner fuel target (depth + 1) later

/-- A call opens its node, follows its imports in turn, and leaves it. -/
theorem perform_succ (graph : ImportGraph) (purpose : Purpose) (fuel node depth : Nat) (walk : Walk) :
    graph.perform purpose (fuel + 1) node depth walk =
      ((graph.imports node).foldl (graph.follow purpose fuel depth) (purpose.opens node walk)).leave
        node := by
  cases purpose
  all_goals
    simp only [perform, visit, deepen, Purpose.opens]
    congr 2
    funext walk target
    simp only [follow, Purpose.meet]
    split_ifs <;> rfl

/-- Following imports, as a call of a purpose at a depth does, takes a walk from one state to another. -/
inductive Pursues (graph : ImportGraph) : Purpose → Nat → List Nat → Walk → Walk → Prop where
  | nil (purpose : Purpose) (depth : Nat) (walk : Walk) : Pursues graph purpose depth [] walk walk
  | onward {purpose : Purpose} {depth target : Nat} {targets : List Nat} {walk later final : Walk}
      (met : purpose.meet depth walk target = .onward later)
      (rest : Pursues graph purpose depth targets later final) :
      Pursues graph purpose depth (target :: targets) walk final
  | call {purpose inner : Purpose} {depth target : Nat} {targets : List Nat}
      {walk later middle final : Walk} (met : purpose.meet depth walk target = .call inner later)
      (within : Pursues graph inner (depth + 1) (graph.imports target) (inner.opens target later) middle)
      (rest : Pursues graph purpose depth targets (middle.leave target) final) :
      Pursues graph purpose depth (target :: targets) walk final

namespace Pursues

variable {graph : ImportGraph} {purpose : Purpose} {depth : Nat} {targets : List Nat}
  {walk final : Walk}

theorem deepens (pursued : Pursues graph .deepen depth targets walk final) :
    Deepens graph depth targets walk final := by
  generalize same : Purpose.deepen = purpose at pursued
  induction pursued with
  | nil purpose depth walk => exact .nil depth walk
  | onward met rest ih =>
    subst same
    cases meets met with
    | skip stays => exact .pass stays (ih rfl)
  | call met within rest ihWithin ihRest =>
    subst same
    cases meets met with
    | push arrives deeper => exact .push arrives deeper (ihWithin rfl) (ihRest rfl)

theorem walks (pursued : Pursues graph .visit depth targets walk final) :
    Walks graph depth targets walk final := by
  generalize same : Purpose.visit = purpose at pursued
  induction pursued with
  | nil purpose depth walk => exact .nil depth walk
  | onward met rest ih =>
    subst same
    cases meets met with
    | pass stays => exact .pass stays (ih rfl)
    | count arrives known shallow => exact .meet arrives known shallow (ih rfl)
  | call met within rest ihWithin ihRest =>
    subst same
    cases meets met with
    | explore arrives fresh => exact .explore arrives fresh (ihWithin rfl) (ihRest rfl)
    | deepen arrives known deeper => exact .deepen arrives known deeper within.deepens (ihRest rfl)

theorem leave_onPath {node : Nat}
    (pursued : Pursues graph purpose depth targets (purpose.opens node walk) final)
    (arrives : walk.arrives node = true) : (final.leave node).onPath = walk.onPath := by
  cases purpose with
  | visit =>
    have kept := walks_onPath pursued.walks
    exact Walk.leave_enter_onPath arrives kept
  | deepen =>
    have kept := (deepens_frame pursued.deepens).1
    exact Walk.leave_enter_onPath arrives kept

end Pursues

/-- With fuel for every node that is not on the path, a call follows all imports of its node. -/
theorem perform_pursues (graph : ImportGraph) (purpose : Purpose) (fuel node depth : Nat) (walk : Walk)
    (enough : walk.offPath ≤ fuel) (arrives : walk.arrives node = true) :
    ∃ final, Pursues graph purpose depth (graph.imports node) (purpose.opens node walk) final ∧
      graph.perform purpose fuel node depth walk = final.leave node := by
  have entered := Walk.offPath_enter arrives
  induction fuel generalizing purpose node depth walk with
  | zero => omega
  | succ fuel ih =>
    refine ⟨_, ?_, perform_succ graph purpose fuel node depth walk⟩
    have bound : (purpose.opens node walk).offPath ≤ fuel := by
      have same : (purpose.opens node walk).offPath = (walk.enter node).offPath := by
        cases purpose <;> rfl
      omega
    -- the loop keeps the path, so that the fuel left is enough for every call that it makes
    generalize purpose.opens node walk = walk at bound
    generalize graph.imports node = targets
    clear enough arrives entered
    induction targets generalizing walk with
    | nil => exact .nil purpose depth walk
    | cons target targets ihTargets =>
      rw [List.foldl_cons]
      cases met : purpose.meet depth walk target with
      | onward later =>
        have kept : later.onPath = walk.onPath := (meets met).onPath
        have onward : graph.follow purpose fuel depth walk target = later := by simp only [follow, met]
        rw [onward]
        exact .onward met (ihTargets later (by simpa [Walk.offPath, kept] using bound))
      | call inner later =>
        have kept : later.onPath = walk.onPath := (meets met).onPath
        have arrives := (meets met).arrives_after
        obtain ⟨middle, within, computed⟩ := ih inner target (depth + 1) later
          (by simpa [Walk.offPath, kept] using bound) arrives (Walk.offPath_enter arrives)
        have called : graph.follow purpose fuel depth walk target = middle.leave target := by
          simp only [follow, met, computed]
        have restored := (within.leave_onPath arrives).trans kept
        rw [called]
        exact .call met within (ihTargets _ (by simpa [Walk.offPath, restored] using bound))

theorem walkFrom_eq_perform {graph : ImportGraph} {entry : Nat} (inside : entry < graph.size) :
    graph.walkFrom entry = graph.perform .visit graph.size entry 0 (Walk.start graph.size) := by
  simp [walkFrom, perform, inside]

theorem Walk.start_offPath (size : Nat) : (Walk.start size).offPath = size := by
  simp [offPath, start]

theorem Walk.start_arrives {size node : Nat} (inside : node < size) :
    (Walk.start size).arrives node = true := by
  simp [arrives, start, inside]

theorem walkFrom_walks (graph : ImportGraph) (entry : Nat) (inside : entry < graph.size) :
    ∃ final, Walks graph 0 (graph.imports entry)
        (((Walk.start graph.size).enter entry).explore entry) final ∧
      graph.walkFrom entry = final.leave entry := by
  obtain ⟨final, pursued, computed⟩ := perform_pursues graph .visit graph.size entry 0 _
    (Nat.le_of_eq (Walk.start_offPath graph.size)) (Walk.start_arrives inside)
  exact ⟨final, pursued.walks, (walkFrom_eq_perform inside).trans computed⟩

end CrateAtlas.ImportGraph
