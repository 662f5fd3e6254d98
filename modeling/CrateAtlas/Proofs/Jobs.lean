import CrateAtlas.Graph.Discovery
import Mathlib.Algebra.Order.Group.Multiset
import Mathlib.Tactic.Abel
import Mathlib.Logic.Relation

/-!
Discovery by many workers. The files of a project are processed by jobs that start further jobs for
what they import and wait for them. Every operation on the registry and on the warnings is one step,
and the steps of different jobs may follow one another in any order. Discovery from left to right is
one of these orders.
-/

namespace CrateAtlas

/-- What remains to be done for an import, or for the entry file: to claim its number, to look up the
path of a claimed number, to parse the file, to resolve the rest of its specifiers, to wait for what
it imports, to note its history, to report that it has been given up. -/
inductive Job where
  | visit (index : Nat)
  | claimed (index : Nat)
  | parse (index : Nat) (path : Path)
  | resolve (index : Nat) (path : Path) (outline : FileOutline) (edges : Edges) (rest : List String)
  | follow (index : Nat) (path : Path) (children : List Job)
  | conclude (index : Nat) (path : Path) (result : Except SourceError Unit)
  | report (index : Nat) (path : Path) (error : SourceError)
  | done

namespace Job

/-- A job's own next step. A job that has started others takes one when all of these are done. The
history of a file is asked for with the file itself; the answer depends on nothing else. -/
inductive Advance (around : Surroundings) : Job → Discovery → Job → Discovery → Prop where
  | skip {index : Nat} {state : Discovery} (taken : (state.registry.claim index).1 = false) :
      Advance around (.visit index) state .done
        { state with registry := (state.registry.claim index).2 }
  | claim {index : Nat} {state : Discovery} (first : (state.registry.claim index).1 = true) :
      Advance around (.visit index) state (.claimed index)
        { state with registry := (state.registry.claim index).2 }
  | lookup {index : Nat} {path : Path} {state : Discovery}
      (known : state.registry.pathOf? index = some path) :
      Advance around (.claimed index) state (.parse index path) state
  | lose {index : Nat} {state : Discovery} (unknown : state.registry.pathOf? index = none) :
      Advance around (.claimed index) state .done state
  | read {index : Nat} {path : Path} {outline : FileOutline} {state : Discovery}
      (parsed : around.parse path = .ok outline) :
      Advance around (.parse index path) state
        (.resolve index path outline ⟨[], []⟩ (Discovery.followed outline))
        ((state.askHistory around path).ask (.parse path))
  | giveUp {index : Nat} {path : Path} {error : SourceError} {state : Discovery}
      (failed : around.parse path = .error error) :
      Advance around (.parse index path) state (.conclude index path (.error error))
        ((state.askHistory around path).ask (.parse path))
  | resolve (index : Nat) (path : Path) (outline : FileOutline) (edges : Edges) (specifier : String)
      (rest : List String) (state : Discovery) :
      Advance around (.resolve index path outline edges (specifier :: rest)) state
        (.resolve index path outline
          (Discovery.resolveOne around path (edges, state) specifier).1 rest)
        (Discovery.resolveOne around path (edges, state) specifier).2
  | note (index : Nat) (path : Path) (outline : FileOutline) (edges : Edges) (state : Discovery) :
      Advance around (.resolve index path outline edges []) state
        (.follow index path (edges.imports.map .visit)) (state.note around index outline edges)
  | join {index : Nat} {path : Path} {children : List Job} {state : Discovery}
      (finished : ∀ child ∈ children, child = .done) :
      Advance around (.follow index path children) state (.conclude index path (.ok ())) state
  | succeed (index : Nat) (path : Path) (state : Discovery) :
      Advance around (.conclude index path (.ok ())) state .done
        (state.recordHistory around index path)
  | fail (index : Nat) (path : Path) (error : SourceError) (state : Discovery) :
      Advance around (.conclude index path (.error error)) state (.report index path error)
        (state.recordHistory around index path)
  | report (index : Nat) (path : Path) (error : SourceError) (state : Discovery) :
      Advance around (.report index path error) state .done
        (state.warn (.parseError path error.message))

/-- A step of a job or of one that it has started, directly or not. -/
inductive Step (around : Surroundings) : Job → Discovery → Job → Discovery → Prop where
  | own {job next : Job} {state later : Discovery} (moved : Advance around job state next later) :
      Step around job state next later
  | child {index : Nat} {path : Path} {before after : List Job} {job next : Job}
      {state later : Discovery} (moved : Step around job state next later) :
      Step around (.follow index path (before ++ job :: after)) state
        (.follow index path (before ++ next :: after)) later

def Returned : Job → Prop
  | report _ _ _ => True
  | done => True
  | _ => False

def BuildStep (around : Surroundings) (before after : Job × Discovery) : Prop :=
  ¬ before.1.Returned ∧ Step around before.1 before.2 after.1 after.2

def begun (entry : Path) : Discovery :=
  { Discovery.start with
    registry := ((Discovery.start.intern entry).2.registry.claim (Discovery.start.intern entry).1).2 }

def Interleaves (around : Surroundings) (entry : Path) (root : Job) (state : Discovery) : Prop :=
  Relation.ReflTransGen (BuildStep around) (.parse 0 entry, begun entry) (root, state)

def outcome (entry : Path) (root : Job) (state : Discovery) : Except EntryError Findings :=
  match root with
  | report _ _ cause =>
    if cause.isUnreadable then .error ⟨entry, cause⟩
    else .ok ⟨state.registry.nodes, (state.warn (.parseError entry cause.message)).warnings⟩
  | _ => .ok ⟨state.registry.nodes, state.warnings⟩

mutual

/-- The jobs that are at work: a job itself, without those it has started, and all of these. -/
def active : Job → Multiset Job
  | follow index path children => follow index path [] ::ₘ activeAll children
  | visit index => {visit index}
  | claimed index => {claimed index}
  | parse index path => {parse index path}
  | resolve index path outline edges rest => {resolve index path outline edges rest}
  | conclude index path result => {conclude index path result}
  | report index path error => {report index path error}
  | done => 0

def activeAll : List Job → Multiset Job
  | [] => 0
  | job :: rest => job.active + activeAll rest

end

private theorem activeAll_append (first second : List Job) :
    activeAll (first ++ second) = activeAll first + activeAll second := by
  induction first with
  | nil => simp [activeAll]
  | cons job rest ih => simp [activeAll, ih, add_assoc]

private theorem activeAll_done {children : List Job} (finished : ∀ child ∈ children, child = .done) :
    activeAll children = 0 := by
  induction children with
  | nil => rfl
  | cons job rest ih =>
    have others : ∀ child ∈ rest, child = .done := fun child member => finished child (by simp [member])
    rw [activeAll, finished job List.mem_cons_self, ih others]
    rfl

theorem activeAll_visits (imports : List Nat) :
    activeAll (imports.map .visit) = (imports : Multiset Nat).map .visit := by
  induction imports with
  | nil => rfl
  | cons index rest ih => simp [activeAll, active, ih, ← Multiset.cons_coe]

/-- Every step replaces one job at work by others and leaves the rest alone. -/
theorem step_active {around : Surroundings} {job next : Job} {state later : Discovery}
    (moved : Step around job state next later) :
    ∃ part result rest, Advance around part state result later ∧
      job.active = part ::ₘ rest ∧ next.active = result.active + rest := by
  induction moved with
  | @own job next state later moved =>
    cases job with
    | done => cases moved
    | follow index path children =>
      cases moved with
      | join finished =>
        refine ⟨.follow index path [], .conclude index path (.ok ()), 0, .join (by simp), ?_, ?_⟩
        · rw [active, activeAll_done finished]
        · simp
    | _ => exact ⟨_, next, 0, moved, by simp [active], by simp⟩
  | @child index path before after job next state later moved ih =>
    obtain ⟨part, result, rest, advanced, was, is⟩ := ih
    refine ⟨part, result, .follow index path [] ::ₘ (activeAll before + rest + activeAll after),
      advanced, ?_, ?_⟩
    · simp only [active, activeAll_append, activeAll, was, ← Multiset.singleton_add]
      abel
    · simp only [active, activeAll_append, activeAll, is, ← Multiset.singleton_add]
      abel

/-- What every step of a build keeps is kept by the whole of it. -/
theorem build_induction {around : Surroundings} (kept : Job → Discovery → Prop)
    (steps : ∀ job state next later, ¬ job.Returned → Step around job state next later →
      kept job state → kept next later) {job next : Job} {state later : Discovery}
    (built : Relation.ReflTransGen (BuildStep around) (job, state) (next, later))
    (holds : kept job state) : kept next later := by
  have all (config : Job × Discovery)
      (reached : Relation.ReflTransGen (BuildStep around) (job, state) config) :
      kept config.1 config.2 := by
    induction reached with
    | refl => exact holds
    | tail _ moved ih => exact steps _ _ _ _ moved.1 moved.2 ih
  exact all (next, later) built

section Sequential

open Relation

variable {around : Surroundings}

def returning (index : Nat) (path : Path) : Except SourceError Unit → Job
  | .ok () => .done
  | .error error => .report index path error

theorem Advance.build {job next : Job} {state later : Discovery} (working : ¬ job.Returned)
    (moved : Advance around job state next later) : BuildStep around (job, state) (next, later) :=
  ⟨working, .own moved⟩

private theorem Advance.inside {index : Nat} {path : Path} {job next : Job} {state later : Discovery}
    (before after : List Job) (moved : Advance around job state next later) :
    BuildStep around (.follow index path (before ++ job :: after), state)
      (.follow index path (before ++ next :: after), later) :=
  ⟨id, .child (.own moved)⟩

private theorem build_inside (index : Nat) (path : Path) {job next : Job} {state later : Discovery}
    (before after : List Job) (built : ReflTransGen (BuildStep around) (job, state) (next, later)) :
    ReflTransGen (BuildStep around) (.follow index path (before ++ job :: after), state)
      (.follow index path (before ++ next :: after), later) := by
  let embed (config : Job × Discovery) : Job × Discovery :=
    (.follow index path (before ++ config.1 :: after), config.2)
  exact ReflTransGen.lift embed (fun _ _ moved => ⟨id, .child moved.2⟩) _ _ built

private theorem resolve_build (index : Nat) (path : Path) (outline : FileOutline)
    (specifiers : List String) (edges : Edges) (state : Discovery) :
    ReflTransGen (BuildStep around) (.resolve index path outline edges specifiers, state)
      (.resolve index path outline
        (specifiers.foldl (Discovery.resolveOne around path) (edges, state)).1 [],
        (specifiers.foldl (Discovery.resolveOne around path) (edges, state)).2) := by
  induction specifiers generalizing edges state with
  | nil => exact .refl
  | cons specifier rest ih =>
    exact .head (Advance.build id (.resolve index path outline edges specifier rest state)) (ih _ _)

def Builds (around : Surroundings)
    (process : Nat → Path → Discovery → Option (Except SourceError Unit × Discovery)) : Prop :=
  ∀ index path state result later, process index path state = some (result, later) →
    ReflTransGen (BuildStep around) (.parse index path, state) (returning index path result, later)

variable {process : Nat → Path → Discovery → Option (Except SourceError Unit × Discovery)}

theorem visit_build (processes : Builds around process) (index : Nat) (path : Path) {child : Nat}
    {state later : Discovery} (before after : List Job)
    (visited : Discovery.visit process state child = some later) :
    ReflTransGen (BuildStep around) (.follow index path (before ++ .visit child :: after), state)
      (.follow index path (before ++ .done :: after), later) := by
  unfold Discovery.visit at visited
  cases first : (state.registry.claim child).1 with
  | false =>
    simp only [first, Bool.false_eq_true, if_false, Option.some.injEq] at visited
    exact .single (visited ▸ Advance.inside before after (.skip first))
  | true =>
    simp only [first, if_true] at visited
    refine .head (Advance.inside before after (.claim first)) ?_
    generalize claimed : ({ state with registry := (state.registry.claim child).2 } : Discovery) =
      middle at visited ⊢
    have registry : (state.registry.claim child).2 = middle.registry := by rw [← claimed]
    rw [registry] at visited
    cases known : middle.registry.pathOf? child with
    | none =>
      simp only [known, Option.some.injEq] at visited
      exact .single (visited ▸ Advance.inside before after (.lose known))
    | some file =>
      simp only [known] at visited
      refine .head (Advance.inside before after (.lookup known)) ?_
      cases processed : process child file middle with
      | none => simp [processed] at visited
      | some answer =>
        obtain ⟨result, final⟩ := answer
        have worked := build_inside index path before after (processes _ _ _ _ _ processed)
        cases result with
        | ok value =>
          simp only [processed, Option.some.injEq] at visited
          exact visited ▸ worked
        | error error =>
          simp only [processed, Option.some.injEq] at visited
          exact worked.tail (visited ▸ Advance.inside before after (.report child file error final))

private theorem visits_build (processes : Builds around process) (index : Nat) (path : Path)
    (imports : List Nat) {state later : Discovery} (before : List Job)
    (finished : ∀ child ∈ before, child = .done)
    (visited : imports.foldlM (Discovery.visit process) state = some later) :
    ∃ children, (∀ child ∈ children, child = .done) ∧
      ReflTransGen (BuildStep around) (.follow index path (before ++ imports.map .visit), state)
        (.follow index path children, later) := by
  induction imports generalizing before state with
  | nil =>
    cases Option.some.inj visited
    exact ⟨before, finished, by simpa using .refl⟩
  | cons child rest ih =>
    rw [List.foldlM_cons] at visited
    obtain ⟨middle, first, others⟩ := Option.bind_eq_some_iff.mp visited
    have worked := visit_build processes index path before (rest.map .visit) first
    have finishedMore : ∀ job ∈ before ++ [.done], job = .done := by
      intro job member
      rcases List.mem_append.mp member with old | new
      · exact finished job old
      · exact List.mem_singleton.mp new
    obtain ⟨children, finishedAll, others⟩ := ih (before ++ [.done]) finishedMore others
    exact ⟨children, finishedAll, .trans (by simpa using worked) (by simpa using others)⟩

private theorem analyze_error {index : Nat} {path : Path} {error : SourceError} {state later : Discovery}
    (analyzed : state.analyze around index path = (.error error, later)) :
    around.parse path = .error error ∧ later = state.ask (.parse path) := by
  simp only [Discovery.analyze] at analyzed
  cases parsed : around.parse path with
  | ok outline => simp [parsed] at analyzed
  | error cause =>
    simp only [parsed, Prod.mk.injEq, Except.error.injEq] at analyzed
    exact ⟨by rw [analyzed.1], analyzed.2.symm⟩

theorem analyze_ok {index : Nat} {path : Path} {imports : List Nat} {state later : Discovery}
    (analyzed : state.analyze around index path = (.ok imports, later)) :
    ∃ outline, around.parse path = .ok outline := by
  simp only [Discovery.analyze] at analyzed
  cases parsed : around.parse path with
  | ok outline => exact ⟨outline, rfl⟩
  | error cause => simp [parsed] at analyzed

theorem analyze_build {index : Nat} {path : Path} {imports : List Nat} {state later : Discovery}
    (analyzed : (state.askHistory around path).analyze around index path = (.ok imports, later)) :
    ReflTransGen (BuildStep around) (.parse index path, state)
      (.follow index path (imports.map .visit), later) := by
  simp only [Discovery.analyze] at analyzed
  cases parsed : around.parse path with
  | error error => simp [parsed] at analyzed
  | ok outline =>
    simp only [parsed, Prod.mk.injEq, Except.ok.injEq] at analyzed
    obtain ⟨rfl, rfl⟩ := analyzed
    refine .head (Advance.build id (.read parsed)) ?_
    refine .trans (resolve_build index path outline (Discovery.followed outline) ⟨[], []⟩ _) ?_
    exact .single (Advance.build id (.note index path outline _ _))

/-- Processing a file, each import completely before the next, is one order of steps. -/
theorem process_build (fuel : Nat) : Builds around (Discovery.process around fuel) := by
  induction fuel with
  | zero =>
    intro index path state result later processed
    simp [Discovery.process] at processed
  | succ fuel ih =>
    intro index path state result later processed
    simp only [Discovery.process] at processed
    cases analyzed : (state.askHistory around path).analyze around index path with
    | mk answer middle =>
      rw [analyzed] at processed
      cases answer with
      | error error =>
        simp only [Option.some.injEq, Prod.mk.injEq] at processed
        obtain ⟨rfl, rfl⟩ := processed
        obtain ⟨failed, rfl⟩ := analyze_error analyzed
        exact .head (Advance.build id (.giveUp failed))
          (.single (Advance.build id (.fail index path error _)))
      | ok imports =>
        obtain ⟨final, visited, same⟩ := Option.map_eq_some_iff.mp processed
        cases same
        obtain ⟨children, finished, worked⟩ :=
          visits_build ih index path imports [] (by simp) visited
        refine .trans (analyze_build analyzed) (.trans worked ?_)
        refine .head (Advance.build id (.join finished)) ?_
        exact .single (Advance.build id (.succeed index path _))

theorem start_intern (entry : Path) :
    Discovery.start.intern entry = (0, ⟨⟨#[.ofPath entry], []⟩, [], []⟩) := by
  simp [Discovery.start, Discovery.intern, Registry.intern, Registry.find?, Registry.empty,
    Registry.size]

theorem begun_eq (entry : Path) : begun entry = ⟨⟨#[.ofPath entry], [0]⟩, [], []⟩ := by
  rw [begun, start_intern]
  simp [Registry.claim, Discovery.start]

/-- Discovery from left to right is one order of steps, with the same outcome and questions. -/
theorem run_interleaves {fuel : Nat} {entry : Path} {result : Except EntryError Findings}
    {trace : List Question} (ran : Discovery.run around fuel entry = some (result, trace)) :
    ∃ root state, Interleaves around entry root state ∧ root.Returned ∧
      root.outcome entry state = result ∧ state.trace = trace := by
  unfold Discovery.run at ran
  rw [start_intern] at ran
  obtain ⟨⟨answer, state⟩, processed, returned⟩ := Option.map_eq_some_iff.mp ran
  have opened : ReflTransGen (BuildStep around) (.parse 0 entry, begun entry)
      (returning 0 entry answer, state) := by
    rw [begun_eq]
    exact process_build fuel _ _ _ _ _ processed
  refine ⟨returning 0 entry answer, state, opened, ?_⟩
  cases answer with
  | ok value =>
    cases returned
    exact ⟨trivial, rfl, rfl⟩
  | error cause =>
    refine ⟨trivial, ?_⟩
    simp only [returning, outcome]
    cases unreadable : cause.isUnreadable with
    | true =>
      simp only [unreadable, if_true, Prod.mk.injEq] at returned ⊢
      exact returned
    | false =>
      simp only [unreadable, Bool.false_eq_true, if_false, Prod.mk.injEq] at returned ⊢
      exact returned

end Sequential

end Job

end CrateAtlas
