import CrateAtlas.Graph.Discovery
import CrateAtlas.Proofs.Registry
import Mathlib.Algebra.Order.Group.Multiset
import Mathlib.Data.Multiset.Bind
import Mathlib.Tactic.Abel

/-!
What a file adds to a discovery: the files and packages that it imports, its history, and all that is
noted on the way, which is the warnings that it gives rise to and the questions that are asked for it.
All of this depends on the surroundings and on the path alone.
-/

namespace CrateAtlas.Discovery

section

variable (around : Surroundings) (path : Path)

def target? (specifier : String) : Option Path :=
  match around.resolve specifier path with
  | .internal target => if target.same path then none else some target
  | _ => none

def external? (specifier : String) : Option String :=
  match around.resolve specifier path with
  | .external text => some text
  | _ => none

def failure? (specifier : String) : Option Warning :=
  match around.resolve specifier path with
  | .unresolved => some (.resolutionFailure path specifier)
  | _ => none

def targets (outline : FileOutline) : List Path :=
  (followed outline).filterMap (target? around path)

def externals (outline : FileOutline) : List String :=
  (followed outline).filterMap (external? around path)

def historyOf : Option CommitHistory :=
  match around.history with
  | none => none
  | some history => (history path).toOption

abbrev Note := Warning ⊕ Question

def openingNotes : Multiset Note :=
  (if around.history.isSome then {.inr (.history path)} else 0) + {.inr (.parse path)}

def specifierNotes (specifier : String) : Multiset Note :=
  .inr (.resolve specifier path) ::ₘ
    (((failure? around path specifier).toList.map .inl : List Note) : Multiset Note)

def specifiersNotes (specifiers : List String) : Multiset Note :=
  (specifiers : Multiset String).bind (specifierNotes around path)

def historyNotes : Multiset Note :=
  match around.history with
  | none => 0
  | some history =>
    match history path with
    | .ok _ => 0
    | .error error => {.inl (.metricUnavailable (some path) .history error.message)}

def parseNotes : Multiset Note :=
  match around.parse path with
  | .ok outline => specifiersNotes around path (followed outline)
  | .error error => {.inl (.parseError path error.message)}

def fileNotes : Multiset Note :=
  openingNotes around path + parseNotes around path + historyNotes around path

end

def notes (state : Discovery) : Multiset Note :=
  (state.warnings.map .inl : List Note) + (state.trace.map .inr : List Note)

@[simp] theorem notes_warn (state : Discovery) (warning : Warning) :
    (state.warn warning).notes = .inl warning ::ₘ state.notes := by
  simp only [notes, warn, List.map_append, List.map_cons, List.map_nil, ← Multiset.coe_add,
    ← Multiset.singleton_add, Multiset.coe_singleton]
  abel

@[simp] theorem notes_ask (state : Discovery) (question : Question) :
    (state.ask question).notes = .inr question ::ₘ state.notes := by
  simp only [notes, ask, List.map_append, List.map_cons, List.map_nil, ← Multiset.coe_add,
    ← Multiset.singleton_add, Multiset.coe_singleton]
  abel

theorem notes_opening (around : Surroundings) (path : Path) (state : Discovery) :
    ((state.askHistory around path).ask (.parse path)).notes =
      openingNotes around path + state.notes := by
  unfold askHistory openingNotes
  split
  · simp [← Multiset.singleton_add]
    abel
  · simp

@[simp] theorem registry_opening (around : Surroundings) (path : Path) (state : Discovery) :
    ((state.askHistory around path).ask (.parse path)).registry = state.registry := by
  unfold askHistory
  split <;> rfl

/-- Resolving a specifier adds at most one edge, and notes the question and a failure. -/
theorem resolveOne_eq (around : Surroundings) (path : Path) (edges : Edges) (state : Discovery)
    (specifier : String) :
    resolveOne around path (edges, state) specifier =
      (⟨edges.imports ++ ((target? around path specifier).map
            fun target => (state.registry.intern target).1).toList,
          edges.external ++ (external? around path specifier).toList⟩,
        ⟨((target? around path specifier).map
            fun target => (state.registry.intern target).2).getD state.registry,
          state.warnings ++ (failure? around path specifier).toList,
          state.trace ++ [.resolve specifier path]⟩) := by
  unfold resolveOne target? external? failure?
  cases around.resolve specifier path with
  | internal target =>
    by_cases self : target.same path = true
    · simp [self, ask]
    · simp [self, ask, intern]
  | external text => simp [ask]
  | excluded target => simp [ask]
  | unresolved => simp [ask, warn]

theorem notes_resolveOne (around : Surroundings) (path : Path) (edges : Edges) (state : Discovery)
    (specifier : String) :
    (resolveOne around path (edges, state) specifier).2.notes =
      specifierNotes around path specifier + state.notes := by
  rw [resolveOne_eq]
  simp only [notes, specifierNotes, List.map_append, List.map_cons, List.map_nil,
    ← Multiset.coe_add, ← Multiset.singleton_add, Multiset.coe_singleton]
  abel

theorem recordHistory_registry (around : Surroundings) (index : Nat) (path : Path)
    (state : Discovery) :
    (state.recordHistory around index path).registry =
      match historyOf around path with
      | some commits => state.registry.update index fun node => { node with history := some commits }
      | none => state.registry := by
  unfold recordHistory historyOf
  cases around.history with
  | none => rfl
  | some history =>
    cases answer : history path with
    | ok commits => simp [answer, update, Except.toOption]
    | error error => simp [answer, warn, Except.toOption]

theorem recordHistory_extends (around : Surroundings) (index : Nat) (path : Path)
    (state : Discovery) :
    state.registry.Extends (state.recordHistory around index path).registry := by
  rw [recordHistory_registry]
  cases historyOf around path with
  | none => exact .refl _
  | some commits => exact state.registry.update_extends index fun _ => rfl

theorem notes_recordHistory (around : Surroundings) (index : Nat) (path : Path)
    (state : Discovery) :
    (state.recordHistory around index path).notes = historyNotes around path + state.notes := by
  unfold recordHistory historyNotes
  cases around.history with
  | none => simp
  | some history =>
    cases answer : history path with
    | ok commits => simp [answer, notes, update]
    | error error => simp [answer, ← Multiset.singleton_add]

end CrateAtlas.Discovery

namespace CrateAtlas

inductive Resolution.Alike : Resolution → Resolution → Prop where
  | internal {first second : Path} (same : first.components = second.components) :
      Alike (.internal first) (.internal second)
  | external (text : String) : Alike (.external text) (.external text)
  | excluded (first second : Path) : Alike (.excluded first) (.excluded second)
  | unresolved : Alike .unresolved .unresolved

inductive Alike {ε α : Type} (message : ε → String) : Except ε α → Except ε α → Prop where
  | ok (value : α) : Alike message (.ok value) (.ok value)
  | error {first second : ε} (same : message first = message second) :
      Alike message (.error first) (.error second)

theorem Resolution.Alike.refl (resolution : Resolution) : resolution.Alike resolution := by
  cases resolution with
  | internal path => exact .internal rfl
  | external text => exact .external text
  | excluded path => exact .excluded path path
  | unresolved => exact .unresolved

theorem Alike.refl {ε α : Type} (message : ε → String) (answer : Except ε α) :
    Alike message answer answer := by
  cases answer with
  | ok value => exact .ok value
  | error error => exact .error rfl

namespace Surroundings

/-- The spelling of a path makes no difference to what its file holds and imports. -/
structure RespectsPaths (around : Surroundings) : Prop where
  parse : ∀ first second : Path, first.components = second.components →
    Alike SourceError.message (around.parse first) (around.parse second)
  resolve : ∀ (specifier : String) (first second : Path), first.components = second.components →
    (around.resolve specifier first).Alike (around.resolve specifier second)

def HistoryRespectsPaths (around : Surroundings) : Prop :=
  ∀ provider, around.history = some provider → ∀ first second : Path,
    first.components = second.components →
      Alike HistoryError.message (provider first) (provider second)

end Surroundings

namespace Discovery

variable {around : Surroundings} {first second : Path}

theorem parse_ok_alike (respects : around.RespectsPaths)
    (same : first.components = second.components) {outline : FileOutline}
    (parsed : around.parse first = .ok outline) : around.parse second = .ok outline := by
  have alike := respects.parse first second same
  rw [parsed] at alike
  generalize around.parse second = answer at alike ⊢
  cases alike with
  | ok value => rfl

private theorem target?_alike (respects : around.RespectsPaths)
    (same : first.components = second.components) (specifier : String) :
    (target? around first specifier).map Path.components =
      (target? around second specifier).map Path.components := by
  have alike := respects.resolve specifier first second same
  unfold target?
  generalize around.resolve specifier first = left at alike ⊢
  generalize around.resolve specifier second = right at alike ⊢
  cases alike with
  | @internal target other spelled =>
    have self : target.same first = other.same second := by
      rw [Bool.eq_iff_iff, Path.same_iff, Path.same_iff, spelled, same]
    simp only [self]
    split
    · rfl
    · simp [spelled]
  | _ => rfl

private theorem external?_alike (respects : around.RespectsPaths)
    (same : first.components = second.components) (specifier : String) :
    external? around first specifier = external? around second specifier := by
  have alike := respects.resolve specifier first second same
  unfold external?
  generalize around.resolve specifier first = left at alike ⊢
  generalize around.resolve specifier second = right at alike ⊢
  cases alike <;> rfl

theorem targets_alike (respects : around.RespectsPaths)
    (same : first.components = second.components) (outline : FileOutline) :
    (targets around first outline).map Path.components =
      (targets around second outline).map Path.components := by
  simp only [targets, List.map_filterMap, target?_alike respects same]

theorem externals_alike (respects : around.RespectsPaths)
    (same : first.components = second.components) (outline : FileOutline) :
    externals around first outline = externals around second outline := by
  simp only [externals, funext (external?_alike respects same)]

theorem historyOf_alike (respects : around.HistoryRespectsPaths)
    (same : first.components = second.components) :
    historyOf around first = historyOf around second := by
  unfold historyOf
  cases provided : around.history with
  | none => rfl
  | some provider =>
    have alike := respects provider provided first second same
    change (provider first).toOption = (provider second).toOption
    generalize provider first = left at alike ⊢
    generalize provider second = right at alike ⊢
    cases alike <;> rfl

end Discovery

end CrateAtlas
