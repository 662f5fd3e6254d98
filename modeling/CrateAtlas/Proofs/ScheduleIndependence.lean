import CrateAtlas.Proofs.ImportClosure
import CrateAtlas.Proofs.Questions
import Mathlib.Data.Set.Function
import Mathlib.Order.Interval.Set.Defs

/-!
The order in which jobs take their steps makes no difference to what a build gives. It decides which
numbers files get and in which order warnings stand, and nothing else.
-/

namespace CrateAtlas

open Discovery Job

/-- What a warning says, with a file in place of the spelling of its path. -/
inductive Warning.Content where
  | parseError (file : List Component) (message : String)
  | resolutionFailure (file : List Component) (specifier : String)
  | metricUnavailable (file : Option (List Component)) (metric : ExternalMetric) (message : String)
  deriving DecidableEq

def Warning.content : Warning → Content
  | .parseError path message => .parseError path.components message
  | .resolutionFailure path specifier => .resolutionFailure path.components specifier
  | .metricUnavailable path metric message =>
    .metricUnavailable (path.map Path.components) metric message

def Question.parsed? : Question → Option Path
  | parse path => some path
  | _ => none

/-- Two nodes with the same file and the same facts, under a renumbering of what they import. -/
structure FileNode.Matches (renumber : Nat → Nat) (first second : FileNode) : Prop where
  path : first.path.same second.path = true
  lineCount : first.lineCount = second.lineCount
  complexity : first.complexity = second.complexity
  maxDepth : first.maxDepth = second.maxDepth
  imports : first.imports.map renumber = second.imports
  external : first.external = second.external
  history : first.history = second.history

/-- A renumbering of the nodes of some findings that gives those of others. The entry keeps its
number. -/
structure Renumbering (first second : Findings) (renumber : Nat → Nat) : Prop where
  entry : renumber 0 = 0
  bijective : Set.BijOn renumber (Set.Iio first.nodes.size) (Set.Iio second.nodes.size)
  nodes : ∀ (index : Nat) (node : FileNode), first.nodes[index]? = some node →
    ∃ other, second.nodes[renumber index]? = some other ∧ node.Matches renumber other

/-- Outcomes that differ in the numbers of files and in the order of warnings only. -/
inductive Agree : Except EntryError Findings → Except EntryError Findings → Prop where
  | error (error : EntryError) : Agree (.error error) (.error error)
  | ok {first second : Findings} (nodes : ∃ renumber, Renumbering first second renumber)
      (warnings : (first.warnings.map Warning.content).Perm (second.warnings.map Warning.content)) :
      Agree (.ok first) (.ok second)

namespace Discovery

variable {around : Surroundings} {first second : Path}

def content? : Note → Option Warning.Content
  | .inl warning => some warning.content
  | .inr _ => none

theorem filterMap_warnings (warnings : List Warning) :
    Multiset.filterMap content? (warnings.map .inl : List Note) =
      (warnings.map Warning.content : List Warning.Content) := by
  rw [Multiset.filterMap_coe, List.filterMap_map]
  exact congrArg _ (congrFun List.filterMap_eq_map warnings)

private theorem filterMap_questions (trace : List Question) :
    Multiset.filterMap content? (trace.map .inr : List Note) = 0 := by
  rw [Multiset.filterMap_coe, List.filterMap_map]
  simp [content?, Function.comp_def]

private theorem failure?_alike (respects : around.RespectsPaths)
    (same : first.components = second.components) (specifier : String) :
    (failure? around first specifier).map Warning.content =
      (failure? around second specifier).map Warning.content := by
  have alike := respects.resolve specifier first second same
  unfold failure?
  generalize around.resolve specifier first = left at alike ⊢
  generalize around.resolve specifier second = right at alike ⊢
  cases alike with
  | unresolved => simp [Warning.content, same]
  | _ => rfl

private theorem specifiersNotes_alike (respects : around.RespectsPaths)
    (same : first.components = second.components) (specifiers : List String) :
    (specifiersNotes around first specifiers).filterMap content? =
      (specifiersNotes around second specifiers).filterMap content? := by
  have one (path : Path) (specifier : String) :
      (specifierNotes around path specifier).filterMap content? =
        (((failure? around path specifier).map Warning.content).toList : List Warning.Content) := by
    rw [specifierNotes, Multiset.filterMap_cons_none _ _ rfl, filterMap_warnings]
    cases failure? around path specifier <;> rfl
  simp only [specifiersNotes, Multiset.filterMap_bind, one, failure?_alike respects same]

private theorem parseNotes_alike (respects : around.RespectsPaths)
    (same : first.components = second.components) :
    (parseNotes around first).filterMap content? = (parseNotes around second).filterMap content? := by
  have alike := respects.parse first second same
  unfold parseNotes
  generalize around.parse first = left at alike ⊢
  generalize around.parse second = right at alike ⊢
  cases alike with
  | ok outline => exact specifiersNotes_alike respects same (followed outline)
  | error reads => simp [← Multiset.cons_zero, content?, Warning.content, same, reads]

private theorem historyNotes_alike (respects : around.HistoryRespectsPaths)
    (same : first.components = second.components) :
    (historyNotes around first).filterMap content? =
      (historyNotes around second).filterMap content? := by
  unfold historyNotes
  cases provided : around.history with
  | none => rfl
  | some provider =>
    have alike := respects provider provided first second same
    simp only
    generalize provider first = left at alike ⊢
    generalize provider second = right at alike ⊢
    cases alike with
    | ok value => rfl
    | error reads => simp [← Multiset.cons_zero, content?, Warning.content, same, reads]

private theorem fileNotes_alike (respects : around.RespectsPaths) (histories : around.HistoryRespectsPaths)
    (same : first.components = second.components) :
    (fileNotes around first).filterMap content? = (fileNotes around second).filterMap content? := by
  have opening (path : Path) : (openingNotes around path).filterMap content? = 0 := by
    unfold openingNotes
    split <;> simp [← Multiset.cons_zero, Multiset.filterMap_cons, content?]
  simp only [fileNotes, Multiset.filterMap_add, opening, parseNotes_alike respects same,
    historyNotes_alike histories same]

private theorem questionsFor_parsed (around : Surroundings) (path : Path) :
    (questionsFor around path).filterMap Question.parsed? = [path] := by
  have resolved : (Question.parsed? ∘ fun specifier => Question.resolve specifier path) =
      fun _ => none := rfl
  unfold questionsFor
  split <;> simp [List.filterMap_cons, Question.parsed?, resolved]

end Discovery

namespace Complete

variable {around : Surroundings} {entry : Path} {registry other : Registry}

def renumber (registry other : Registry) (index : Nat) : Nat :=
  ((registry.pathOf? index).bind other.find?).getD 0

theorem renumber_numbers (complete : Complete around entry registry)
    (otherComplete : Complete around entry other) (respects : around.RespectsPaths) {index : Nat}
    {path : Path} (numbered : registry.Numbers index path) :
    other.Numbers (renumber registry other index) path := by
  obtain ⟨known, found, same⟩ := numbered
  obtain ⟨target, there⟩ :=
    otherComplete.numbers_reached respects (complete.reached index known found)
  rcases other.find?_cases known with ⟨position, located, file, present, spelled⟩ | ⟨_, absent⟩
  · rw [renumber, found, Option.bind_some, located, Option.getD_some]
    exact ⟨file, present, spelled.trans same⟩
  · exact absurd there (absent target)

private theorem renumber_bijective (complete : Complete around entry registry)
    (otherComplete : Complete around entry other) (respects : around.RespectsPaths) :
    Set.BijOn (renumber registry other) (Set.Iio registry.size) (Set.Iio other.size) := by
  have numbered {index : Nat} {path : Path} (known : registry.pathOf? index = some path) :=
    complete.renumber_numbers otherComplete respects ⟨path, known, rfl⟩
  refine ⟨?_, ?_, ?_⟩
  · intro index inside
    obtain ⟨path, known⟩ := Registry.exists_pathOf? inside
    obtain ⟨file, present, _⟩ := numbered known
    exact Registry.lt_size_of_pathOf? present
  · intro index inside position within same
    obtain ⟨path, known⟩ := Registry.exists_pathOf? inside
    obtain ⟨file, present⟩ := Registry.exists_pathOf? within
    obtain ⟨_, found, spelled⟩ := numbered known
    obtain ⟨_, again, alike⟩ := numbered present
    rw [same, again] at found
    cases found
    exact complete.sound.distinct ⟨path, known, rfl⟩ ⟨file, present, alike.symm.trans spelled⟩
  · intro position within
    obtain ⟨path, known⟩ := Registry.exists_pathOf? within
    obtain ⟨index, file, present, spelled⟩ :=
      complete.numbers_reached respects (otherComplete.reached position path known)
    refine ⟨index, Registry.lt_size_of_pathOf? present, ?_⟩
    exact otherComplete.sound.distinct
      (complete.renumber_numbers otherComplete respects ⟨file, present, spelled⟩)
      ⟨path, known, rfl⟩

private theorem renumber_imports (complete : Complete around entry registry)
    (otherComplete : Complete around entry other) (respects : around.RespectsPaths)
    {imports otherImports : List Nat} {files otherFiles : List Path}
    (numbered : List.Forall₂ registry.Numbers imports files)
    (otherNumbered : List.Forall₂ other.Numbers otherImports otherFiles)
    (same : files.map Path.components = otherFiles.map Path.components) :
    imports.map (renumber registry other) = otherImports := by
  induction numbered generalizing otherImports otherFiles with
  | nil =>
    rw [List.map_nil, eq_comm, List.map_eq_nil_iff] at same
    subst same
    cases otherNumbered
    rfl
  | @cons index file imports files head tail ih =>
    cases otherNumbered with
    | nil => simp at same
    | @cons position otherFile otherImports otherFiles otherHead otherTail =>
      rw [List.map_cons, List.map_cons, List.cons.injEq] at same
      obtain ⟨known, found, spelled⟩ := complete.renumber_numbers otherComplete respects head
      rw [List.map_cons, ih otherTail same.2]
      congr 1
      exact otherComplete.sound.distinct ⟨known, found, spelled.trans same.1⟩ otherHead

private theorem renumber_matches (complete : Complete around entry registry)
    (otherComplete : Complete around entry other) (respects : around.RespectsPaths)
    (histories : around.HistoryRespectsPaths) {index : Nat} {node : FileNode}
    (found : registry.nodes[index]? = some node) :
    ∃ file, other.nodes[renumber registry other index]? = some file ∧
      node.Matches (renumber registry other) file := by
  obtain ⟨file, present, spelled⟩ := Registry.numbers_iff.mp (complete.renumber_numbers otherComplete
    respects ⟨node.path, Registry.pathOf?_eq_some_iff.mpr ⟨node, found, rfl⟩, rfl⟩)
  have same : node.path.components = file.path.components := ((Path.same_iff _ _).mp spelled).symm
  have history : node.history = file.history := by
    rw [complete.recorded index node found, otherComplete.recorded _ file present]
    exact historyOf_alike histories same
  refine ⟨file, present, ?_⟩
  cases parsed : around.parse node.path with
  | ok outline =>
    have left := complete.analysed index node outline found parsed
    have right := otherComplete.analysed _ file outline present (parse_ok_alike respects same parsed)
    exact ⟨(Path.same_iff _ _).mpr same, left.lineCount.trans right.lineCount.symm,
      left.complexity.trans right.complexity.symm, left.maxDepth.trans right.maxDepth.symm,
      complete.renumber_imports otherComplete respects left.imports right.imports
        (targets_alike respects same outline),
      left.external.trans ((externals_alike respects same outline).trans right.external.symm), history⟩
  | error error =>
    have failed : ∃ cause, around.parse file.path = .error cause := by
      cases answer : around.parse file.path with
      | ok outline =>
        cases parsed.symm.trans (parse_ok_alike respects same.symm answer)
      | error cause => exact ⟨cause, rfl⟩
    obtain ⟨cause, failed⟩ := failed
    have left := complete.blank index node error found parsed
    have right := otherComplete.blank _ file cause present failed
    exact ⟨(Path.same_iff _ _).mpr same, left.lineCount.trans right.lineCount.symm,
      left.complexity.trans right.complexity.symm, left.maxDepth.trans right.maxDepth.symm,
      by rw [left.imports, right.imports, List.map_nil],
      left.external.trans right.external.symm, history⟩

private theorem paths_perm (complete : Complete around entry registry)
    (otherComplete : Complete around entry other) (respects : around.RespectsPaths) :
    (registry.paths.map Path.components).Perm (other.paths.map Path.components) := by
  have within {left right : Registry} (leftComplete : Complete around entry left)
      (rightComplete : Complete around entry right) {file : List Component}
      (member : file ∈ left.paths.map Path.components) : file ∈ right.paths.map Path.components := by
    obtain ⟨path, present, rfl⟩ := List.mem_map.mp member
    obtain ⟨index, known⟩ := Registry.mem_paths.mp present
    obtain ⟨position, spelling, found, same⟩ :=
      rightComplete.numbers_reached respects (leftComplete.reached index path known)
    exact List.mem_map.mpr ⟨spelling, Registry.mem_paths.mpr ⟨position, found⟩, same⟩
  refine (List.perm_ext_iff_of_nodup complete.paths_distinct otherComplete.paths_distinct).mpr ?_
  intro file
  exact ⟨within complete otherComplete, within otherComplete complete⟩

end Complete

private theorem bind_paths_congr {β : Type} {files : Path → Multiset β} {first second : List Path}
    (respects : ∀ left right : Path, left.components = right.components → files left = files right)
    (perm : (first.map Path.components).Perm (second.map Path.components)) :
    (first : Multiset Path).bind files = (second : Multiset Path).bind files := by
  obtain ⟨contents, factored⟩ :=
    (Function.factorsThrough_iff files).mp fun left right same => respects left right same
  have through (paths : List Path) : (paths : Multiset Path).bind files =
      ((paths.map Path.components : List (List Component)) : Multiset _).bind contents := by
    rw [← Multiset.map_coe, Multiset.bind_map, factored]
    rfl
  rw [through first, through second, Multiset.coe_eq_coe.mpr perm]

namespace Job

variable {around : Surroundings} {entry : Path} {root other : Job} {state otherState : Discovery}

private theorem parsed_once (built : Interleaves around entry root state) (returned : root.Returned) :
    ((state.trace.filterMap Question.parsed?).map Path.components).Nodup := by
  have noted := interleaves_notes built returned
  have distinct := (interleaves_complete built returned).paths_distinct
  have fewer : (state.trace : Multiset Question) ≤
      (state.registry.paths.flatMap (questionsFor around) : List Question) := by
    rw [← bind_fileNotes_asked, ← noted, Multiset.filterMap_add, Discovery.notes, filterMap_asked]
    exact Multiset.le_add_right _ _
  have parsed := Multiset.filterMap_le_filterMap Question.parsed? fewer
  simp only [Multiset.filterMap_coe, List.filterMap_flatMap, questionsFor_parsed,
    List.flatMap_singleton'] at parsed
  exact Multiset.nodup_of_le (Multiset.map_le_map parsed) distinct

/-- Whatever the order of steps of two builds, they agree. -/
theorem outcome_agree (respects : around.RespectsPaths) (histories : around.HistoryRespectsPaths)
    (built : Interleaves around entry root state) (returned : root.Returned)
    (otherBuilt : Interleaves around entry other otherState) (otherReturned : other.Returned) :
    Agree (root.outcome entry state) (other.outcome entry otherState) := by
  have complete := interleaves_complete built returned
  have otherComplete := interleaves_complete otherBuilt otherReturned
  rcases outcome_cases built returned with
    ⟨cause, failed, unreadable, result⟩ | ⟨readable, warnings, result, noted⟩
  · rcases outcome_cases otherBuilt otherReturned with
      ⟨otherCause, otherFailed, _, otherResult⟩ | ⟨otherReadable, _⟩
    · cases failed.symm.trans otherFailed
      rw [result, otherResult]
      exact .error _
    · cases unreadable.symm.trans (otherReadable cause failed)
  · rcases outcome_cases otherBuilt otherReturned with
      ⟨otherCause, otherFailed, unreadable, _⟩ | ⟨_, otherWarnings, otherResult, otherNoted⟩
    · cases unreadable.symm.trans (readable otherCause otherFailed)
    · rw [result, otherResult]
      refine .ok ⟨Complete.renumber state.registry otherState.registry, ?_, ?_, ?_⟩ ?_
      · exact otherComplete.sound.distinct
          (complete.renumber_numbers otherComplete respects ⟨entry, complete.entered, rfl⟩)
          ⟨entry, otherComplete.entered, rfl⟩
      · exact complete.renumber_bijective otherComplete respects
      · intro index node found
        exact complete.renumber_matches otherComplete respects histories found
      · have files := bind_paths_congr
          (fun _ _ same => fileNotes_alike respects histories same)
          (complete.paths_perm otherComplete respects)
        rw [← Multiset.filterMap_bind, ← Multiset.filterMap_bind, ← noted, ← otherNoted,
          Multiset.filterMap_add, Multiset.filterMap_add, filterMap_warnings, filterMap_warnings,
          filterMap_questions, filterMap_questions, add_zero, add_zero] at files
        exact Multiset.coe_eq_coe.mp files

/-- However the steps of its jobs are ordered, a build that has returned agrees with discovery from
left to right, which ends too, and it has parsed no file twice. -/
theorem build_schedule_independent (around : Surroundings) (respects : around.RespectsPaths)
    (histories : around.HistoryRespectsPaths) (entry : Path) (root : Job) (state : Discovery)
    (built : Interleaves around entry root state) (returned : root.Returned) :
    ((state.trace.filterMap Question.parsed?).map Path.components).Nodup ∧
    (∃ fuel answer, run around fuel entry = some answer) ∧
    ∀ fuel result trace, run around fuel entry = some (result, trace) →
      Agree (root.outcome entry state) result := by
  refine ⟨parsed_once built returned, ?_, ?_⟩
  · have complete := interleaves_complete built returned
    have covers : Covers around entry state.registry.paths := by
      intro path outline reached _
      obtain ⟨index, known, found, same⟩ := complete.numbers_reached respects reached
      exact ⟨known, Registry.mem_paths.mpr ⟨index, found⟩, same⟩
    exact ⟨_, run_total covers (Nat.le_refl _)⟩
  · intro fuel result trace ran
    obtain ⟨other, otherState, otherBuilt, otherReturned, outcome, _⟩ := run_interleaves ran
    rw [← outcome]
    exact outcome_agree respects histories built returned otherBuilt otherReturned

/-- A file imports two others, the first of which imports the second. Each of these imports one file
more, which is not source text, and no file has a history. -/
def forked : Surroundings where
  parse path :=
    if path.same "main" then
      .ok ⟨.node .file [.node .useItem [.specifier "left", .specifier "right"]], 2, false⟩
    else if path.same "left" then
      .ok ⟨.node .file [.node .useItem [.specifier "right", .specifier "deep"]], 2, false⟩
    else if path.same "right" then
      .ok ⟨.node .file [.node .useItem [.specifier "lost", .specifier "wide"]], 2, false⟩
    else .error (.malformed "file" "expected item")
  resolve specifier _ := if specifier = "lost" then .unresolved else .internal ⟨specifier⟩
  history := some fun _ => .error .badPattern
  depthMode := .flat

private theorem forked_respects : forked.RespectsPaths := by
  constructor
  · intro first second same
    have alike (other : Path) : first.same other = second.same other := by simp only [Path.same, same]
    simp only [forked, alike]
    exact .refl _ _
  · intro specifier first second same
    exact .refl _

private theorem forked_history_respects : forked.HistoryRespectsPaths := by
  intro provider provided first second same
  cases provided
  exact .refl _ _

/-- A build of the fork that is done with the second import before it begins with the first. -/
theorem forked_interleaves : ∃ state, Interleaves forked "main" .done state ∧
    state.registry.paths.map Path.display = ["main", "left", "right", "wide", "deep"] := by
  have evaluated : (fun answer : Except SourceError (List Nat) × Discovery =>
      (answer.1.toOption, ([2, 1].foldlM (Discovery.visit (process forked 4)) answer.2).map
        fun later => (later.recordHistory forked 0 "main").registry.paths.map Path.display))
      (((begun "main").askHistory forked "main").analyze forked 0 "main") =
        (some [1, 2], some ["main", "left", "right", "wide", "deep"]) := by
    decide +kernel
  cases analyzed : ((begun "main").askHistory forked "main").analyze forked 0 "main" with
  | mk answer state =>
  rw [analyzed, Prod.mk.injEq] at evaluated
  obtain ⟨imports, visits⟩ := evaluated
  cases answer with
  | error error => cases imports
  | ok numbers =>
  cases imports
  obtain ⟨last, visited, paths⟩ := Option.map_eq_some_iff.mp visits
  rw [List.foldlM_cons] at visited
  obtain ⟨middle, right, left⟩ := Option.bind_eq_some_iff.mp visited
  have processes := @process_build forked 4
  refine ⟨last.recordHistory forked 0 "main", ?_, paths⟩
  refine .trans (analyze_build analyzed) ?_
  refine .trans (visit_build processes 0 "main" [.visit 1] [] right) ?_
  have leftVisited : Discovery.visit (process forked 4) middle 1 = some last := by simpa using left
  refine .trans (visit_build processes 0 "main" [] [.done] leftVisited) ?_
  refine .head (Advance.build id (.join (by simp))) ?_
  exact .single (Advance.build id (.succeed 0 "main" last))

theorem build_schedule_independent_forked :
    ∃ state, Interleaves forked "main" .done state ∧
      state.registry.paths.map Path.display = ["main", "left", "right", "wide", "deep"] ∧
      ∃ findings trace, run forked 5 "main" = some (.ok findings, trace) ∧
        findings.nodes.toList.map (fun node => node.path.display) =
          ["main", "left", "right", "deep", "wide"] ∧
        Agree (outcome "main" .done state) (.ok findings) := by
  obtain ⟨state, built, paths⟩ := forked_interleaves
  have independent := build_schedule_independent forked forked_respects forked_history_respects
    "main" .done state built trivial
  have evaluated : (run forked 5 "main").map (fun answer => answer.1.toOption.map fun findings =>
      findings.nodes.toList.map fun node => node.path.display) =
        some (some ["main", "left", "right", "deep", "wide"]) := by
    decide +kernel
  obtain ⟨⟨result, trace⟩, ran, found⟩ := Option.map_eq_some_iff.mp evaluated
  cases result with
  | error error => cases found
  | ok findings =>
    exact ⟨state, built, paths, findings, trace, ran, Option.some.inj found,
      independent.2.2 5 (.ok findings) trace ran⟩

end Job

end CrateAtlas
