import CrateAtlas.Proofs.BuildTermination

/-!
What discovery asks of its surroundings. For each of its files it asks once for the history, if
histories are asked for at all, once for the outline, and once for each specifier that the file
follows; it asks nothing else.
-/

namespace CrateAtlas

open Discovery Job

def Question.path : Question → Path
  | history path => path
  | parse path => path
  | resolve _ path => path

namespace Discovery

def specifiersOf (around : Surroundings) (path : Path) : List String :=
  match around.parse path with
  | .ok outline => if outline.declarationOnly then [] else outline.root.topLevelSpecifiers
  | .error _ => []

def questionsFor (around : Surroundings) (path : Path) : List Question :=
  (if around.history.isSome then [.history path] else []) ++
    .parse path :: (specifiersOf around path).map fun specifier => .resolve specifier path

theorem path_of_mem_questionsFor {around : Surroundings} {path : Path} {question : Question}
    (member : question ∈ questionsFor around path) : question.path = path := by
  simp only [questionsFor, List.mem_append, List.mem_cons, List.mem_map] at member
  rcases member with asked | rfl | ⟨specifier, _, rfl⟩
  · split at asked
    · rw [List.mem_singleton.mp asked, Question.path]
    · cases asked
  · rfl
  · rfl

def question? : Note → Option Question
  | .inl _ => none
  | .inr question => some question

theorem filterMap_asked (warnings : List Warning) (trace : List Question) :
    Multiset.filterMap question?
      (((warnings.map .inl : List Note) : Multiset Note) + (trace.map .inr : List Note)) = trace := by
  rw [Multiset.filterMap_add, Multiset.filterMap_coe, Multiset.filterMap_coe, List.filterMap_map,
    List.filterMap_map]
  simp [question?, Function.comp_def]

private theorem specifiersNotes_asked (around : Surroundings) (path : Path) (specifiers : List String) :
    (specifiersNotes around path specifiers).filterMap question? =
      (specifiers.map fun specifier => .resolve specifier path : List Question) := by
  have one (specifier : String) : (specifierNotes around path specifier).filterMap question? =
      {.resolve specifier path} := by
    rw [specifierNotes, Multiset.filterMap_cons, Multiset.filterMap_coe, List.filterMap_map]
    simp [question?, Function.comp_def]
  simp only [specifiersNotes, Multiset.filterMap_bind, one, Multiset.bind_singleton,
    Multiset.map_coe]

private theorem parseNotes_asked (around : Surroundings) (path : Path) :
    (parseNotes around path).filterMap question? =
      ((specifiersOf around path).map fun specifier => .resolve specifier path : List Question) := by
  unfold parseNotes specifiersOf
  cases around.parse path with
  | ok outline => exact specifiersNotes_asked around path (followed outline)
  | error error => simp [← Multiset.cons_zero, Multiset.filterMap_cons, question?]

private theorem historyNotes_asked (around : Surroundings) (path : Path) :
    (historyNotes around path).filterMap question? = 0 := by
  unfold historyNotes
  cases around.history with
  | none => rfl
  | some provider =>
    simp only
    cases provider path <;> simp [← Multiset.cons_zero, Multiset.filterMap_cons, question?]

private theorem fileNotes_asked (around : Surroundings) (path : Path) :
    (fileNotes around path).filterMap question? = (questionsFor around path : List Question) := by
  have opening : (openingNotes around path).filterMap question? =
      ((if around.history.isSome then [.history path] else [] : List Question) :
        Multiset Question) + ([.parse path] : List Question) := by
    unfold openingNotes
    split <;> simp [← Multiset.cons_zero, question?]
  rw [fileNotes, Multiset.filterMap_add, Multiset.filterMap_add, opening, parseNotes_asked,
    historyNotes_asked, add_zero, Multiset.coe_add, Multiset.coe_add, questionsFor,
    List.append_assoc, List.singleton_append]

theorem bind_fileNotes_asked (around : Surroundings) (paths : List Path) :
    ((paths : Multiset Path).bind (fileNotes around)).filterMap question? =
      (paths.flatMap (questionsFor around) : List Question) := by
  rw [Multiset.filterMap_bind]
  simp only [fileNotes_asked, Multiset.coe_bind]

/-- All questions of a discovery that gives files are those that its files give rise to. -/
theorem run_asks {around : Surroundings} {fuel : Nat} {entry : Path} {findings : Findings}
    {trace : List Question} (ran : run around fuel entry = some (.ok findings, trace)) :
    ∃ registry, Complete around entry registry ∧ registry.nodes = findings.nodes ∧
      trace.Perm (registry.paths.flatMap (questionsFor around)) := by
  obtain ⟨root, state, built, returned, result, asked⟩ := run_interleaves ran
  refine ⟨state.registry, interleaves_complete built returned, ?_⟩
  rcases outcome_cases built returned with ⟨cause, _, _, failed⟩ | ⟨_, warnings, found, noted⟩
  · cases failed.symm.trans result
  · have same := Except.ok.inj (found.symm.trans result)
    refine ⟨by rw [← same], ?_⟩
    have questions := congrArg (Multiset.filterMap question?) noted
    rw [filterMap_asked, bind_fileNotes_asked] at questions
    exact asked ▸ Multiset.coe_eq_coe.mp questions

/-- Among the items of files that differ, those about one file are its own. -/
theorem filter_flatMap_files {β : Type} {items : Path → List β} {about : β → Bool}
    {paths : List Path} (distinct : (paths.map Path.components).Nodup) {path : Path}
    (member : path ∈ paths)
    (own : ∀ file, ∀ item ∈ items file, about item = true → file.components = path.components) :
    (paths.flatMap items).filter about = (items path).filter about := by
  obtain ⟨before, after, rfl⟩ := List.append_of_mem member
  rw [List.map_append, List.map_cons, List.nodup_append, List.nodup_cons] at distinct
  obtain ⟨_, ⟨unlikeAfter, _⟩, unlikeBefore⟩ := distinct
  have others {files : List Path} (unlike : path.components ∉ files.map Path.components) :
      (files.flatMap items).filter about = [] := by
    rw [List.filter_eq_nil_iff]
    intro item present concerned
    obtain ⟨file, listed, there⟩ := List.mem_flatMap.mp present
    exact unlike (List.mem_map.mpr ⟨file, listed, own file item there concerned⟩)
  rw [List.flatMap_append, List.flatMap_cons, List.filter_append, List.filter_append,
    others unlikeAfter, others, List.nil_append, List.append_nil]
  intro again
  exact unlikeBefore _ again _ List.mem_cons_self rfl

private theorem filter_questionsFor {around : Surroundings} {paths : List Path}
    (distinct : (paths.map Path.components).Nodup) {path : Path} (member : path ∈ paths) :
    (paths.flatMap (questionsFor around)).filter (fun question => question.path.same path) =
      questionsFor around path := by
  rw [filter_flatMap_files distinct member, List.filter_eq_self]
  · intro question asked
    rw [path_of_mem_questionsFor asked, Path.same_iff]
  · intro file question asked same
    rwa [path_of_mem_questionsFor asked, Path.same_iff] at same

/-- Discovery ends if only finitely many paths can be parsed, with an outcome that does not depend on
the fuel. If it gives files, it has asked about each of them what that file gives rise to, each
question once, and about no other path. -/
theorem run_asks_once (around : Surroundings) (files : List Path)
    (covers : ∀ path outline, around.parse path = .ok outline →
      ∃ file ∈ files, file.same path = true) (entry : Path) :
    (∃ outcome, ∀ fuel, files.length + 2 ≤ fuel → run around fuel entry = some outcome) ∧
    ∀ fuel findings trace, run around fuel entry = some (.ok findings, trace) →
      (∀ node ∈ findings.nodes,
        (trace.filter fun question => question.path.same node.path).Perm
          (questionsFor around node.path)) ∧
      ∀ question ∈ trace, ∃ node ∈ findings.nodes, question.path = node.path := by
  constructor
  · have reached : Covers around entry files := by
      intro path outline _ parsed
      obtain ⟨file, member, same⟩ := covers path outline parsed
      exact ⟨file, member, (Path.same_iff _ _).mp same⟩
    obtain ⟨outcome, ran⟩ := run_total reached (Nat.le_refl _)
    exact ⟨outcome, fun fuel enough => run_mono ran enough⟩
  · intro fuel findings trace ran
    obtain ⟨registry, complete, same, asked⟩ := run_asks ran
    rw [← same]
    constructor
    · intro node member
      have present : node.path ∈ registry.paths :=
        List.mem_map.mpr ⟨node, Array.mem_toList_iff.mpr member, rfl⟩
      exact filter_questionsFor complete.paths_distinct present ▸ asked.filter _
    · intro question member
      obtain ⟨path, present, asked⟩ := List.mem_flatMap.mp (asked.mem_iff.mp member)
      obtain ⟨node, there, rfl⟩ := List.mem_map.mp present
      exact ⟨node, Array.mem_toList_iff.mp there, path_of_mem_questionsFor asked⟩

def circular : Surroundings where
  parse path :=
    if path.same "main" then
      .ok ⟨.node .file [.node .useItem [.specifier "lib", .specifier "lib"]], 2, false⟩
    else if path.same "lib" then
      .ok ⟨.node .file [.node .useItem [.specifier "main", .specifier "gone"]], 2, false⟩
    else .error (.malformed "gone" "expected item")
  resolve specifier _ := .internal ⟨specifier⟩
  history := some fun _ => .ok ⟨3, 1⟩
  depthMode := .flat

private theorem circular_covers (path : Path) (outline : FileOutline)
    (parsed : circular.parse path = .ok outline) :
    ∃ file ∈ [("main" : Path), "lib"], file.same path = true := by
  by_cases main : path.same "main" = true
  · exact ⟨"main", by simp, (Path.same_iff _ _).mpr ((Path.same_iff _ _).mp main).symm⟩
  · by_cases lib : path.same "lib" = true
    · exact ⟨"lib", by simp, (Path.same_iff _ _).mpr ((Path.same_iff _ _).mp lib).symm⟩
    · simp only [circular, main, lib, Bool.false_eq_true, if_false] at parsed
      cases parsed

theorem run_asks_once_circular :
    ∃ findings trace, run circular 4 "main" = some (.ok findings, trace) ∧
      trace = [.history "main", .parse "main", .resolve "lib" "main", .resolve "lib" "main",
        .history "lib", .parse "lib", .resolve "main" "lib", .resolve "gone" "lib",
        .history "gone", .parse "gone"] ∧
      ∀ node ∈ findings.nodes, (trace.filter fun question => question.path.same node.path).Perm
        (questionsFor circular node.path) := by
  have asks := run_asks_once circular [.ofText "main", .ofText "lib"] circular_covers "main"
  have evaluated : (run circular 4 "main").map (fun answer => (answer.1.toBool, answer.2)) =
      some (true, [.history "main", .parse "main", .resolve "lib" "main",
        .resolve "lib" "main", .history "lib", .parse "lib", .resolve "main" "lib",
        .resolve "gone" "lib", .history "gone", .parse "gone"]) := by
    decide +kernel
  obtain ⟨⟨result, trace⟩, ran, found⟩ := Option.map_eq_some_iff.mp evaluated
  rw [Prod.mk.injEq] at found
  cases result with
  | error error => cases found.1
  | ok findings => exact ⟨findings, trace, ran, found.2, (asks.2 4 findings trace ran).1⟩

end Discovery

end CrateAtlas
