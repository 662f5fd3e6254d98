import CrateAtlas.Proofs.Questions

/-!
What becomes of failures. Only an entry that cannot be read fails a build. Every other failure is
reported once, by a warning of the file that it concerns, and leaves no measure or edge behind; every
specifier of a file ends up in exactly one place.
-/

namespace CrateAtlas

open Discovery Job

def Resolution.leadsBackTo (path : Path) : Resolution → Bool
  | internal target => target.same path
  | _ => false

def Resolution.isExcluded : Resolution → Bool
  | excluded _ => true
  | _ => false

def Warning.isFailureIn (path : Path) : Warning → Bool
  | resolutionFailure file _ => file.same path
  | _ => false

namespace Discovery

def sourceWarnings (around : Surroundings) (path : Path) : List Warning :=
  match around.parse path with
  | .error error => [.parseError path error.message]
  | .ok outline =>
    if outline.declarationOnly then []
    else
      (outline.root.topLevelSpecifiers.filter
        fun specifier => around.resolve specifier path = .unresolved).map
          (.resolutionFailure path)

def historyWarnings (around : Surroundings) (path : Path) : List Warning :=
  match around.history with
  | none => []
  | some history =>
    match history path with
    | .ok _ => []
    | .error error => [.metricUnavailable (some path) .history error.message]

/-- Nothing is lost in the findings of a build: every failure is reported once, a file is measured
just if it could be parsed, and each specifier of it is accounted for. -/
structure Accounted (around : Surroundings) (findings : Findings) : Prop where
  warnings : findings.warnings.Perm (findings.nodes.toList.flatMap fun node =>
    sourceWarnings around node.path ++ historyWarnings around node.path)
  failed : ∀ node ∈ findings.nodes, ∀ error, around.parse node.path = .error error → node.Blank
  measured : ∀ node ∈ findings.nodes, ∀ outline, around.parse node.path = .ok outline →
    node.lineCount.isSome ∧ node.complexity.isSome ∧ node.maxDepth.isSome
  recorded : ∀ node ∈ findings.nodes, ∀ commits, node.history = some commits ↔
    ∃ history, around.history = some history ∧ history node.path = .ok commits
  specifiers : ∀ node ∈ findings.nodes, ∀ outline, around.parse node.path = .ok outline →
    outline.declarationOnly = false →
      outline.root.topLevelSpecifiers.length =
        node.imports.length + node.external.length +
        outline.root.topLevelSpecifiers.countP
          (fun specifier => (around.resolve specifier node.path).isExcluded) +
        outline.root.topLevelSpecifiers.countP
          (fun specifier => (around.resolve specifier node.path).leadsBackTo node.path) +
        findings.warnings.countP (Warning.isFailureIn node.path)

section

variable {around : Surroundings} {path : Path}

theorem filterMap_failure? (specifiers : List String) :
    specifiers.filterMap (failure? around path) =
      (specifiers.filter fun specifier => around.resolve specifier path = .unresolved).map
        (.resolutionFailure path) := by
  rw [← List.filterMap_eq_map, List.filterMap_filter]
  congr 1
  funext specifier
  unfold failure?
  cases around.resolve specifier path <;> simp

private theorem filterMap_warned (warnings : List Warning) (trace : List Question) :
    (((warnings.map .inl : List Note) : Multiset Note) + (trace.map .inr : List Note)).filterMap
      Sum.getLeft? = (warnings : Multiset Warning) := by
  rw [Multiset.filterMap_add, Multiset.filterMap_coe, Multiset.filterMap_coe, List.filterMap_map,
    List.filterMap_map]
  simp [Function.comp_def]

private theorem specifiersNotes_warned (specifiers : List String) :
    (specifiersNotes around path specifiers).filterMap Sum.getLeft? =
      (specifiers.filterMap (failure? around path) : List Warning) := by
  have one (specifier : String) : (specifierNotes around path specifier).filterMap Sum.getLeft? =
      (failure? around path specifier).toList := by
    rw [specifierNotes, Multiset.filterMap_cons, Multiset.filterMap_coe, List.filterMap_map]
    simp [Function.comp_def]
  rw [specifiersNotes, Multiset.filterMap_bind]
  simp only [one, Multiset.coe_bind, List.filterMap_eq_flatMap_toList]

private theorem parseNotes_warned :
    (parseNotes around path).filterMap Sum.getLeft? = (sourceWarnings around path : List Warning) := by
  unfold parseNotes sourceWarnings
  cases around.parse path with
  | error error => simp [← Multiset.cons_zero]
  | ok outline =>
    simp only [specifiersNotes_warned, filterMap_failure?, followed]
    cases outline.declarationOnly <;> simp

private theorem historyNotes_warned :
    (historyNotes around path).filterMap Sum.getLeft? =
      (historyWarnings around path : List Warning) := by
  unfold historyNotes historyWarnings
  cases around.history with
  | none => rfl
  | some history =>
    simp only
    cases history path <;> simp [← Multiset.cons_zero]

private theorem fileNotes_warned :
    (fileNotes around path).filterMap Sum.getLeft? =
      (sourceWarnings around path ++ historyWarnings around path : List Warning) := by
  have opening : (openingNotes around path).filterMap Sum.getLeft? = 0 := by
    unfold openingNotes
    split <;> simp [← Multiset.cons_zero, Multiset.filterMap_cons]
  rw [fileNotes, Multiset.filterMap_add, Multiset.filterMap_add, opening, parseNotes_warned,
    historyNotes_warned, zero_add, Multiset.coe_add]

/-- A specifier gives an edge, an external import or a failure, or it is left out or leads back. -/
theorem specifier_placed (specifier : String) :
    (target? around path specifier).toList.length + (external? around path specifier).toList.length +
      (if (around.resolve specifier path).isExcluded then 1 else 0) +
      (if (around.resolve specifier path).leadsBackTo path then 1 else 0) +
      (failure? around path specifier).toList.length = 1 := by
  unfold target? external? failure?
  cases around.resolve specifier path with
  | internal target =>
    by_cases self : target.same path = true
    · simp [Resolution.isExcluded, Resolution.leadsBackTo, self]
    · simp [Resolution.isExcluded, Resolution.leadsBackTo, self]
  | external text => rfl
  | excluded target => rfl
  | unresolved => rfl

private theorem length_specifiers (specifiers : List String) :
    specifiers.length =
      (specifiers.filterMap (target? around path)).length +
      (specifiers.filterMap (external? around path)).length +
      specifiers.countP (fun specifier => (around.resolve specifier path).isExcluded) +
      specifiers.countP (fun specifier => (around.resolve specifier path).leadsBackTo path) +
      (specifiers.filterMap (failure? around path)).length := by
  simp only [List.filterMap_eq_flatMap_toList]
  induction specifiers with
  | nil => rfl
  | cons specifier rest ih =>
    have placed := @specifier_placed around path specifier
    simp only [List.flatMap_cons, List.length_append, List.countP_cons, List.length_cons]
    omega

private theorem failures_own {file : Path} {warning : Warning}
    (member : warning ∈ sourceWarnings around file ++ historyWarnings around file)
    (failure : warning.isFailureIn path = true) : file.components = path.components := by
  unfold sourceWarnings historyWarnings at member
  rcases List.mem_append.mp member with source | history
  · split at source
    · rw [List.mem_singleton.mp source] at failure
      cases failure
    · split at source
      · cases source
      · obtain ⟨specifier, _, rfl⟩ := List.mem_map.mp source
        exact (Path.same_iff _ _).mp failure
  · split at history
    · cases history
    · split at history
      · cases history
      · rw [List.mem_singleton.mp history] at failure
        cases failure

private theorem failures_of_file {outline : FileOutline} (parsed : around.parse path = .ok outline)
    (follows : outline.declarationOnly = false) :
    (sourceWarnings around path ++ historyWarnings around path).filter (Warning.isFailureIn path) =
      outline.root.topLevelSpecifiers.filterMap (failure? around path) := by
  have history : (historyWarnings around path).filter (Warning.isFailureIn path) = [] := by
    unfold historyWarnings
    split
    · rfl
    · split <;> rfl
  rw [List.filter_append, history, List.append_nil, sourceWarnings, parsed]
  simp only [follows, Bool.false_eq_true, if_false]
  rw [← filterMap_failure?, List.filter_eq_self]
  intro warning member
  obtain ⟨specifier, _, failure⟩ := List.mem_filterMap.mp member
  unfold failure? at failure
  split at failure
  · cases failure
    simp [Warning.isFailureIn]
  · cases failure

end

end Discovery

private theorem Complete.accounted {around : Surroundings} {entry : Path} {registry : Registry}
    {warnings : List Warning} {trace : List Question} (complete : Complete around entry registry)
    (noted : ((warnings.map .inl : List Note) : Multiset Note) + (trace.map .inr : List Note) =
      (registry.paths : Multiset Path).bind (fileNotes around)) :
    Accounted around ⟨registry.nodes, warnings⟩ := by
  have reported : warnings.Perm (registry.paths.flatMap fun path =>
      sourceWarnings around path ++ historyWarnings around path) := by
    have same := congrArg (Multiset.filterMap Sum.getLeft?) noted
    rw [filterMap_warned, Multiset.filterMap_bind] at same
    simp only [fileNotes_warned, Multiset.coe_bind] at same
    exact Multiset.coe_eq_coe.mp same
  constructor
  case warnings => simpa [Registry.paths, List.flatMap_map] using reported
  case failed =>
    intro node member error failed
    obtain ⟨index, found⟩ := Array.mem_iff_getElem?.mp member
    exact complete.blank index node error found failed
  case measured =>
    intro node member outline parsed
    obtain ⟨index, found⟩ := Array.mem_iff_getElem?.mp member
    have analysed := complete.analysed index node outline found parsed
    simp [analysed.lineCount, analysed.complexity, analysed.maxDepth]
  case recorded =>
    intro node member commits
    obtain ⟨index, found⟩ := Array.mem_iff_getElem?.mp member
    rw [complete.recorded index node found, historyOf]
    cases around.history with
    | none => simp
    | some history => cases answer : history node.path <;> simp [answer, Except.toOption]
  case specifiers =>
    intro node member outline parsed follows
    obtain ⟨index, found⟩ := Array.mem_iff_getElem?.mp member
    have analysed := complete.analysed index node outline found parsed
    have listed : node.path ∈ registry.paths :=
      List.mem_map.mpr ⟨node, Array.mem_toList_iff.mpr member, rfl⟩
    have failures : warnings.countP (Warning.isFailureIn node.path) =
        (outline.root.topLevelSpecifiers.filterMap (failure? around node.path)).length := by
      rw [reported.countP_eq, List.countP_eq_length_filter,
        filter_flatMap_files complete.paths_distinct listed fun file warning => failures_own,
        failures_of_file parsed follows]
    rw [failures, analysed.imports.length_eq, analysed.external, targets, externals, followed, follows]
    exact length_specifiers outline.root.topLevelSpecifiers

namespace Discovery

/-- A build fails just if its entry cannot be read; if only finitely many paths can be parsed, it
succeeds otherwise. The findings of every build that succeeds account for all failures. -/
theorem build_accounts (around : Surroundings) (entry : Path) :
    ((∃ error, Yields around entry (.error error)) ↔
      ∃ path reason, around.parse entry = .error (.unreadable path reason)) ∧
    (∀ findings, Yields around entry (.ok findings) →
      (¬ ∃ path reason, around.parse entry = .error (.unreadable path reason)) ∧
      Accounted around findings) ∧
    ∀ files : List Path, (∀ path outline, around.parse path = .ok outline →
        ∃ file ∈ files, file.same path = true) →
      (¬ ∃ path reason, around.parse entry = .error (.unreadable path reason)) →
        ∃ findings, Yields around entry (.ok findings) := by
  have unreadable (cause : SourceError) (failed : around.parse entry = .error cause)
      (unread : cause.isUnreadable = true) :
      ∃ path reason, around.parse entry = .error (.unreadable path reason) := by
    cases cause with
    | unreadable path reason => exact ⟨path, reason, failed⟩
    | malformed path reason => cases unread
  refine ⟨⟨?_, ?_⟩, ?_, ?_⟩
  · rintro ⟨error, yields⟩
    rcases yields.outcome_cases with ⟨cause, failed, unread, _⟩ | ⟨_, _, _, _, _, same, _⟩
    · exact unreadable cause failed unread
    · cases same
  · rintro ⟨path, reason, failed⟩
    have ran : ∃ result trace, run around 1 entry = some (result, trace) := by
      unfold run
      simp only [process, analyze, failed, Option.map_some]
      exact ⟨_, _, rfl⟩
    obtain ⟨result, trace, ran⟩ := ran
    rcases (Yields.inOrder ran).outcome_cases with ⟨cause, _, _, rfl⟩ | ⟨readable, _⟩
    · exact ⟨_, .inOrder ran⟩
    · cases readable _ failed
  · intro findings yields
    rcases yields.outcome_cases with
      ⟨_, _, _, same⟩ | ⟨readable, registry, warnings, trace, complete, same, noted⟩
    · cases same
    · cases same
      refine ⟨?_, complete.accounted noted⟩
      rintro ⟨path, reason, failed⟩
      cases readable _ failed
  · intro files covers readable
    have reached : Covers around entry files := by
      intro path outline _ parsed
      obtain ⟨file, member, same⟩ := covers path outline parsed
      exact ⟨file, member, (Path.same_iff _ _).mp same⟩
    obtain ⟨⟨result, trace⟩, ran⟩ := run_total reached (Nat.le_refl _)
    rcases (Yields.inOrder ran).outcome_cases with
      ⟨cause, failed, unread, _⟩ | ⟨_, registry, warnings, _, _, rfl, _⟩
    · exact absurd (unreadable cause failed unread) readable
    · exact ⟨_, .inOrder ran⟩

/-- A file without a history names itself, a file that is not source text, a package, a file that is
left out and, twice, something that is lost. -/
def troubled : Surroundings where
  parse path :=
    if path.same "main" then
      .ok ⟨.node .file [.node .useItem [.specifier "main", .specifier "lost", .specifier "lib"],
        .node .useItem [.specifier "serde", .specifier "schema", .specifier "lost"]], 2, false⟩
    else .error (.malformed path "expected item")
  resolve specifier _ :=
    if specifier = "main" then .internal "main//"
    else if specifier = "lib" then .internal "lib"
    else if specifier = "serde" then .external "serde"
    else if specifier = "schema" then .excluded "schema"
    else .unresolved
  history := some fun path =>
    if path.same "main" then .error (.failed path "not a repository") else .ok ⟨3, 1⟩
  depthMode := .flat

theorem build_accounts_troubled :
    ∃ findings trace, run troubled 3 "main" = some (.ok findings, trace) ∧
      findings.warnings = [.resolutionFailure "main" "lost", .resolutionFailure "main" "lost",
        .parseError "lib" "Failed to parse lib: expected item",
        .metricUnavailable (some (.ofText "main")) .history "git log failed for main: not a repository"] ∧
      Accounted troubled findings := by
  have evaluated : (run troubled 3 "main").map (fun answer => answer.1.toOption.map (·.warnings)) =
      some (some [.resolutionFailure "main" "lost", .resolutionFailure "main" "lost",
        .parseError "lib" "Failed to parse lib: expected item",
        .metricUnavailable (some (.ofText "main")) .history "git log failed for main: not a repository"]) := by
    decide +kernel
  obtain ⟨⟨result, trace⟩, ran, found⟩ := Option.map_eq_some_iff.mp evaluated
  cases result with
  | error error => cases found
  | ok findings =>
    exact ⟨findings, trace, ran, Option.some.inj found,
      ((build_accounts troubled "main").2.1 findings (.inOrder ran)).2⟩

end Discovery

end CrateAtlas
