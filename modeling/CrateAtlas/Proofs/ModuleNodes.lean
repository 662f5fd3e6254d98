import CrateAtlas.Proofs.BuildOutcome
import CrateAtlas.Proofs.ImportClosure
import CrateAtlas.Proofs.ModuleFiles

/-!
One node for each module. Every file that a build of a crate finds is the file of a module, spelled
canonically, and leads on to such files only; so a module that is imported in many ways is one node.
-/

namespace CrateAtlas

open CrateAtlas.Path FileSystem Discovery

namespace Resolver

/-- What a build of a crate is given: its root file exists under its canonical path, specifiers are
resolved by its modules, and their names are names of modules. -/
structure Serves (files : FileSystem) (resolver : Resolver) (around : Surroundings) : Prop where
  beside : resolver.sourceDir = resolver.rootFile.parent?.getD ""
  canonical : files.canonical? resolver.rootFile = some resolver.rootFile
  isFile : files.isFile resolver.rootFile = true
  resolves : around.resolve = resolver.resolve files
  identifiers : ∀ path outline, around.parse path = .ok outline →
    ∀ specifier ∈ outline.root.topLevelSpecifiers, ∀ name ∈ segments specifier, ModuleName name

variable {files : FileSystem} {resolver : Resolver} {around : Surroundings} {path : Path}

/-- Imports lead from the root file to files of modules that no pattern leaves out. -/
theorem houses_of_reached (serves : resolver.Serves files around)
    (reached : Reached around resolver.rootFile path) :
    (∃ names, resolver.Houses files names path) ∧
      (path = resolver.rootFile ∨ resolver.isExcluded path = false) := by
  obtain ⟨dir, root, rooted⟩ := exists_rooted serves.beside serves.canonical serves.isFile
  induction reached with
  | entry => exact ⟨⟨[], houses_rootFile files resolver⟩, .inl rfl⟩
  | imported importer parsed member ih =>
    obtain ⟨⟨here, houses⟩, _⟩ := ih
    obtain ⟨_, specifier, listed, resolved, _⟩ := mem_targets.mp member
    rw [serves.resolves] at resolved
    obtain ⟨housed, kept⟩ := rooted.houses_of_resolve houses
      (serves.identifiers _ _ parsed specifier listed) resolved
    exact ⟨housed, .inr kept⟩

/-- A build from the root file of a crate finds files of modules only: each has the names of a module,
no two of them the same, and is spelled canonically. All but the root file are source files below its
directory that no pattern leaves out. So a specifier in one of them is unresolved only if it is empty,
or if its names mean nothing. -/
theorem nodes_one_per_module (files : FileSystem) (resolver : Resolver) (around : Surroundings)
    (serves : resolver.Serves files around) (findings : Findings)
    (yields : Yields around resolver.rootFile (.ok findings)) :
    (∀ node ∈ findings.nodes,
      (∃ names, resolver.modulePath? node.path = some names) ∧
      files.canonical? node.path = some node.path ∧
      (node.path = resolver.rootFile ∨
        files.isFile node.path = true ∧ node.path.fileExtension? = some (.ofText "rs") ∧
        (∃ relative, node.path.below? resolver.sourceDir = some relative ∧
          relative.components ≠ []) ∧
        resolver.isExcluded node.path = false)) ∧
    findings.nodes.toList.Pairwise
      (fun first second => resolver.modulePath? first.path ≠ resolver.modulePath? second.path) ∧
    ∀ node ∈ findings.nodes, ∀ specifier,
      resolver.resolve files specifier node.path = .unresolved →
        segments specifier = [] ∨ ∃ here first rest, resolver.modulePath? node.path = some here ∧
          segments specifier = first :: rest ∧ resolver.target files here first rest = .unknown := by
  obtain ⟨dir, root, rooted⟩ := exists_rooted serves.beside serves.canonical serves.isFile
  rcases yields.outcome_cases with ⟨_, _, _, same⟩ | ⟨_, registry, _, _, complete, same, _⟩
  · cases same
  cases same
  have housed (node : FileNode) (member : node ∈ registry.nodes) :
      (∃ names, resolver.Houses files names node.path) ∧
        (node.path = resolver.rootFile ∨ resolver.isExcluded node.path = false) := by
    obtain ⟨index, found⟩ := Array.mem_iff_getElem?.mp member
    exact houses_of_reached serves
      (complete.reached index node.path (Registry.pathOf?_eq_some_iff.mpr ⟨node, found, rfl⟩))
  refine ⟨?_, ?_, ?_⟩
  · intro node member
    obtain ⟨⟨names, houses⟩, kept⟩ := housed node member
    obtain ⟨isFile, canonical, below, source⟩ := rooted.housed_file houses
    refine ⟨⟨names, houses.names⟩, canonical, ?_⟩
    by_cases entry : node.path = resolver.rootFile
    · exact .inl entry
    · exact .inr ⟨isFile, source.resolve_left entry, below, kept.resolve_left entry⟩
  · have distinct := complete.paths_distinct
    rw [Registry.paths, List.map_map] at distinct
    refine (List.pairwise_map.mp distinct).imp_of_mem ?_
    intro first second memberFirst memberSecond apart same
    obtain ⟨⟨names, houses⟩, _⟩ := housed first (Array.mem_toList_iff.mp memberFirst)
    obtain ⟨⟨others, houses'⟩, _⟩ := housed second (Array.mem_toList_iff.mp memberSecond)
    rw [houses.names, houses'.names, Option.some.injEq] at same
    subst same
    exact apart (congrArg Path.components (houses.path_eq houses'))
  · intro node member specifier failed
    obtain ⟨⟨here, houses⟩, _⟩ := housed node member
    cases written : segments specifier with
    | nil => exact .inl rfl
    | cons first rest =>
      refine .inr ⟨here, first, rest, houses.names, rfl, ?_⟩
      simp only [resolve, written, houses.names] at failed
      cases meant : resolver.target files here first rest with
      | module names =>
        simp only [meant] at failed
        split at failed <;> cases failed
      | external => simp [meant] at failed
      | unknown => rfl

def village : FileSystem where
  root := .directory [("src", .directory [("lib.rs", .file (some "")), ("well.rs", .file (some "")),
    ("well", .directory [("mod.rs", .file (some ""))]),
    ("inn", .directory [("mod.rs", .file (some ""))])])]
  current := []

def neighbours : Surroundings where
  parse path :=
    if path.same "/src/lib.rs" then
      .ok ⟨.node .file [.node .useItem [.specifier "crate::well::Rope", .specifier "inn",
        .specifier "crate::lib::Sign"]], 1, false⟩
    else if path.same "/src/well.rs" then
      .ok ⟨.node .file [.node .useItem [.specifier "super::inn::Bed", .specifier "self::Bucket"]], 1, false⟩
    else .ok ⟨.node .file [], 0, false⟩
  resolve := (ofRootFile "/src/lib.rs").resolve village
  history := none
  depthMode := .flat

private theorem serves_neighbours : (ofRootFile "/src/lib.rs").Serves village neighbours where
  beside := rfl
  canonical := by decide +kernel
  isFile := by decide +kernel
  resolves := rfl
  identifiers := by
    intro path outline parsed
    have first : ∀ specifier ∈ ["crate::well::Rope", "inn", "crate::lib::Sign"],
        ∀ name ∈ segments specifier, ModuleName name := by decide +kernel
    have second : ∀ specifier ∈ ["super::inn::Bed", "self::Bucket"],
        ∀ name ∈ segments specifier, ModuleName name := by decide +kernel
    simp only [neighbours] at parsed
    split at parsed
    · cases parsed
      exact first
    · split at parsed
      · cases parsed
        exact second
      · cases parsed
        exact fun specifier listed => absurd listed List.not_mem_nil

theorem nodes_one_per_module_village :
    ∃ findings trace, run neighbours 5 "/src/lib.rs" = some (.ok findings, trace) ∧
      findings.nodes.map (·.path.display) = #["/src/lib.rs", "/src/well.rs", "/src/inn/mod.rs"] ∧
      findings.nodes.toList.Pairwise fun first second =>
        (ofRootFile "/src/lib.rs").modulePath? first.path ≠
          (ofRootFile "/src/lib.rs").modulePath? second.path := by
  have evaluated : (run neighbours 5 "/src/lib.rs").map (fun answer =>
      answer.1.toOption.map fun findings => findings.nodes.map (·.path.display)) =
        some (some #["/src/lib.rs", "/src/well.rs", "/src/inn/mod.rs"]) := by
    decide +kernel
  obtain ⟨⟨result, trace⟩, ran, found⟩ := Option.map_eq_some_iff.mp evaluated
  cases result with
  | error error => cases found
  | ok findings =>
    exact ⟨findings, trace, ran, Option.some.inj found,
      (nodes_one_per_module village _ neighbours serves_neighbours findings (.inOrder ran)).2.1⟩

end Resolver

end CrateAtlas
