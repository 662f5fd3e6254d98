import CrateAtlas.Proofs.BuildTermination
import Mathlib.Order.Bounds.Defs

/-!
Discovery finds the files that imports lead to, and no others: the paths of its nodes are the least
set that holds the entry and is closed under imports.
-/

namespace CrateAtlas

open Discovery Job

/-- A set of paths, in all their spellings, that holds the entry and what its files import. -/
structure ImportClosed (around : Surroundings) (entry : Path) (paths : Set Path) : Prop where
  entered : entry ∈ paths
  spelled : ∀ first second : Path, first.same second = true → first ∈ paths → second ∈ paths
  imported : ∀ path ∈ paths, ∀ outline, around.parse path = .ok outline →
    outline.declarationOnly = false → ∀ specifier ∈ outline.root.topLevelSpecifiers, ∀ target,
      around.resolve specifier path = .internal target → target.same path = false → target ∈ paths

theorem Discovery.mem_targets {around : Surroundings} {path target : Path} {outline : FileOutline} :
    target ∈ targets around path outline ↔ outline.declarationOnly = false ∧
      ∃ specifier ∈ outline.root.topLevelSpecifiers,
        around.resolve specifier path = .internal target ∧ target.same path = false := by
  have single (specifier : String) : target? around path specifier = some target ↔
      around.resolve specifier path = .internal target ∧ target.same path = false := by
    unfold target?
    cases around.resolve specifier path with
    | internal other =>
      by_cases self : other.same path = true
      · simp only [self, if_true]
        constructor
        · intro absurd
          cases absurd
        · rintro ⟨same, apart⟩
          cases same
          rw [self] at apart
          cases apart
      · simp only [self, Bool.false_eq_true, if_false, Option.some.injEq, Resolution.internal.injEq]
        constructor
        · rintro rfl
          exact ⟨rfl, Bool.eq_false_iff.mpr self⟩
        · exact fun both => both.1
    | _ => simp
  simp only [targets, List.mem_filterMap, single, followed]
  cases outline.declarationOnly <;> simp

private theorem ImportClosed.reached {around : Surroundings} {entry path : Path} {paths : Set Path}
    (closed : ImportClosed around entry paths) (reached : Reached around entry path) :
    path ∈ paths := by
  induction reached with
  | entry => exact closed.entered
  | imported importer parsed member ih =>
    obtain ⟨follows, specifier, present, resolved, apart⟩ := mem_targets.mp member
    exact closed.imported _ ih _ parsed follows specifier present _ resolved apart

namespace FileNode.Analysed

variable {around : Surroundings} {registry : Registry} {node : FileNode} {outline : FileOutline}

theorem import_of_target (analysed : node.Analysed around registry outline) {target : Path}
    (member : target ∈ targets around node.path outline) :
    ∃ index ∈ node.imports, registry.Numbers index target := by
  obtain ⟨position, inside, rfl⟩ := List.getElem_of_mem member
  have within : position < node.imports.length := analysed.imports.length_eq ▸ inside
  exact ⟨node.imports[position], List.getElem_mem within, analysed.imports.get within inside⟩

theorem target_of_import (analysed : node.Analysed around registry outline) {index : Nat}
    (member : index ∈ node.imports) :
    ∃ target ∈ targets around node.path outline, registry.Numbers index target := by
  obtain ⟨position, inside, rfl⟩ := List.getElem_of_mem member
  have within : position < (targets around node.path outline).length :=
    analysed.imports.length_eq ▸ inside
  exact ⟨_, List.getElem_mem within, analysed.imports.get inside within⟩

end FileNode.Analysed

namespace Complete

variable {around : Surroundings} {entry : Path} {registry : Registry}

theorem numbers_targets (complete : Complete around entry registry)
    (respects : around.RespectsPaths) {index : Nat} {path target : Path} {outline : FileOutline}
    (numbered : registry.Numbers index path) (parsed : around.parse path = .ok outline)
    (member : target ∈ targets around path outline) : ∃ other, registry.Numbers other target := by
  obtain ⟨known, found, same⟩ := numbered
  obtain ⟨node, present, rfl⟩ := Registry.pathOf?_eq_some_iff.mp found
  have analysed := complete.analysed index node outline present
    (parse_ok_alike respects same.symm parsed)
  -- the registry may spell the importer differently, which changes the spelling of targets only
  have spelled : target.components ∈ (targets around node.path outline).map Path.components := by
    rw [targets_alike respects same]
    exact List.mem_map_of_mem member
  obtain ⟨other, imported, alike⟩ := List.mem_map.mp spelled
  obtain ⟨index, _, file, there, spelling⟩ := analysed.import_of_target imported
  exact ⟨index, file, there, spelling.trans alike⟩

theorem numbers_reached (complete : Complete around entry registry)
    (respects : around.RespectsPaths) {path : Path} (reached : Reached around entry path) :
    ∃ index, registry.Numbers index path := by
  induction reached with
  | entry => exact ⟨0, entry, complete.entered, rfl⟩
  | imported importer parsed member ih =>
    obtain ⟨index, numbered⟩ := ih
    exact complete.numbers_targets respects numbered parsed member

private theorem importClosed (complete : Complete around entry registry) (respects : around.RespectsPaths) :
    ImportClosed around entry {path | ∃ index, registry.Numbers index path} := by
  refine ⟨⟨0, entry, complete.entered, rfl⟩, ?_, ?_⟩
  · rintro first second same ⟨index, known, found, spelled⟩
    exact ⟨index, known, found, spelled.trans ((Path.same_iff _ _).mp same)⟩
  · rintro path ⟨index, numbered⟩ outline parsed follows specifier present target resolved apart
    exact complete.numbers_targets respects numbered parsed
      (mem_targets.mpr ⟨follows, specifier, present, resolved, apart⟩)

private theorem isLeast (complete : Complete around entry registry) (respects : around.RespectsPaths) :
    IsLeast {paths | ImportClosed around entry paths}
      {path | ∃ index, registry.Numbers index path} := by
  refine ⟨complete.importClosed respects, ?_⟩
  rintro paths closed path ⟨index, known, found, same⟩
  exact closed.spelled known path ((Path.same_iff _ _).mpr same)
    (closed.reached (complete.reached index known found))

end Complete

namespace Discovery

private theorem run_complete {around : Surroundings} {fuel : Nat} {entry : Path} {findings : Findings}
    {trace : List Question} (ran : run around fuel entry = some (.ok findings, trace)) :
    ∃ registry, Complete around entry registry ∧ registry.nodes = findings.nodes := by
  obtain ⟨root, state, built, returned, result, _⟩ := run_interleaves ran
  refine ⟨state.registry, interleaves_complete built returned, ?_⟩
  rcases outcome_cases built returned with ⟨cause, _, _, failed⟩ | ⟨_, warnings, found, _⟩
  · cases failed.symm.trans result
  · have same := Except.ok.inj (found.symm.trans result)
    rw [← same]

/-- Discovery ends if only finitely many paths can be parsed. If it gives files, these are the entry
and the files that imports lead to from it, each once, with their measures and edges. -/
theorem run_importClosure (around : Surroundings) (respects : around.RespectsPaths)
    (files : List Path) (covers : ∀ path outline, around.parse path = .ok outline →
      ∃ file ∈ files, file.same path = true) (entry : Path) :
    (∀ fuel, files.length + 2 ≤ fuel → ∃ outcome, run around fuel entry = some outcome) ∧
    ∀ fuel findings trace, run around fuel entry = some (.ok findings, trace) →
      findings.nodes.toList.Pairwise (fun first second => first.path.same second.path = false) ∧
      (∃ node, findings.nodes[0]? = some node ∧ node.path = entry) ∧
      IsLeast {paths | ImportClosed around entry paths}
        {path | ∃ node ∈ findings.nodes, node.path.same path = true} ∧
      ∀ node ∈ findings.nodes, ∀ outline, around.parse node.path = .ok outline →
        node.lineCount = some outline.lineCount ∧
        node.complexity = some (outline.root.score around.depthMode 0).complexity ∧
        node.maxDepth = some (outline.root.score around.depthMode 0).maxDepth ∧
        List.Forall₂ (fun index target => ∃ file, findings.nodes[index]? = some file ∧
          file.path.same target = true) node.imports (targets around node.path outline) ∧
        node.external = externals around node.path outline := by
  constructor
  · intro fuel enough
    refine run_total (fun path outline _ parsed => ?_) enough
    obtain ⟨file, member, same⟩ := covers path outline parsed
    exact ⟨file, member, (Path.same_iff _ _).mp same⟩
  · intro fuel findings trace ran
    obtain ⟨registry, complete, same⟩ := run_complete ran
    rw [← same]
    refine ⟨?_, Registry.pathOf?_eq_some_iff.mp complete.entered, ?_, ?_⟩
    · have distinct := complete.paths_distinct
      rw [Registry.paths, List.map_map] at distinct
      refine (List.pairwise_map.mp distinct).imp fun apart => ?_
      exact Bool.eq_false_iff.mpr fun alike => apart ((Path.same_iff _ _).mp alike)
    · have least := complete.isLeast respects
      have nodes : {path | ∃ index, registry.Numbers index path} =
          {path | ∃ node ∈ registry.nodes, node.path.same path = true} := by
        ext path
        simp only [Set.mem_ofPred_eq, Registry.numbers_iff, Array.mem_iff_getElem?]
        constructor
        · rintro ⟨index, node, found, alike⟩
          exact ⟨node, ⟨index, found⟩, alike⟩
        · rintro ⟨node, ⟨index, found⟩, alike⟩
          exact ⟨index, node, found, alike⟩
      rwa [nodes] at least
    · intro node member outline parsed
      obtain ⟨index, found⟩ := Array.mem_iff_getElem?.mp member
      have analysed := complete.analysed index node outline found parsed
      exact ⟨analysed.lineCount, analysed.complexity, analysed.maxDepth,
        analysed.imports.imp fun _ _ numbered => Registry.numbers_iff.mp numbered, analysed.external⟩

/-- A file of four lines imports itself, a package and, in two spellings, a file that imports it back
and a file that is not source text. -/
def tangled : Surroundings where
  parse path :=
    if path.same "main" then
      .ok ⟨.node .file [.node .useItem [.specifier "main", .specifier "lib"],
        .node .useItem [.specifier "serde", .specifier "again"]], 4, false⟩
    else if path.same "src/lib" then
      .ok ⟨.node .file [.node .useItem [.specifier "main", .specifier "gone"]], 2, false⟩
    else .error (.malformed "gone" "expected item")
  resolve specifier _ :=
    if specifier = "main" then .internal "main"
    else if specifier = "lib" then .internal "src/lib"
    else if specifier = "again" then .internal "src//lib/"
    else if specifier = "gone" then .internal "gone"
    else .external specifier
  history := none
  depthMode := .nested

private theorem tangled_respects : tangled.RespectsPaths := by
  constructor
  · intro first second same
    have alike (other : Path) : first.same other = second.same other := by simp only [Path.same, same]
    simp only [tangled, alike]
    exact .refl _ _
  · intro specifier first second same
    exact .refl _

private theorem tangled_covers (path : Path) (outline : FileOutline)
    (parsed : tangled.parse path = .ok outline) :
    ∃ file ∈ [("main" : Path), "src/lib"], file.same path = true := by
  by_cases main : path.same "main" = true
  · exact ⟨"main", by simp, (Path.same_iff _ _).mpr ((Path.same_iff _ _).mp main).symm⟩
  · by_cases lib : path.same "src/lib" = true
    · exact ⟨"src/lib", by simp, (Path.same_iff _ _).mpr ((Path.same_iff _ _).mp lib).symm⟩
    · simp only [tangled, main, lib, Bool.false_eq_true, if_false] at parsed
      cases parsed

theorem run_importClosure_tangled :
    (∃ outcome, run tangled 4 "main" = some outcome) ∧
    ∃ findings trace, run tangled 4 "main" = some (.ok findings, trace) ∧
      findings.nodes.map (fun node => (node.path.display, node.imports)) =
        #[("main", [1, 1]), ("src/lib", [0, 2]), ("gone", [])] ∧
      IsLeast {paths | ImportClosed tangled "main" paths}
        {path | ∃ node ∈ findings.nodes, node.path.same path = true} := by
  have closure := run_importClosure tangled tangled_respects [.ofText "main", .ofText "src/lib"]
    tangled_covers "main"
  refine ⟨closure.1 4 (by decide), ?_⟩
  have evaluated : (run tangled 4 "main").map (fun answer => answer.1.toOption.map fun findings =>
      findings.nodes.map fun node => (node.path.display, node.imports)) =
        some (some #[("main", [1, 1]), ("src/lib", [0, 2]), ("gone", [])]) := by
    decide +kernel
  obtain ⟨⟨result, trace⟩, ran, found⟩ := Option.map_eq_some_iff.mp evaluated
  cases result with
  | error error => cases found
  | ok findings =>
    exact ⟨findings, trace, ran, Option.some.inj found,
      (closure.2 4 findings trace ran).2.2.1⟩

end Discovery

end CrateAtlas
