import CrateAtlas.Analysis
import CrateAtlas.Proofs.DirectoryContents
import CrateAtlas.Proofs.ModuleNodes
import CrateAtlas.Proofs.Specifiers

/-!
The exploration of a project. Its entry file has a canonical path, so the files that it leads to are
files of modules, each spelled in one way; there are no more of them than the file system has, so the
search always ends.
-/

namespace CrateAtlas

open CrateAtlas.Path FileSystem Discovery

theorem FileOutline.isFile_of_ofFile {files : FileSystem} {path : Path} {excludeTests : Bool}
    {outline : FileOutline} (parsed : ofFile files excludeTests path = .ok outline) :
    files.isFile path = true := by
  unfold ofFile at parsed
  split at parsed
  · next text read =>
    obtain ⟨place, located, content⟩ := bind_ok read
    rw [isFile, located]
    split at content
    · next whole =>
      dsimp only
      rw [whole, FileTree.isFile]
    · cases content
    · cases content
  · cases parsed
  · cases parsed

/-- What is read, whether it is source text or not, is a file. -/
theorem FileOutline.isFile_of_readable {files : FileSystem} {path : Path} {excludeTests : Bool}
    (readable : ∀ cause, ofFile files excludeTests path = .error cause → cause.isUnreadable = false) :
    files.isFile path = true := by
  unfold ofFile FileSystem.read at readable
  unfold FileSystem.isFile
  cases located : files.locate path with
  | error error =>
    rw [located] at readable
    rcases locate_error located with rfl | rfl <;> cases readable _ rfl
  | ok place =>
    obtain ⟨way, tree⟩ := place
    cases tree with
    | file content => rfl
    | directory children =>
      rw [located] at readable
      cases readable _ rfl

theorem Discovery.reached_unparsed {around : Surroundings} {entry path : Path}
    (unparsed : ∀ outline, around.parse entry ≠ .ok outline) (reached : Reached around entry path) :
    path = entry := by
  induction reached with
  | entry => rfl
  | imported importer parsed member ih => exact absurd (ih ▸ parsed) (unparsed _)

/-- A build in any order numbers each file once. -/
theorem Discovery.Yields.paths_distinct {around : Surroundings} {entry : Path} {findings : Findings}
    (yields : Yields around entry (.ok findings)) :
    (findings.nodes.toList.map (·.path.components)).Nodup := by
  rcases yields.outcome_cases with ⟨_, _, _, same⟩ | ⟨_, registry, _, _, complete, same, _⟩
  · cases same
  · cases same
    have distinct := complete.paths_distinct
    rw [Registry.paths, List.map_map] at distinct
    exact distinct

namespace Resolver.Serves

variable {files : FileSystem} {resolver : Resolver} {around : Surroundings} {first second path : Path}

theorem reached_file (serves : resolver.Serves files around)
    (reached : Reached around resolver.rootFile path) :
    files.isFile path = true ∧ files.canonical? path = some path := by
  obtain ⟨dir, root, rooted⟩ := exists_rooted serves.beside serves.canonical serves.isFile
  obtain ⟨⟨names, houses⟩, _⟩ := houses_of_reached serves reached
  obtain ⟨isFile, canonical, _⟩ := rooted.housed_file houses
  exact ⟨isFile, canonical⟩

private theorem reached_inj (serves : resolver.Serves files around)
    (reached : Reached around resolver.rootFile first)
    (reached' : Reached around resolver.rootFile second)
    (same : first.components = second.components) : first = second := by
  obtain ⟨isFile, canonical⟩ := serves.reached_file reached
  obtain ⟨isFile', canonical'⟩ := serves.reached_file reached'
  exact canonical_inj canonical isFile canonical' isFile' same

private theorem covers (serves : resolver.Serves files around) :
    Covers around resolver.rootFile (files.root.ways.map absolute) := by
  intro path outline reached _
  obtain ⟨isFile, canonical⟩ := serves.reached_file reached
  obtain ⟨dir, name, content, rfl, _, found⟩ := canonical_file canonical isFile
  exact ⟨_, List.mem_map.mpr ⟨_, FileTree.mem_ways found, rfl⟩, rfl⟩

end Resolver.Serves

namespace AnalysisPlan

variable {files : FileSystem} {tools : Tools} {path : Path} {options : AnalysisOptions}
  {plan : AnalysisPlan}

theorem make_entry (made : make files tools path options = .ok plan) :
    ∃ raw settings layout, plan.entry = files.canonical raw ∧
      plan.resolver = resolverFor files plan.entry settings layout := by
  unfold make at made
  split at made
  · cases made
  · obtain ⟨settings, _, made⟩ := bind_ok made
    obtain ⟨layout, _, made⟩ := bind_ok made
    split at made
    · cases made
    · next raw _ =>
      obtain ⟨query, _, made⟩ := bind_ok made
      cases made
      exact ⟨raw, settings, layout, rfl, rfl⟩

theorem resolverFor_root (files : FileSystem) (entry : Path) (settings : Settings)
    (layout : Option Layout) :
    (resolverFor files entry settings layout).rootFile = entry ∧
      (resolverFor files entry settings layout).sourceDir = entry.parent?.getD "" := by
  cases layout <;> exact ⟨rfl, rfl⟩

theorem make_rootFile (made : make files tools path options = .ok plan) :
    plan.resolver.rootFile = plan.entry := by
  obtain ⟨_, settings, layout, _, resolver⟩ := make_entry made
  rw [resolver]
  exact (resolverFor_root files plan.entry settings layout).1

/-- A plan whose entry is a file explores a crate from its root file. -/
theorem serves_of_isFile (current : ∀ name ∈ files.current, PlainName name)
    (made : make files tools path options = .ok plan) (isFile : files.isFile plan.entry = true) :
    plan.resolver.Serves files (plan.surroundings files tools) := by
  obtain ⟨raw, settings, layout, entry, resolver⟩ := make_entry made
  obtain ⟨root, beside⟩ := resolverFor_root files plan.entry settings layout
  rw [← resolver] at root beside
  refine ⟨by rw [beside, root], ?_, by rwa [root], rfl, ?_⟩
  · rw [root, entry]
    exact canonical?_canonical current (entry ▸ isFile)
  · exact fun path outline parsed => FileOutline.moduleName_of_ofFile parsed

/-- A plan explores a crate from its root file, or its entry is no source text. -/
theorem serves_or_unparsed (current : ∀ name ∈ files.current, PlainName name)
    (made : make files tools path options = .ok plan) :
    plan.resolver.rootFile = plan.entry ∧
      (plan.resolver.Serves files (plan.surroundings files tools) ∨
        ∀ outline, (plan.surroundings files tools).parse plan.entry ≠ .ok outline) := by
  refine ⟨make_rootFile made, ?_⟩
  -- a path that denotes no file stays as it was given, and need not be canonical
  by_cases isFile : files.isFile plan.entry = true
  · exact .inl (serves_of_isFile current made isFile)
  · exact .inr fun outline parsed => isFile (FileOutline.isFile_of_ofFile parsed)

/-- What a successful exploration finds are files, spelled canonically. -/
theorem found_file (current : ∀ name ∈ files.current, PlainName name)
    (made : make files tools path options = .ok plan) {findings : Findings}
    (yields : Yields (plan.surroundings files tools) plan.entry (.ok findings)) {node : FileNode}
    (member : node ∈ findings.nodes) :
    files.isFile node.path = true ∧ files.canonical? node.path = some node.path := by
  rcases yields.outcome_cases with ⟨_, _, _, same⟩ | ⟨readable, registry, _, _, complete, same, _⟩
  · cases same
  cases same
  obtain ⟨index, found⟩ := Array.mem_iff_getElem?.mp member
  have reached := complete.reached index node.path
    (Registry.pathOf?_eq_some_iff.mpr ⟨node, found, rfl⟩)
  rw [← make_rootFile made] at reached
  exact (serves_of_isFile current made (FileOutline.isFile_of_readable readable)).reached_file reached

/-- An exploration spells each file in one way. -/
theorem reached_inj (current : ∀ name ∈ files.current, PlainName name)
    (made : make files tools path options = .ok plan) {first second : Path}
    (reached : Reached (plan.surroundings files tools) plan.entry first)
    (reached' : Reached (plan.surroundings files tools) plan.entry second)
    (same : first.components = second.components) : first = second := by
  obtain ⟨root, serves | unparsed⟩ := serves_or_unparsed current made
  · rw [← root] at reached reached'
    exact serves.reached_inj reached reached' same
  · rw [reached_unparsed unparsed reached, reached_unparsed unparsed reached']

/-- An exploration has fuel enough, so it is a whole discovery. -/
theorem explore_yields (current : ∀ name ∈ files.current, PlainName name)
    (made : make files tools path options = .ok plan) :
    Yields (plan.surroundings files tools) plan.entry (plan.explore files tools).1 := by
  have covers : Covers (plan.surroundings files tools) plan.entry (files.root.ways.map absolute) := by
    obtain ⟨root, serves | unparsed⟩ := serves_or_unparsed current made
    · exact root ▸ serves.covers
    · intro path outline reached parsed
      exact absurd (reached_unparsed unparsed reached ▸ parsed) (unparsed outline)
  obtain ⟨outcome, ran⟩ := run_total covers (by simp : _ ≤ files.root.ways.length + 2)
  rw [explore, ran, Option.getD_some]
  exact .inOrder ran

end AnalysisPlan

end CrateAtlas
