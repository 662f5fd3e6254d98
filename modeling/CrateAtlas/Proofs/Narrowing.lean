import CrateAtlas.Proofs.DeepestFile
import CrateAtlas.Proofs.Exploration
import CrateAtlas.Proofs.LooseImports
import CrateAtlas.Proofs.PathSpelling

/-!
Narrower builds. More patterns for files to leave out, or no items for tests, take imports away and add
none, so a build finds fewer files. What it says of a file that it still finds depends on that file
alone, in whatever order and by whatever imports it was found.
-/

namespace CrateAtlas

open Source Discovery

namespace Outline

variable {kept parts : List Outline}

private theorem scoreAll_sublist (mode : DepthMode) (depth : Nat) (fewer : kept.Sublist parts) :
    (scoreAll mode depth kept).complexity ≤ (scoreAll mode depth parts).complexity := by
  induction fewer with
  | slnil => exact Nat.le_refl _
  | cons part _ ih =>
    rw [scoreAll]
    dsimp only
    omega
  | cons_cons part _ ih =>
    rw [scoreAll, scoreAll]
    dsimp only
    omega

private theorem score_sublist (kind : Kind) (mode : DepthMode) (depth : Nat) (fewer : kept.Sublist parts) :
    (score mode depth (.node kind kept)).complexity ≤
      (score mode depth (.node kind parts)).complexity := by
  have inner := scoreAll_sublist mode (mode.below kind depth) fewer
  rw [score, score]
  dsimp only
  omega

private theorem topLevelSpecifiers_sublist (kind : Kind) (fewer : kept.Sublist parts) :
    (topLevelSpecifiers (.node kind kept)).Sublist (topLevelSpecifiers (.node kind parts)) :=
  (fewer.filter _).flatMap _

end Outline

private theorem Source.Construct.outlineAll_sublist {kept items : List Construct}
    (fewer : kept.Sublist items) : (outlineAll kept).Sublist (outlineAll items) := by
  induction fewer with
  | slnil => exact .refl _
  | cons item _ ih => exact ih.trans (List.sublist_append_right _ _)
  | cons_cons item _ ih => exact (List.Sublist.refl _).append ih

namespace FileOutline

/-- An outline of which some parts may have been left out. -/
structure Within (part whole : FileOutline) : Prop where
  lineCount : part.lineCount = whole.lineCount
  followed : (followed part).Sublist (followed whole)
  complexity : ∀ mode, (part.root.score mode 0).complexity ≤ (whole.root.score mode 0).complexity

/-- Answers to the question for an outline, of which the second may leave out less. -/
inductive Shrinks : Except SourceError FileOutline → Except SourceError FileOutline → Prop where
  | failed (error error' : SourceError) : Shrinks (.error error) (.error error')
  | parsed {part whole : FileOutline} (within : part.Within whole) : Shrinks (.ok part) (.ok whole)

private theorem ofFile_shrinks (files : FileSystem) (path : Path) {tests tests' : Bool}
    (switched : tests = true → tests' = true) :
    Shrinks (ofFile files tests' path) (ofFile files tests path) := by
  unfold ofFile
  split
  · next text _ =>
    unfold ofText
    split
    · exact .failed _ _
    · next file _ =>
      have fewer : (file.items.filter fun item => !(tests' && item.isTestOnly)).Sublist
          (file.items.filter fun item => !(tests && item.isTestOnly)) := by
        apply List.monotone_filter_right
        intro item stays
        cases tests with
        | false => simp
        | true => simpa [switched rfl] using stays
      have outlines := Construct.outlineAll_sublist fewer
      refine .parsed ⟨rfl, ?_, fun mode => Outline.score_sublist .file mode 0 outlines⟩
      unfold Discovery.followed
      dsimp only
      split
      · exact .refl _
      · exact Outline.topLevelSpecifiers_sublist .file outlines
  · exact .failed _ _
  · exact .failed _ _

end FileOutline

/-- Surroundings in which parts of files are left out, or files are left out that specifiers lead to. -/
structure Surroundings.Narrows (narrow wide : Surroundings) : Prop where
  parse : ∀ path, FileOutline.Shrinks (narrow.parse path) (wide.parse path)
  resolve : ∀ specifier path, narrow.resolve specifier path = wide.resolve specifier path ∨
    ∃ target, narrow.resolve specifier path = .excluded target ∧
      wide.resolve specifier path = .internal target
  depthMode : narrow.depthMode = wide.depthMode

namespace Surroundings.Narrows

variable {narrow wide : Surroundings} {path : Path}

theorem parsed (narrows : narrow.Narrows wide) {part : FileOutline}
    (parsed : narrow.parse path = .ok part) :
    ∃ whole, wide.parse path = .ok whole ∧ part.Within whole := by
  have shrinks := narrows.parse path
  rw [parsed] at shrinks
  generalize wide.parse path = answer at shrinks ⊢
  cases shrinks with
  | parsed within => exact ⟨_, rfl, within⟩

private theorem target? (narrows : narrow.Narrows wide) {specifier : String} {target : Path}
    (leads : Discovery.target? narrow path specifier = some target) :
    Discovery.target? wide path specifier = some target := by
  unfold Discovery.target? at leads ⊢
  rcases narrows.resolve specifier path with same | ⟨_, excluded, _⟩
  · rwa [← same]
  · rw [excluded] at leads
    cases leads

private theorem external? (narrows : narrow.Narrows wide) :
    Discovery.external? narrow path = Discovery.external? wide path := by
  funext specifier
  unfold Discovery.external?
  rcases narrows.resolve specifier path with same | ⟨_, excluded, internal⟩
  · rw [same]
  · rw [excluded, internal]

/-- Whatever is reached with less to import is reached with more. -/
theorem reached (narrows : narrow.Narrows wide) {entry : Path} (reached : Reached narrow entry path) :
    Reached wide entry path := by
  induction reached with
  | entry => exact .entry
  | imported importer parsed member ih =>
    obtain ⟨whole, parsed', within⟩ := narrows.parsed parsed
    obtain ⟨specifier, listed, leads⟩ := List.mem_filterMap.mp member
    exact ih.imported parsed'
      (List.mem_filterMap.mpr ⟨specifier, within.followed.subset listed, narrows.target? leads⟩)

end Surroundings.Narrows

/-- As far as imports lead, the spelling of a path makes no difference to what its file holds and
imports. -/
structure Surroundings.UniformFrom (around : Surroundings) (entry : Path) : Prop where
  parse : ∀ {first second : Path} {outline : FileOutline}, Reached around entry first →
    Reached around entry second → first.components = second.components →
      around.parse first = .ok outline → around.parse second = .ok outline
  resolve : ∀ {first second : Path}, first.components = second.components → ∀ specifier,
    around.resolve specifier first = around.resolve specifier second

namespace Surroundings.UniformFrom

variable {around : Surroundings} {entry first second : Path}

private theorem targets (uniform : around.UniformFrom entry) (same : first.components = second.components)
    (outline : FileOutline) :
    Discovery.targets around first outline = Discovery.targets around second outline := by
  have single : Discovery.target? around first = Discovery.target? around second := by
    funext specifier
    have self (target : Path) : target.same first = target.same second := by
      rw [Path.same, same, Path.same]
    unfold Discovery.target?
    rw [uniform.resolve same specifier]
    cases around.resolve specifier second with
    | internal target => simp only [self]
    | _ => rfl
  rw [Discovery.targets, single, Discovery.targets]

private theorem externals (uniform : around.UniformFrom entry) (same : first.components = second.components)
    (outline : FileOutline) :
    Discovery.externals around first outline = Discovery.externals around second outline := by
  have single : Discovery.external? around first = Discovery.external? around second := by
    funext specifier
    unfold Discovery.external?
    rw [uniform.resolve same specifier]
  rw [Discovery.externals, single, Discovery.externals]

private theorem numbers_reached (uniform : around.UniformFrom entry) {registry : Registry}
    (complete : Complete around entry registry) {path : Path} (reached : Reached around entry path) :
    ∃ index, registry.Numbers index path := by
  induction reached with
  | entry => exact ⟨0, entry, complete.entered, rfl⟩
  | imported importer parsed member ih =>
    obtain ⟨index, known, found, same⟩ := ih
    have parsed' := uniform.parse importer (complete.reached index known found) same.symm parsed
    obtain ⟨node, present, rfl⟩ := Registry.pathOf?_eq_some_iff.mp found
    have analysed := complete.analysed index node _ present parsed'
    rw [← uniform.targets same] at member
    obtain ⟨other, _, numbers⟩ := analysed.import_of_target member
    exact ⟨other, numbers⟩

end Surroundings.UniformFrom

namespace Complete

variable {narrow wide : Surroundings} {entry : Path} {fewer all : Registry} {node : FileNode}

/-- A file that a narrower build finds is found by the wider one, and both builds have read it, of
which the narrower one may have left parts out, or neither has. -/
theorem widen (narrower : Complete narrow entry fewer) (complete : Complete wide entry all)
    (narrows : narrow.Narrows wide) (uniform : wide.UniformFrom entry) (member : node ∈ fewer.nodes) :
    ∃ whole ∈ all.nodes, whole.path.components = node.path.components ∧
      (node.Blank ∧ whole.Blank ∨
        ∃ part full, FileOutline.Within part full ∧ narrow.parse node.path = .ok part ∧
          wide.parse node.path = .ok full ∧ node.Analysed narrow fewer part ∧
          whole.Analysed wide all full) := by
  obtain ⟨index, found⟩ := Array.mem_iff_getElem?.mp member
  have reached : Reached wide entry node.path :=
    narrows.reached (narrower.reached index _ (Registry.pathOf?_eq_some_iff.mpr ⟨node, found, rfl⟩))
  obtain ⟨other, known, numbered, same⟩ := uniform.numbers_reached complete reached
  have reached' := complete.reached other known numbered
  obtain ⟨whole, found', rfl⟩ := Registry.pathOf?_eq_some_iff.mp numbered
  refine ⟨whole, Array.mem_iff_getElem?.mpr ⟨other, found'⟩, same, ?_⟩
  cases parsed : narrow.parse node.path with
  | error error =>
    refine .inl ⟨narrower.blank index node error found parsed, ?_⟩
    cases parsed' : wide.parse whole.path with
    | error error' => exact complete.blank other whole error' found' parsed'
    | ok outline =>
      have shrinks := narrows.parse node.path
      rw [parsed, uniform.parse reached' reached same parsed'] at shrinks
      cases shrinks
  | ok part =>
    obtain ⟨full, parsed', within⟩ := narrows.parsed parsed
    exact .inr ⟨part, full, within, rfl, parsed', narrower.analysed index node part found parsed,
      complete.analysed other whole full found' (uniform.parse reached reached' same.symm parsed')⟩

end Complete

private theorem Discovery.Yields.complete {around : Surroundings} {entry : Path} {found : Findings}
    (yields : Yields around entry (.ok found)) :
    ∃ registry, Complete around entry registry ∧ registry.nodes = found.nodes := by
  rcases yields.outcome_cases with ⟨_, _, _, failed⟩ | ⟨_, registry, _, _, complete, same, _⟩
  · cases failed
  · cases same
    exact ⟨registry, complete, rfl⟩

namespace Resolver

variable {files : FileSystem} {resolver : Resolver} {exclude : List Glob}

def surroundings (files : FileSystem) (resolver : Resolver) (excludeTests : Bool)
    (history : Option (Path → Except HistoryError CommitHistory)) (depthMode : DepthMode) :
    Surroundings :=
  ⟨FileOutline.ofFile files excludeTests, resolver.resolve files, history, depthMode⟩

private theorem isExcluded_withExclude (more : resolver.exclude ⊆ exclude) {path : Path}
    (excluded : resolver.isExcluded path = true) :
    (resolver.withExclude exclude).isExcluded path = true := by
  obtain ⟨glob, member, fits⟩ := List.any_eq_true.mp excluded
  exact List.any_eq_true.mpr ⟨glob, more member, fits⟩

/-- More patterns change what a specifier leads to only where they leave a file out. -/
theorem resolve_withExclude (more : resolver.exclude ⊆ exclude) (specifier : String)
    (importer : Path) :
    (resolver.withExclude exclude).resolve files specifier importer =
        resolver.resolve files specifier importer ∨
      ∃ target, (resolver.withExclude exclude).resolve files specifier importer = .excluded target ∧
        resolver.resolve files specifier importer = .internal target := by
  have own : resolver.withExclude resolver.exclude = resolver := rfl
  have before := @resolve_relabels files resolver resolver.exclude specifier importer
  rw [own] at before
  rw [before, resolve_relabels exclude]
  cases (resolver.withExclude []).resolve files specifier importer with
  | internal file =>
    dsimp only
    by_cases left : resolver.isExcluded file = true
    · rw [if_pos (isExcluded_withExclude more left), if_pos left]
      exact .inl rfl
    · rw [if_neg left]
      split
      · exact .inr ⟨_, rfl, rfl⟩
      · exact .inl rfl
  | _ => exact .inl rfl

private theorem narrows (files : FileSystem) (more : resolver.exclude ⊆ exclude) {tests tests' : Bool}
    (switched : tests = true → tests' = true)
    (history : Option (Path → Except HistoryError CommitHistory)) (mode : DepthMode) :
    ((resolver.withExclude exclude).surroundings files tests' history mode).Narrows
      (resolver.surroundings files tests history mode) :=
  ⟨fun path => FileOutline.ofFile_shrinks files path switched, resolve_withExclude more, rfl⟩

private theorem isFile_of_resolve {specifier : String} {importer target : Path}
    (resolved : resolver.resolve files specifier importer = .internal target) :
    target = resolver.rootFile ∨ files.isFile target = true := by
  obtain ⟨_, _, _, _, deepest⟩ := resolve_file_iff.mp (.inl resolved)
  exact deepest.isFile

variable {tests : Bool} {history : Option (Path → Except HistoryError CommitHistory)}
  {mode : DepthMode}

private theorem isFile_of_reached {path : Path}
    (reached : Reached (resolver.surroundings files tests history mode) resolver.rootFile path) :
    path = resolver.rootFile ∨ files.isFile path = true := by
  cases reached with
  | entry => exact .inl rfl
  | imported importer parsed member =>
    obtain ⟨_, _, _, resolved, _⟩ := mem_targets.mp member
    exact isFile_of_resolve resolved

/-- A crate does not depend on how its files are spelled: a path that ends in a slash denotes no file,
but it is not reached unless it is that of the root file, and then there is nothing else. -/
theorem uniformFrom (files : FileSystem) (resolver : Resolver) (tests : Bool)
    (history : Option (Path → Except HistoryError CommitHistory)) (mode : DepthMode) :
    (resolver.surroundings files tests history mode).UniformFrom resolver.rootFile := by
  refine ⟨?_, fun same specifier => resolve_same files same specifier⟩
  intro first second outline reached reached' same parsed
  have isFile := FileOutline.isFile_of_ofFile parsed
  rcases isFile_of_reached reached' with rfl | isFile'
  · by_cases root : ∃ outline, FileOutline.ofFile files tests resolver.rootFile = .ok outline
    · obtain ⟨whole, parsed'⟩ := root
      exact FileOutline.ofFile_same same isFile (FileOutline.isFile_of_ofFile parsed') parsed
    · have only := reached_unparsed (fun outline parsed' => root ⟨outline, parsed'⟩) reached
      exact only ▸ parsed
  · exact FileOutline.ofFile_same same isFile isFile' parsed

/-- A build of the same crate that leaves more files out, or the items for tests, finds fewer files.
Of a file that both builds find it says no more, and without a change to the items it says the same. -/
theorem narrowing_removes (files : FileSystem) (resolver : Resolver)
    (history : Option (Path → Except HistoryError CommitHistory)) (mode : DepthMode)
    (exclude : List Glob) (more : resolver.exclude ⊆ exclude)
    (tests tests' : Bool) (switched : tests = true → tests' = true) (found found' : Findings)
    (built : Yields (resolver.surroundings files tests history mode) resolver.rootFile (.ok found))
    (narrowed : Yields ((resolver.withExclude exclude).surroundings files tests' history mode)
      resolver.rootFile (.ok found')) :
    ∀ node ∈ found'.nodes, ∃ whole ∈ found.nodes, whole.path.same node.path = true ∧
      node.lineCount = whole.lineCount ∧
      node.complexity.isSome = whole.complexity.isSome ∧
      node.complexity.getD 0 ≤ whole.complexity.getD 0 ∧
      node.external.Sublist whole.external ∧
      (tests' = tests → node.complexity = whole.complexity ∧ node.maxDepth = whole.maxDepth ∧
        node.external = whole.external) := by
  have narrows := narrows files more switched history mode
  have uniform := uniformFrom files resolver tests history mode
  obtain ⟨fewer, narrower, nodes'⟩ := narrowed.complete
  obtain ⟨all, complete, nodes⟩ := built.complete
  rw [← nodes, ← nodes']
  intro node member
  obtain ⟨whole, present, same, facts⟩ := narrower.widen complete narrows uniform member
  refine ⟨whole, present, (Path.same_iff _ _).mpr same, ?_⟩
  rcases facts with ⟨blank, blank'⟩ | ⟨part, full, within, parsed, parsed', analysed, analysed'⟩
  · rw [blank.lineCount, blank.complexity, blank.maxDepth, blank.external, blank'.lineCount,
      blank'.complexity, blank'.maxDepth, blank'.external]
    exact ⟨rfl, rfl, Nat.le_refl _, .refl _, fun _ => ⟨rfl, rfl, rfl⟩⟩
  · have external : node.external = (followed part).filterMap
        (external? (resolver.surroundings files tests history mode) node.path) := by
      rw [analysed.external, externals, narrows.external?]
    have external' : whole.external = (followed full).filterMap
        (external? (resolver.surroundings files tests history mode) node.path) := by
      rw [analysed'.external, uniform.externals same, externals]
    rw [external, external', analysed.lineCount, analysed'.lineCount, analysed.complexity,
      analysed'.complexity, analysed.maxDepth, analysed'.maxDepth]
    refine ⟨congrArg _ within.lineCount, rfl, within.complexity mode, within.followed.filterMap _, ?_⟩
    rintro rfl
    obtain rfl : part = full := Except.ok.inj (parsed.symm.trans parsed')
    exact ⟨rfl, rfl, rfl⟩

def orchard : FileSystem where
  root := .directory [
    ("lib.rs", .file (some ("mod pear;\nmod plum;\nuse serde::Value;\n" ++
      "#[cfg(test)]\nmod wasp;\n#[cfg(test)]\nuse quick::Check;\n"))),
    ("pear.rs", .file (some "fn ripe() { if soft {} }\n")), ("plum.rs", .file (some "")),
    ("wasp.rs", .file (some ""))]
  current := []

/-- Without tests and without one module, two files of the orchard stay. -/
theorem narrowing_removes_orchard :
    ∃ found found' trace trace',
      run ((ofRootFile "lib.rs").surroundings orchard false none .nested) 6 "lib.rs" =
        some (.ok found, trace) ∧
      run (((ofRootFile "lib.rs").withExclude [⟨"pl*", [.char 'p', .char 'l', .anySequence]⟩]).surroundings
        orchard true none .nested) 6 "lib.rs" = some (.ok found', trace') ∧
      found.nodes.map (·.path.display) = #["lib.rs", "pear.rs", "plum.rs", "wasp.rs"] ∧
      found'.nodes.map (·.path.display) = #["lib.rs", "pear.rs"] ∧
      ∀ node ∈ found'.nodes, ∃ whole ∈ found.nodes, whole.path.same node.path = true ∧
        node.external.Sublist whole.external := by
  have evaluated : (run ((ofRootFile "lib.rs").surroundings orchard false none .nested) 6
      "lib.rs").map (fun answer => answer.1.toOption.map fun found =>
        found.nodes.map (·.path.display)) =
          some (some #["lib.rs", "pear.rs", "plum.rs", "wasp.rs"]) := by
    decide +kernel
  have evaluated' : (run (((ofRootFile "lib.rs").withExclude
      [⟨"pl*", [.char 'p', .char 'l', .anySequence]⟩]).surroundings orchard true none .nested) 6
      "lib.rs").map (fun answer => answer.1.toOption.map fun found =>
        found.nodes.map (·.path.display)) = some (some #["lib.rs", "pear.rs"]) := by
    decide +kernel
  obtain ⟨⟨result, trace⟩, ran, found⟩ := Option.map_eq_some_iff.mp evaluated
  obtain ⟨⟨result', trace'⟩, ran', found'⟩ := Option.map_eq_some_iff.mp evaluated'
  cases result with
  | error error => cases found
  | ok findings =>
    cases result' with
    | error error => cases found'
    | ok findings' =>
      refine ⟨findings, findings', trace, trace', ran, ran', Option.some.inj found,
        Option.some.inj found', ?_⟩
      intro node member
      obtain ⟨whole, present, same, _, _, _, external, _⟩ :=
        narrowing_removes orchard (ofRootFile "lib.rs") none .nested _ (List.nil_subset _) false true
          (fun _ => rfl) findings findings' (.inOrder ran) (.inOrder ran') node member
      exact ⟨whole, present, same, external⟩

end Resolver

end CrateAtlas
