import CrateAtlas.Proofs.Exploration
import CrateAtlas.Proofs.GrownGraph

/-!
The atlas of a project is well-formed whenever there is one. Its files are the nodes of a grown graph,
in the same order, so its numbers, measures and cycles fit together.
-/

namespace CrateAtlas

open CrateAtlas.Path Discovery

namespace Atlas

def Imports (atlas : Atlas) (source target : Nat) : Prop :=
  ∃ file, atlas.files[source]? = some file ∧ target ∈ file.imports

/-- The parts of an atlas fit together. The entry is the only file that nothing arrives at, every import
is counted where it arrives or reported as a cycle, and cycles are missing just if imports never lead
back. -/
structure WellFormed (atlas : Atlas) : Prop where
  imports : ∀ source target, atlas.Imports source target →
    target < atlas.fileCount ∧ target ≠ source
  entry : ∃ file, atlas.files[0]? = some file ∧ file.importsDirect = 0 ∧ file.importsDepth = 0
  others : ∀ (index : Nat) (file : FileRecord), atlas.files[index]? = some file → index ≠ 0 →
    1 ≤ file.importsDirect ∧ 1 ≤ file.importsDepth
  balance : (atlas.files.map (·.importsDirect)).foldr (· + ·) 0 + atlas.cycleCount = atlas.edgeCount
  cycles : ∀ cycle ∈ atlas.cycles.getD [],
    (∀ node ∈ cycle, node < atlas.fileCount) ∧ cycle.head? = cycle.getLast? ∧
      cycle.IsChain atlas.Imports ∧ ∃ first ∈ cycle, ∃ second ∈ cycle, first ≠ second
  listed : atlas.cycles ≠ some []
  acyclic : atlas.cycles = none ↔ ∀ node, ¬ Relation.TransGen atlas.Imports node node

/-- The files of an atlas are the nodes of a graph, with their edges and measures, and its cycles are
those of the graph. -/
structure Shows (atlas : Atlas) (graph : ImportGraph) : Prop where
  fileCount : atlas.fileCount = graph.size
  files : ∀ (index : Nat) (file : FileRecord), atlas.files[index]? = some file →
    file.imports = graph.imports index ∧
      file.importsDirect = (graph.metrics 0).direct.getD index 0 ∧
      file.importsDepth = (graph.metrics 0).depth.getD index 0
  cycles : atlas.cycles = if (graph.cycles 0).isEmpty then none else some (graph.cycles 0)

private theorem assemble_shows (nodes : Array FileNode) (coverage : Option CoverageMap)
    (warnings : List Warning) :
    (assemble nodes.toList ((ImportGraph.ofNodes nodes).metrics 0)
      ((ImportGraph.ofNodes nodes).cycles 0) coverage warnings).Shows (.ofNodes nodes) where
  fileCount := by simp [fileCount, assemble, ImportGraph.size_ofNodes]
  files index file found := by
    simp only [assemble, List.getElem?_mapIdx, Option.map_eq_some_iff] at found
    obtain ⟨node, there, rfl⟩ := found
    rw [Array.getElem?_toList] at there
    exact ⟨by simp [ImportGraph.imports, ImportGraph.ofNodes, FileRecord.ofNode, there], rfl, rfl⟩
  cycles := rfl

namespace Shows

variable {atlas : Atlas} {graph : ImportGraph}

theorem exists_file (drawn : atlas.Shows graph) {index : Nat} (inside : index < graph.size) :
    ∃ file, atlas.files[index]? = some file := by
  rw [← drawn.fileCount] at inside
  exact ⟨_, List.getElem?_eq_getElem inside⟩

private theorem foldr_map (drawn : atlas.Shows graph) {value : FileRecord → Nat} {measure : Nat → Nat}
    (same : ∀ (index : Nat) (file : FileRecord), atlas.files[index]? = some file →
      value file = measure index) :
    (atlas.files.map value).foldr (· + ·) 0 = ∑ index ∈ Finset.range graph.size, measure index := by
  refine ImportGraph.foldr_eq_sum_range ?_ fun index inside => ?_
  · rw [List.length_map]
    exact drawn.fileCount
  · obtain ⟨file, found⟩ := drawn.exists_file inside
    rw [List.getElem?_map, found, Option.map_some, same index file found]

private theorem cycles_getD (drawn : atlas.Shows graph) : atlas.cycles.getD [] = graph.cycles 0 := by
  rw [drawn.cycles]
  cases graph.cycles 0 <;> rfl

theorem imports_iff (drawn : atlas.Shows graph) {source target : Nat} :
    atlas.Imports source target ↔ target ∈ graph.imports source := by
  constructor
  · rintro ⟨file, found, imported⟩
    rwa [(drawn.files source file found).1] at imported
  · intro imported
    obtain ⟨file, found⟩ := drawn.exists_file (ImportGraph.lt_size_of_mem imported)
    exact ⟨file, found, (drawn.files source file found).1 ▸ imported⟩

private theorem imports_eq_edge (drawn : atlas.Shows graph) (grown : graph.Grown) :
    atlas.Imports = graph.Edge := by
  ext source target
  rw [drawn.imports_iff]
  exact (and_iff_left_of_imp (grown.inside source target)).symm

private theorem wellFormed (drawn : atlas.Shows graph) (grown : graph.Grown) : atlas.WellFormed where
  imports source target imported := by
    rw [drawn.imports_iff] at imported
    refine ⟨drawn.fileCount ▸ grown.inside source target imported, ?_⟩
    rintro rfl
    exact grown.apart _ imported
  entry := by
    obtain ⟨file, found⟩ := drawn.exists_file grown.filled
    obtain ⟨_, direct, depth⟩ := drawn.files 0 file found
    have unmet := grown.direct_pos_iff grown.filled
    have level := grown.depth_pos_iff grown.filled
    exact ⟨file, found, by omega, by omega⟩
  others index file found apart := by
    have inside : index < graph.size :=
      drawn.fileCount ▸ (List.getElem?_eq_some_iff.mp found).1
    obtain ⟨_, direct, depth⟩ := drawn.files index file found
    rw [direct, depth]
    exact ⟨(grown.direct_pos_iff inside).mpr apart, (grown.depth_pos_iff inside).mpr apart⟩
  balance := by
    rw [cycleCount, drawn.cycles_getD, edgeCount,
      drawn.foldr_map fun index file found => (drawn.files index file found).2.1,
      drawn.foldr_map fun index file found => congrArg List.length (drawn.files index file found).1,
      grown.direct_add_cycles, ImportGraph.edgeCount_eq_sum]
  cycles cycle reported := by
    rw [drawn.cycles_getD] at reported
    obtain ⟨closed, _, reached⟩ := ImportGraph.cycles_walks graph 0 grown.filled cycle reported
    refine ⟨?_, closed.closed, drawn.imports_eq_edge grown ▸ closed.linked, grown.exists_two closed⟩
    intro node member
    exact drawn.fileCount ▸ (reached node member).lt_size grown.filled
  listed := by
    rw [drawn.cycles]
    split
    · simp
    · next filled => simpa using filled
  acyclic := by
    rw [drawn.imports_eq_edge grown, ← grown.cycles_eq_nil_iff, drawn.cycles]
    simp

end Shows

end Atlas

namespace AnalysisRun

variable {files : FileSystem} {tools : Tools} {path : Path} {options : AnalysisOptions}

theorem perform_ok {atlas : Atlas} (performed : (perform files tools path options).outcome = .ok atlas) :
    ∃ plan findings, AnalysisPlan.make files tools path options = .ok plan ∧
      (plan.explore files tools).1 = .ok findings ∧
      atlas = if options.listUnreached then withUnreached files plan.entry (plan.chart files findings)
        else plan.chart files findings := by
  unfold perform at performed
  split at performed
  · cases performed
  · next plan made =>
    dsimp only at performed
    split at performed
    · cases performed
    · next findings explored =>
      cases performed
      exact ⟨plan, findings, made, explored, rfl⟩

private theorem withUnreached_shows {atlas : Atlas} {graph : ImportGraph} (entry : Path)
    (drawn : atlas.Shows graph) : (withUnreached files entry atlas).Shows graph := by
  unfold withUnreached
  split
  · exact drawn
  · exact { drawn with }

/-- Whenever the analysis of a project succeeds, its atlas is well-formed, in whichever order its files
are processed. The analysis may start in any directory that can be named by a path. -/
theorem perform_wellFormed (files : FileSystem) (tools : Tools) (path : Path)
    (options : AnalysisOptions) (current : ∀ name ∈ files.current, PlainName name) :
    (∀ atlas, (perform files tools path options).outcome = .ok atlas → atlas.WellFormed) ∧
    ∀ plan findings, AnalysisPlan.make files tools path options = .ok plan →
      Yields (plan.surroundings files tools) plan.entry (.ok findings) →
      (plan.chart files findings).WellFormed ∧
        (withUnreached files plan.entry (plan.chart files findings)).WellFormed := by
  have charted (plan : AnalysisPlan) (findings : Findings)
      (made : AnalysisPlan.make files tools path options = .ok plan)
      (yields : Yields (plan.surroundings files tools) plan.entry (.ok findings)) :
      (plan.chart files findings).WellFormed ∧
        (withUnreached files plan.entry (plan.chart files findings)).WellFormed := by
    rcases yields.outcome_cases with ⟨_, _, _, same⟩ | ⟨_, registry, _, _, complete, same, _⟩
    · cases same
    · cases same
      have grown := complete.grown fun _ _ => AnalysisPlan.reached_inj current made
      have drawn := Atlas.assemble_shows registry.nodes (plan.coverage files).1
      exact ⟨(drawn _).wellFormed grown, (withUnreached_shows plan.entry (drawn _)).wellFormed grown⟩
  refine ⟨?_, charted⟩
  intro atlas performed
  obtain ⟨plan, findings, made, explored, rfl⟩ := perform_ok performed
  obtain ⟨plain, extended⟩ :=
    charted plan findings made (explored ▸ AnalysisPlan.explore_yields current made)
  split
  · exact extended
  · exact plain

def twins : FileSystem where
  root := .directory [("src", .directory [
    ("lib.rs", .file (some "mod a;\nuse crate::b::B;\n")), ("a.rs", .file (some "use super::b;")),
    ("b.rs", .file (some "use crate::a::{self, A};"))])]
  current := ["src"]

theorem perform_wellFormed_twins :
    (∀ name ∈ twins.current, PlainName name) ∧
    ∃ atlas plan findings,
      (perform twins ⟨none, fun _ => none⟩ "lib.rs" { noHistory := true }).outcome = .ok atlas ∧
      atlas.files.map (fun file => (file.imports, file.importsDirect, file.importsDepth)) =
        [([1, 2], 0, 0), ([2], 1, 1), ([1, 1], 2, 2)] ∧
      atlas.cycles = some [[1, 2, 1], [1, 2, 1]] ∧ atlas.WellFormed ∧
      AnalysisPlan.make twins ⟨none, fun _ => none⟩ "lib.rs" { noHistory := true } = .ok plan ∧
      Yields (plan.surroundings twins ⟨none, fun _ => none⟩) plan.entry (.ok findings) ∧
      (plan.chart twins findings).WellFormed := by
  have current : ∀ name ∈ twins.current, PlainName name :=
    List.forall_mem_singleton.mpr ⟨by decide, by decide, by decide, by decide⟩
  have evaluated :
      (perform twins ⟨none, fun _ => none⟩ "lib.rs" { noHistory := true }).outcome.toOption.map
        (fun atlas => (atlas.files.map fun file =>
          (file.imports, file.importsDirect, file.importsDepth), atlas.cycles)) =
        some ([([1, 2], 0, 0), ([2], 1, 1), ([1, 1], 2, 2)], some [[1, 2, 1], [1, 2, 1]]) := by
    decide +kernel
  have formed := perform_wellFormed twins ⟨none, fun _ => none⟩ "lib.rs" { noHistory := true } current
  cases performed : (perform twins ⟨none, fun _ => none⟩ "lib.rs" { noHistory := true }).outcome with
  | error error =>
    rw [performed] at evaluated
    cases evaluated
  | ok atlas =>
    rw [performed] at evaluated
    have shown := Prod.mk.inj (Option.some.inj evaluated)
    obtain ⟨plan, findings, made, explored, _⟩ := perform_ok performed
    have yields := explored ▸ AnalysisPlan.explore_yields current made
    exact ⟨current, atlas, plan, findings, rfl, shown.1, shown.2, formed.1 atlas performed, made,
      yields, (formed.2 plan findings made yields).1⟩

end AnalysisRun

end CrateAtlas
