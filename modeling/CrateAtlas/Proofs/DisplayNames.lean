import CrateAtlas.Proofs.CommonPath
import CrateAtlas.Proofs.Exploration
import CrateAtlas.Proofs.TextPaths
import Mathlib.Data.List.Nodup

/-!
Display names. What is left of a path behind a directory, joined to that directory again, is the path; so
the names of files that are told apart by their paths tell them apart as well, as long as they are shown as
they are spelled. The files of an analysis are told apart so, for none of them is a directory.
-/

namespace CrateAtlas

namespace Path

private theorem bytes_eq_nil {path : Path} (none : path.components = []) : path.bytes = [] := by
  have relative : path.isAbsolute = false := by
    rw [← Bool.not_eq_true, isAbsolute_iff, none]
    exact List.not_mem_nil
  rw [components_eq, if_neg (by simp [relative])] at none
  cases spelled : path.bytes with
  | nil => rfl
  | cons byte rest =>
    have plain : byte ≠ slash := by
      rintro rfl
      simp [isAbsolute, spelled] at relative
    obtain ⟨part, parts, split⟩ := List.exists_cons_of_ne_nil (splitParts_ne_nil rest)
    rw [spelled, splitParts_byte plain rest part parts split, partComponents, List.append_eq_nil_iff,
      Option.toList_eq_nil_iff] at none
    -- what starts a path counts, even a dot
    have counted := none.1
    unfold component? at counted
    repeat' split at counted
    all_goals simp_all

/-- What is left of a path, joined to the directory it is left behind, is the path again. -/
theorem components_join_below {path base relative : Path} (left : path.below? base = some relative) :
    (base.join relative).components = path.components := by
  have shape := components_below? path base
  rw [left, Option.map_some] at shape
  split at shape
  · next above =>
    have rest := Option.some.inj shape
    have whole := List.prefix_iff_eq_append.mp ((startsWith_iff path base).mp above)
    cases front : base.components with
    | nil =>
      have joined : base.join relative = relative := by
        simp [join, bytes_eq_nil front]
      rw [joined, rest, front, List.length_nil, List.drop_zero]
    | cons top others =>
      -- behind a component there is neither a root nor a dot
      have further : ∀ component ∈ relative.components, component ≠ .root ∧ component ≠ .current := by
        intro component member
        rw [rest, front, List.length_cons, ← List.drop_tail] at member
        exact (orderly_components path).inner component (List.mem_of_mem_drop member)
      rw [components_join_relative base (fun root => (further _ root).1 rfl)
        (fun dot => (further _ dot).2 rfl), rest, whole]
  · cases shape

private theorem below?_bytes_subset {path base relative : Path} (left : path.below? base = some relative) :
    relative.bytes ⊆ path.bytes := by
  unfold below? at left
  split at left
  · dsimp only at left
    split at left
    · obtain rfl := Option.some.inj left
      exact fun byte member => List.mem_of_mem_take (List.mem_of_mem_drop member)
    · obtain rfl := Option.some.inj left
      exact List.nil_subset _
  · cases left

private theorem swapChar_eq_self {old new : Char} {text : String} (absent : old ∉ text.toList) :
    Text.swapChar old new text = text := by
  rw [← String.toList_inj, Text.swapChar, String.toList_map]
  refine (List.map_congr_left fun c member => ?_).trans (List.map_id _)
  have kept : c ≠ old := fun same => absent (same ▸ member)
  exact if_neg kept

/-- The name of a path below a directory is what is left of the path, as it is shown. -/
theorem displayName_below {path base relative : Path} (left : path.below? base = some relative)
    (further : relative.components ≠ []) :
    path.displayName base = Text.swapChar '\\' '/' relative.display := by
  have filled : relative.bytes.isEmpty = false := by
    rw [Bool.eq_false_iff, ne_eq, List.isEmpty_iff]
    intro empty
    obtain ⟨bytes⟩ := relative
    cases empty
    exact further rfl
  rw [displayName, left, Option.getD_some, filled, if_neg Bool.false_ne_true]

/-- What is left of a path and is a text is its name, if it has no backslash. -/
theorem ofText_displayName {path base relative : Path} (left : path.below? base = some relative)
    (further : relative.components ≠ []) (text : relative.bytes.IsText)
    (slashed : '\\'.toUInt8 ∉ path.bytes) : ofText (path.displayName base) = relative := by
  have spelled := Bytes.isText_iff_display.mp text
  have unswapped : '\\' ∉ relative.display.toList := by
    rw [display, ← Bytes.ascii_mem_ofText (by decide) (by decide), spelled]
    exact fun member => slashed (below?_bytes_subset left member)
  rw [displayName_below left further, swapChar_eq_self unswapped]
  exact Path.ext spelled

/-- The paths are different, and none of them leads on to another one. -/
structure Separate (paths : List Path) : Prop where
  distinct : paths.Pairwise fun first second => first.same second = false
  apart : ∀ first ∈ paths, ∀ second ∈ paths, second.startsWith first = true → second.same first = true

namespace Separate

variable {paths : List Path} {path : Path}

private theorem exists_other (separate : Separate paths) (several : 2 ≤ paths.length) (path : Path) :
    ∃ other ∈ paths, other.components ≠ path.components := by
  match paths, several, separate.distinct with
  | first :: second :: rest, _, distinct =>
    have unlike : first.components ≠ second.components := by
      simpa [same] using (List.pairwise_cons.mp distinct).1 second (by simp)
    by_cases alike : first.components = path.components
    · exact ⟨second, by simp, fun same => unlike (alike.trans same.symm)⟩
    · exact ⟨first, by simp, alike⟩

/-- Of several paths, none is what all of them share. -/
theorem common_ne (separate : Separate paths) (several : 2 ≤ paths.length) (member : path ∈ paths) :
    (common paths).components ≠ path.components := by
  intro shared
  obtain ⟨other, listed, unlike⟩ := separate.exists_other several path
  have leads : other.startsWith path = true := by
    rw [startsWith_iff, ← shared]
    exact common_starts listed
  exact unlike ((same_iff _ _).mp (separate.apart path member other listed leads))

/-- Joined to what all paths share, a name gives its path exactly if it is spelled as it is shown. -/
theorem join_displayName_iff (separate : Separate paths) (several : 2 ≤ paths.length)
    (member : path ∈ paths) (slashed : '\\'.toUInt8 ∉ path.bytes) :
    ((common paths).join (path.displayName (common paths))).components = path.components ↔
      path.IsTextBelow (common paths) := by
  have above := common_starts member
  have shape := components_below? path (common paths)
  rw [if_pos ((startsWith_iff _ _).mpr above)] at shape
  obtain ⟨relative, left, rest⟩ := Option.map_eq_some_iff.mp shape
  have further : relative.components ≠ [] := by
    rw [rest, ne_eq, List.drop_eq_nil_iff]
    intro short
    exact separate.common_ne several member
      (above.eq_of_length (Nat.le_antisymm above.length_le short))
  constructor
  · intro joined
    have text := @isTextBelow_join (common paths) (path.displayName (common paths))
      (Bytes.isText_ofText _)
    rwa [IsTextBelow, joined] at text
  · intro text
    rw [ofText_displayName left further ((isText_below?_iff left).mpr text) slashed]
    exact components_join_below left

private theorem nodup_displayName (separate : Separate paths)
    (slashed : ∀ path ∈ paths, '\\'.toUInt8 ∉ path.bytes)
    (text : ∀ path ∈ paths, path.IsTextBelow (common paths)) :
    (paths.map (·.displayName (common paths))).Nodup := by
  by_cases several : 2 ≤ paths.length
  · have joined (path : Path) (member : path ∈ paths) :=
      (separate.join_displayName_iff several member (slashed path member)).mpr (text path member)
    refine List.pairwise_map.mpr (separate.distinct.imp_of_mem ?_)
    intro first second firstListed secondListed unlike named
    have alike := joined first firstListed
    rw [named, joined second secondListed] at alike
    exact Bool.eq_false_iff.mp unlike ((same_iff _ _).mpr alike.symm)
  · match paths, several with
    | [], _ => exact List.nodup_nil
    | [path], _ => exact List.nodup_singleton _
    | first :: second :: rest, few => exact absurd (by simp) few

end Separate

end Path

open CrateAtlas.Path Discovery

private theorem Atlas.map_name_assemble (nodes : List FileNode) (metrics : ImportGraph.Metrics)
    (cycles : List (List Nat)) (coverage : Option CoverageMap) (warnings : List Warning) :
    (assemble nodes metrics cycles coverage warnings).files.map (·.name) =
      (nodes.map (·.path)).map (·.displayName (common (nodes.map (·.path)))) := by
  apply List.ext_getElem?
  intro index
  simp [assemble, FileRecord.ofNode, Function.comp_def]

private theorem Atlas.fileByName?_name {atlas : Atlas} (distinct : (atlas.files.map (·.name)).Nodup)
    {file : FileRecord} (member : file ∈ atlas.files) : atlas.fileByName? file.name = some file := by
  cases found : atlas.fileByName? file.name with
  | none =>
    have unnamed := List.find?_eq_none.mp found file member
    simp at unnamed
  | some other =>
    have named : other.name = file.name := by simpa using List.find?_some found
    rw [List.inj_on_of_nodup_map distinct (List.mem_of_find?_eq_some found) member named]

/-- A file is no directory, so no file has a path that leads on to that of another one. -/
theorem FileSystem.components_eq_of_start {files : FileSystem} {first second : Path}
    (canonical : files.canonical? first = some first) (isFile : files.isFile first = true)
    (canonical' : files.canonical? second = some second) (isFile' : files.isFile second = true)
    (leads : first.components <+: second.components) : first.components = second.components := by
  obtain ⟨dir, name, content, rfl, plain, found⟩ := canonical_file canonical isFile
  obtain ⟨dir', name', content', rfl, plain', found'⟩ := canonical_file canonical' isFile'
  rw [components_absolute plain, components_absolute plain', List.cons_prefix_cons] at leads
  obtain ⟨front, ⟨rest, split⟩, same⟩ := List.prefix_map_iff.mp leads.2
  obtain rfl : dir ++ [name] = front :=
    List.map_injective_iff.mpr (fun _ _ equal => Component.name.inj equal) same
  cases rest with
  | nil => rw [← split, List.append_nil]
  | cons next rest =>
    rw [← split, FileTree.descend?_append, found] at found'
    cases found'

private theorem AnalysisPlan.found_separate {files : FileSystem} {tools : Tools} {path : Path}
    {options : AnalysisOptions} {plan : AnalysisPlan} (current : ∀ name ∈ files.current, PlainName name)
    (made : make files tools path options = .ok plan) {findings : Findings}
    (yields : Yields (plan.surroundings files tools) plan.entry (.ok findings)) :
    Separate (findings.nodes.toList.map (·.path)) where
  distinct := by
    refine List.pairwise_map.mpr ((List.pairwise_map.mp yields.paths_distinct).imp ?_)
    intro first second unlike
    exact Bool.eq_false_iff.mpr fun alike => unlike ((same_iff _ _).mp alike)
  apart first listed second listed' leads := by
    obtain ⟨node, member, rfl⟩ := List.mem_map.mp listed
    obtain ⟨node', member', rfl⟩ := List.mem_map.mp listed'
    obtain ⟨isFile, canonical⟩ := found_file current made yields (Array.mem_toList_iff.mp member)
    obtain ⟨isFile', canonical'⟩ := found_file current made yields (Array.mem_toList_iff.mp member')
    have alike := FileSystem.components_eq_of_start canonical isFile canonical' isFile'
      ((startsWith_iff _ _).mp leads)
    exact (same_iff _ _).mpr alike.symm

/-- The display names of separate paths are different, and each name finds the file that it was made for,
if what the paths have behind what they share is text. Joined to what they share, the name of one of several
paths is the path again exactly if it is text behind that. The files of an analysis have separate paths, in
whichever order they are found. -/
theorem Atlas.displayName_identifies :
    (∀ paths : List Path, Separate paths → (∀ path ∈ paths, '\\'.toUInt8 ∉ path.bytes) →
      ((∀ path ∈ paths, path.IsTextBelow (common paths)) →
        (paths.map (·.displayName (common paths))).Nodup ∧
        ∀ nodes metrics cycles coverage warnings, nodes.map FileNode.path = paths →
          ∀ (index : Nat) (node : FileNode), nodes[index]? = some node →
            (assemble nodes metrics cycles coverage warnings).fileByName?
              (node.path.displayName (common paths)) =
                some (.ofNode metrics coverage (common paths) node index)) ∧
      (2 ≤ paths.length → ∀ path ∈ paths,
        (((common paths).join (path.displayName (common paths))).same path = true ↔
          path.IsTextBelow (common paths)))) ∧
    ∀ files tools path options plan findings, (∀ name ∈ files.current, PlainName name) →
      AnalysisPlan.make files tools path options = .ok plan →
      Yields (plan.surroundings files tools) plan.entry (.ok findings) →
      Separate (findings.nodes.toList.map (·.path)) := by
  refine ⟨?_, fun _ _ _ _ _ _ current made yields => AnalysisPlan.found_separate current made yields⟩
  intro paths separate slashed
  refine ⟨fun text => ?_, fun several path member => ?_⟩
  · have distinct := separate.nodup_displayName slashed text
    refine ⟨distinct, ?_⟩
    rintro nodes metrics cycles coverage warnings rfl index node found
    have listed : FileRecord.ofNode metrics coverage (common (nodes.map FileNode.path)) node index ∈
        (assemble nodes metrics cycles coverage warnings).files := by
      refine List.mem_of_getElem? (i := index) ?_
      simp [assemble, found]
    have named : (FileRecord.ofNode metrics coverage (common (nodes.map FileNode.path)) node index).name =
        node.path.displayName (common (nodes.map FileNode.path)) := rfl
    rw [← map_name_assemble nodes metrics cycles coverage warnings] at distinct
    rw [← named]
    exact fileByName?_name distinct listed
  · rw [same_iff]
    exact separate.join_displayName_iff several member (slashed path member)

def hamlet : List Path :=
  ["/p//src/lib.rs", "/p/src/./api/mod.rs", "/p/src/api.rs/"]

def grange : FileSystem where
  root := .directory [("lib.rs", .file (some "mod api;")),
    ("api", .directory [("mod.rs", .file (some ""))])]
  current := []

theorem Atlas.displayName_identifies_hamlet :
    Separate hamlet ∧ (∀ path ∈ hamlet, '\\'.toUInt8 ∉ path.bytes) ∧
    (∀ path ∈ hamlet, path.IsTextBelow (common hamlet)) ∧
    hamlet.map (·.displayName (common hamlet)) = ["lib.rs", "api/mod.rs", "api.rs"] ∧
    (hamlet.map (·.displayName (common hamlet))).Nodup ∧
    ((common hamlet).join "api/mod.rs").same "/p/src/./api/mod.rs" = true ∧
    (assemble (hamlet.map .ofPath) default [] none []).fileByName? "api.rs" =
      some (.ofNode default none (common hamlet) (.ofPath "/p/src/api.rs/") 2) ∧
    ∃ plan findings,
      AnalysisPlan.make grange ⟨none, fun _ => none⟩ "lib.rs" { noHistory := true } = .ok plan ∧
      Yields (plan.surroundings grange ⟨none, fun _ => none⟩) plan.entry (.ok findings) ∧
      findings.nodes.toList.map (·.path.display) = ["/lib.rs", "/api/mod.rs"] ∧
      Separate (findings.nodes.toList.map (·.path)) := by
  have separate : Separate hamlet := ⟨by decide +kernel, by decide +kernel⟩
  have slashed : ∀ path ∈ hamlet, '\\'.toUInt8 ∉ path.bytes := by decide +kernel
  have text : ∀ path ∈ hamlet, path.IsTextBelow (common hamlet) := by decide +kernel
  have named : hamlet.map (·.displayName (common hamlet)) = ["lib.rs", "api/mod.rs", "api.rs"] := by
    decide +kernel
  obtain ⟨found, joined⟩ := displayName_identifies.1 hamlet separate slashed
  obtain ⟨distinct, found⟩ := found text
  have second : Path.displayName "/p/src/./api/mod.rs" (common hamlet) = "api/mod.rs" := by
    decide +kernel
  have third : Path.displayName "/p/src/api.rs/" (common hamlet) = "api.rs" := by
    decide +kernel
  refine ⟨separate, slashed, text, named, distinct, ?_, ?_, ?_⟩
  · rw [← second]
    have member : Path.ofText "/p/src/./api/mod.rs" ∈ hamlet := by simp [hamlet]
    exact (joined (by decide) _ member).mpr (text _ member)
  · have record := found (hamlet.map .ofPath) default [] none [] rfl 2 (.ofPath "/p/src/api.rs/") rfl
    rwa [FileNode.ofPath, third] at record
  · have current : ∀ name ∈ grange.current, PlainName name := by simp [grange]
    have evaluated : (AnalysisPlan.make grange ⟨none, fun _ => none⟩ "lib.rs"
        { noHistory := true }).toOption.bind (fun plan =>
          (plan.explore grange ⟨none, fun _ => none⟩).1.toOption.map fun findings =>
            findings.nodes.toList.map (·.path.display)) = some ["/lib.rs", "/api/mod.rs"] := by
      decide +kernel
    obtain ⟨plan, made, explored⟩ := Option.bind_eq_some_iff.mp evaluated
    obtain ⟨findings, explored, listed⟩ := Option.map_eq_some_iff.mp explored
    have made := ok_of_toOption made
    have yields := ok_of_toOption explored ▸ AnalysisPlan.explore_yields current made
    exact ⟨plan, findings, made, yields, listed,
      displayName_identifies.2 grange _ _ _ plan findings current made yields⟩

def moor : List Path :=
  [⟨Bytes.ofText "/p/" ++ 0xFF :: Bytes.ofText ".rs"⟩, ⟨Bytes.ofText "/p/" ++ 0xFE :: Bytes.ofText ".rs"⟩]

/-- Both files are shown under one name, which leads to neither of them. -/
theorem Atlas.displayName_identifies_moor :
    Separate moor ∧ (∀ path ∈ moor, '\\'.toUInt8 ∉ path.bytes) ∧ common moor = "/p" ∧
    moor.map (·.displayName (common moor)) = ["�.rs", "�.rs"] ∧
    (∀ path ∈ moor, ((common moor).join "�.rs").same path = false) := by
  refine ⟨⟨?_, ?_⟩, ?_⟩
  all_goals decide +kernel

end CrateAtlas
