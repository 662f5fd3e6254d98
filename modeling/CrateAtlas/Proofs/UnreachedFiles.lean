import CrateAtlas.Proofs.DirectoryContents
import CrateAtlas.Unreached

/-!
The listing of unreached files. Everything below a directory that is named like a source file, and to which
no name leads that is passed over, stands either in the atlas or in the listing, where it stands once and in
the order of paths. The listing goes by names, so that a directory can stand there like a file.
-/

namespace CrateAtlas

open CrateAtlas.Path

instance : Std.TransCmp Component.compare :=
  inferInstanceAs (Std.TransCmp (compareLex (compareOn Component.rank) (compareOn Component.bytes)))

instance : Std.LawfulEqCmp Component.compare where
  compare_self := Std.ReflCmp.compare_self
  eq_of_compare {first second} same := by
    obtain ⟨rank, bytes⟩ := Ordering.then_eq_eq.mp same
    rw [Std.LawfulEqOrd.compare_eq_iff_eq] at rank bytes
    cases first <;> cases second <;> simp_all [Component.rank, Component.bytes]

namespace Path

theorem compare_eq_compareLex (first second : Path) :
    first.compare second = List.compareLex Component.compare first.components second.components := by
  rw [compare]
  generalize first.components = front
  generalize second.components = back
  induction front generalizing back with
  | nil => cases back <;> rfl
  | cons component front ih =>
    cases back with
    | nil => rfl
    | cons other back => rw [compare.go, ih, List.compareLex_cons_cons]

private theorem isLE_trans {first second third : Path} (before : (first.compare second).isLE = true)
    (after : (second.compare third).isLE = true) : (first.compare third).isLE = true := by
  rw [compare_eq_compareLex] at before after ⊢
  exact Std.TransCmp.isLE_trans before after

private theorem isLE_total (first second : Path) :
    ((first.compare second).isLE || (second.compare first).isLE) = true := by
  rw [compare_eq_compareLex, compare_eq_compareLex]
  have swapped : List.compareLex Component.compare first.components second.components =
      (List.compareLex Component.compare second.components first.components).swap :=
    Std.OrientedCmp.eq_swap
  rw [swapped]
  cases List.compareLex Component.compare second.components first.components <;> rfl

private theorem compare_eq_lt {first second : Path} (before : (first.compare second).isLE = true)
    (apart : first.components ≠ second.components) : first.compare second = .lt := by
  cases order : first.compare second with
  | lt => rfl
  | eq =>
    rw [compare_eq_compareLex] at order
    exact absurd (Std.LawfulEqCmp.eq_of_compare order) apart
  | gt => simp [order] at before

end Path

/-- Some file of the atlas has the path, in whatever spelling. -/
def Atlas.Holds (atlas : Atlas) (path : Path) : Prop :=
  ∃ file ∈ atlas.files, file.path.same path = true

theorem Atlas.indexOf?_eq_none_iff (atlas : Atlas) (path : Path) :
    atlas.indexOf? path = none ↔ ¬ atlas.Holds path := by
  simp only [indexOf?, Holds, List.findIdx?_eq_none_iff, not_exists, not_and, Bool.not_eq_true]

namespace FileSystem

variable {files : FileSystem} {path : Path} {place : Place}

theorem fileExists_iff : files.fileExists path = true ↔ ∃ place, files.locate path = .ok place := by
  unfold fileExists
  cases files.locate path <;> simp [Except.isOk, Except.toBool]

theorem locate_isDirectory (directory : files.isDirectory path = true) :
    ∃ place, files.locate path = .ok place := by
  unfold FileSystem.isDirectory at directory
  split at directory
  · exact ⟨_, ‹_›⟩
  · cases directory

private theorem locate_canonical (proper : files.root.Proper) (nonempty : place.way ≠ [])
    (located : files.locate path = .ok place) : files.locate (files.canonical path) = .ok place := by
  have found := (locate_steps located).2
  have spelled : files.canonical path = absolute place.way := by
    simp [canonical, canonical?, located]
  rw [spelled]
  exact (locate_absolute (proper.descend? found).2 nonempty place).mpr ⟨rfl, found⟩

end FileSystem

namespace Unreached

/-- The names lead from the directory to something with the extension of source files. None of them is
`target` or starts with a dot. -/
structure SourceWay (dir : Path) (way : List Bytes) : Prop where
  below : way ≠ []
  plain : ∀ name ∈ way, PlainName name
  shown : ∀ name ∈ way, name ≠ .ofText "target" ∧ name.head? ≠ some dot
  extension : (dir.descend way).fileExtension? = some (.ofText "rs")

/-- Names are passed over as they are shown, but what is shown for bytes that are no text neither is
`target` nor starts with a dot unless the bytes do. -/
theorem isSkipped_eq_false_iff (name : Bytes) :
    isSkipped name = false ↔ name ≠ .ofText "target" ∧ name.head? ≠ some dot := by
  have dotted : name.display.startsWith "." = true ↔ name.head? = some dot := by
    rw [String.startsWith_string_iff]
    have first : name.display.toList.head? = some '.' ↔ name.head? = some dot := by
      rw [Bytes.display_head?_eq_some_iff (by decide), List.head?_eq_some_iff]
      rfl
    rw [← first]
    cases name.display.toList with
    | nil => simp
    | cons c rest => simp [eq_comm]
  rw [isSkipped, Bool.or_eq_false_iff, beq_eq_false_iff_ne, ne_eq, Bytes.display_eq_iff (by decide),
    ← Bool.not_eq_true, dotted]

theorem isSource_iff {dir : Path} {way : List Bytes} (plain : ∀ name ∈ way, PlainName name) :
    isSource way = true ↔ SourceWay dir way := by
  rcases List.eq_nil_or_concat' way with rfl | ⟨front, name, rfl⟩
  · simp only [isSource, List.getLast?_nil, Option.any_none, Bool.and_false, Bool.false_eq_true,
      false_iff]
    exact fun source => source.below rfl
  · have shown : (!(front ++ [name]).any isSkipped) = true ↔
        ∀ other ∈ front ++ [name], other ≠ .ofText "target" ∧ other.head? ≠ some dot := by
      simp only [← isSkipped_eq_false_iff, Bool.not_eq_true', List.any_eq_false, Bool.not_eq_true]
    rw [isSource, Bool.and_eq_true, shown, List.getLast?_concat, Option.any_some, beq_iff_eq,
      ← fileExtension?_descend plain dir]
    exact ⟨fun ⟨shown, extension⟩ => ⟨by simp, plain, shown, extension⟩,
      fun source => ⟨source.shown, source.extension⟩⟩

section

variable {files : FileSystem} {dir : Path} {place : Place} {path : Path}

theorem mem_sources_iff (proper : files.root.Proper) (located : files.locate dir = .ok place) :
    path ∈ sources files dir ↔ ∃ way, SourceWay dir way ∧
      files.fileExists (dir.descend way) = true ∧ path = files.canonical (dir.descend way) := by
  have inner := (proper.descend? (FileSystem.locate_steps located).2).1
  simp only [sources, located, List.mem_map, List.mem_filter, inner.mem_ways_iff]
  constructor
  · rintro ⟨way, ⟨⟨tree, found⟩, named⟩, rfl⟩
    have plain := (inner.descend? found).2
    have source : SourceWay dir way := (isSource_iff plain).mp named
    have reached := (FileSystem.locate_descend plain source.below located
      ⟨place.way ++ way, tree⟩).mpr ⟨rfl, found⟩
    exact ⟨way, source, FileSystem.fileExists_iff.mpr ⟨_, reached⟩,
      (FileSystem.canonical_descend plain source.below located found).symm⟩
  · rintro ⟨way, source, present, rfl⟩
    obtain ⟨there, reached⟩ := FileSystem.fileExists_iff.mp present
    obtain ⟨_, found⟩ :=
      (FileSystem.locate_descend source.plain source.below located there).mp reached
    exact ⟨way, ⟨⟨there.tree, found⟩, (isSource_iff source.plain).mpr source⟩,
      (FileSystem.canonical_descend source.plain source.below located found).symm⟩

private theorem sources_distinct (proper : files.root.Proper) (dir : Path) :
    (sources files dir).Pairwise fun first second => first.components ≠ second.components := by
  unfold sources
  split
  next place located =>
    have found := (FileSystem.locate_steps located).2
    have inner := (proper.descend? found).1
    refine List.pairwise_map.mpr ((inner.nodup_ways.filter isSource).imp_of_mem ?_)
    intro first second firstListed secondListed apart same
    have plain (way : List Bytes) (listed : way ∈ place.tree.ways.filter isSource) :
        ∀ name ∈ place.way ++ way, PlainName name := by
      obtain ⟨tree, below⟩ := inner.mem_ways_iff.mp (List.mem_filter.mp listed).1
      have whole : files.root.descend? (place.way ++ way) = some tree := by
        rw [FileTree.descend?_append, found]
        exact below
      exact (proper.descend? whole).2
    exact apart (List.append_cancel_left
      (absolute_inj (plain first firstListed) (plain second secondListed) same))
  next => exact .nil

theorem mem_list_iff {atlas : Atlas} :
    path ∈ list files dir atlas ↔ path ∈ sources files dir ∧ ¬ atlas.Holds path := by
  simp [list, atlas.indexOf?_eq_none_iff]

private theorem list_increasing (proper : files.root.Proper) (dir : Path) (atlas : Atlas) :
    (list files dir atlas).Pairwise fun first second => first.compare second = .lt := by
  have distinct := (sources_distinct proper dir).filter fun path => (atlas.indexOf? path).isNone
  unfold list
  generalize (sources files dir).filter _ = paths at distinct ⊢
  have sorted : (paths.mergeSort fun a b => (a.compare b).isLE).Pairwise fun a b =>
      (a.compare b).isLE = true := by
    apply List.pairwise_mergeSort
    · exact fun first second third => Path.isLE_trans
    · exact Path.isLE_total
  have apart := distinct.perm (List.mergeSort_perm paths fun a b => (a.compare b).isLE).symm Ne.symm
  exact (sorted.and apart).imp fun ⟨before, apart⟩ => Path.compare_eq_lt before apart

private theorem SourceWay.isFile_canonical {way : List Bytes} (source : SourceWay dir way)
    (proper : files.root.Proper) (located : files.locate dir = .ok place)
    (present : files.fileExists (dir.descend way) = true) :
    files.isFile (files.canonical (dir.descend way)) = !files.isDirectory (dir.descend way) := by
  obtain ⟨there, reached⟩ := FileSystem.fileExists_iff.mp present
  have nonempty : there.way ≠ [] := by
    obtain ⟨same, _⟩ := (FileSystem.locate_descend source.plain source.below located there).mp reached
    simp [same, source.below]
  have again := FileSystem.locate_canonical proper nonempty reached
  simp [FileSystem.isFile, FileSystem.isDirectory, again, reached, FileTree.isDirectory]

end

/-- A source file below a directory, outside of what is passed over, has its canonical path in the atlas or
in the listing, and never in both. The listing is in the order of paths, without repetitions. -/
theorem list_complete (files : FileSystem) (dir : Path) (atlas : Atlas) (proper : files.root.Proper)
    (directory : files.isDirectory dir = true) :
    (∀ way, SourceWay dir way → files.isFile (dir.descend way) = true →
      (files.canonical (dir.descend way) ∈ list files dir atlas ↔
        ¬ atlas.Holds (files.canonical (dir.descend way)))) ∧
    (list files dir atlas).Pairwise (fun first second => first.compare second = .lt) ∧
    ∀ path ∈ list files dir atlas, ¬ atlas.Holds path := by
  obtain ⟨place, located⟩ := FileSystem.locate_isDirectory directory
  refine ⟨?_, list_increasing proper dir atlas, fun path listed => (mem_list_iff.mp listed).2⟩
  intro way source isFile
  have present := FileSystem.fileExists_iff.mpr (FileSystem.locate_isFile isFile)
  rw [mem_list_iff, mem_sources_iff proper located]
  exact ⟨fun listed => listed.2, fun missing => ⟨⟨way, source, present, rfl⟩, missing⟩⟩

/-- Three files named like sources, one of them in a directory that is passed over, and a directory that is
named like one. -/
def shed : FileSystem where
  root := .directory [("p", .directory [("lib.rs", .file (some "")), ("old.rs", .directory []),
    ("spare.rs", .file none), ("target", .directory [("gen.rs", .file (some ""))])])]
  current := []

def shedAtlas : Atlas :=
  { (default : Atlas) with files := [{ (default : FileRecord) with path := "/p//lib.rs" }] }

theorem shed_proper : shed.root.Proper := by
  have empty : (FileTree.directory []).Proper := .directory (by simp) (by simp) (by simp)
  have target : (FileTree.directory [("gen.rs", .file (some ""))]).Proper :=
    .directory (by decide) (by decide) (by simp [FileTree.Proper.file])
  refine .directory (by decide) (by decide) ?_
  simp only [List.mem_singleton, forall_eq]
  exact .directory (by decide) (by decide) (by simp [FileTree.Proper.file, empty, target])

theorem shed_source {name : String} (listed : name ∈ ["lib.rs", "old.rs", "spare.rs"]) :
    SourceWay "/p" [.ofText name] := by
  have plain : PlainName (.ofText name) := by revert name; decide
  have named : isSource [.ofText name] = true := by revert name; decide +kernel
  exact (isSource_iff (by simpa using plain)).mp named

theorem list_complete_shed :
    shed.root.Proper ∧ shed.isDirectory "/p" = true ∧
    shed.canonical (("/p" : Path).descend ["spare.rs"]) ∈ list shed "/p" shedAtlas ∧
    shed.canonical (("/p" : Path).descend ["lib.rs"]) ∉ list shed "/p" shedAtlas := by
  have directory : shed.isDirectory "/p" = true := by decide +kernel
  obtain ⟨complete, -, -⟩ := list_complete shed "/p" shedAtlas shed_proper directory
  refine ⟨shed_proper, directory, ?_, ?_⟩
  · rw [complete ["spare.rs"] (shed_source (by simp)) (by decide +kernel),
      ← Atlas.indexOf?_eq_none_iff]
    decide +kernel
  · rw [complete ["lib.rs"] (shed_source (by simp)) (by decide +kernel),
      ← Atlas.indexOf?_eq_none_iff]
    decide +kernel

/-- What the listing holds is below the directory, has the extension of source files and is not passed over.
All of it is files exactly if the atlas holds every directory that has such a name. -/
theorem list_sound (files : FileSystem) (dir : Path) (atlas : Atlas) (proper : files.root.Proper)
    (directory : files.isDirectory dir = true) :
    (∀ path ∈ list files dir atlas, ∃ way, SourceWay dir way ∧
      files.fileExists (dir.descend way) = true ∧ path = files.canonical (dir.descend way)) ∧
    ((∀ path ∈ list files dir atlas, files.isFile path = true) ↔
      ∀ way, SourceWay dir way → files.isDirectory (dir.descend way) = true →
        atlas.Holds (files.canonical (dir.descend way))) := by
  obtain ⟨place, located⟩ := FileSystem.locate_isDirectory directory
  have below (path : Path) (listed : path ∈ list files dir atlas) :=
    (mem_sources_iff proper located).mp (mem_list_iff.mp listed).1
  refine ⟨below, fun regular way source isDirectory => ?_, fun held path listed => ?_⟩
  · have present := FileSystem.fileExists_iff.mpr (FileSystem.locate_isDirectory isDirectory)
    -- a directory that the atlas does not hold would be listed itself
    by_contra missing
    have isFile := regular _
      (mem_list_iff.mpr ⟨(mem_sources_iff proper located).mpr ⟨way, source, present, rfl⟩, missing⟩)
    rw [source.isFile_canonical proper located present, isDirectory] at isFile
    cases isFile
  · obtain ⟨way, source, present, rfl⟩ := below path listed
    rw [source.isFile_canonical proper located present, Bool.not_eq_true']
    exact Bool.eq_false_iff.mpr fun isDirectory =>
      (mem_list_iff.mp listed).2 (held way source isDirectory)

theorem list_sound_shed :
    shed.root.Proper ∧ shed.isDirectory "/p" = true ∧
    (∀ path ∈ list shed "/p" shedAtlas, ∃ way, SourceWay "/p" way ∧
      shed.fileExists (("/p" : Path).descend way) = true ∧
      path = shed.canonical (("/p" : Path).descend way)) ∧
    ¬ ∀ path ∈ list shed "/p" shedAtlas, shed.isFile path = true := by
  have directory : shed.isDirectory "/p" = true := by decide +kernel
  obtain ⟨below, regular⟩ := list_sound shed "/p" shedAtlas shed_proper directory
  refine ⟨shed_proper, directory, below, fun all => ?_⟩
  have held := regular.mp all ["old.rs"] (shed_source (by simp)) (by decide +kernel)
  exact absurd held ((Atlas.indexOf?_eq_none_iff _ _).mp (by decide +kernel))

theorem shed_directory_listed :
    .ofText "/p/old.rs" ∈ list shed "/p" shedAtlas ∧ shed.isFile "/p/old.rs" = false := by
  refine ⟨mem_list_iff.mpr ⟨by decide +kernel, ?_⟩, by decide +kernel⟩
  rw [← Atlas.indexOf?_eq_none_iff]
  decide +kernel

end Unreached

end CrateAtlas
