import CrateAtlas.Config
import CrateAtlas.Proofs.Ancestors

/-!
The search for settings. Followed from an absolute path without `..`, it gives the file in the deepest
directory that has one, at the path or above. From any other path it looks into the directories that are
passed on the way there, so the spelling of a path matters: `..` leads past directories that are not above,
and a relative path never leads above the current directory.
-/

namespace CrateAtlas.Config

open CrateAtlas.Path FileSystem

def Has (files : FileSystem) (dir : List Bytes) (name : Bytes) : Prop :=
  ∃ content, files.root.descend? (dir ++ [name]) = some (.file content)

/-- A directory has its settings in the file of a name. The hidden file is preferred. -/
def Uses (files : FileSystem) (dir : List Bytes) (name : Bytes) : Prop :=
  Has files dir name ∧
    (name = ".importgraph.toml" ∨ name = "importgraph.toml" ∧ ¬ Has files dir ".importgraph.toml")

def Bare (files : FileSystem) (dir : List Bytes) : Prop :=
  ¬ Has files dir ".importgraph.toml" ∧ ¬ Has files dir "importgraph.toml"

/-- A file holds the settings of the deepest directory that has any, of a directory and those above. -/
def Nearest (files : FileSystem) (start file : List Bytes) : Prop :=
  ∃ dir name, dir <+: start ∧ Uses files dir name ∧ file = dir ++ [name] ∧
    ∀ deeper, deeper <+: start → dir.length < deeper.length → Bare files deeper

def Upward (files : FileSystem) (start : List Bytes) (path : Path) : Prop :=
  ∃ dir name content, files.locate path = .ok ⟨dir ++ [name], .file content⟩ ∧ dir <+: start

section

variable {files : FileSystem} {dir start file other : List Bytes} {name : Bytes}

theorem Uses.not_bare (uses : Uses files dir name) : ¬ Bare files dir := by
  rintro ⟨hidden, shown⟩
  obtain ⟨has, rfl | ⟨rfl, _⟩⟩ := uses
  · exact hidden has
  · exact shown has

private theorem uses_unique {second : Bytes} (uses : Uses files dir name) (uses' : Uses files dir second) :
    name = second := by
  obtain ⟨has, rfl | ⟨rfl, absent⟩⟩ := uses
  · obtain ⟨_, rfl | ⟨rfl, absent⟩⟩ := uses'
    · rfl
    · exact absurd has absent
  · obtain ⟨has', rfl | ⟨rfl, _⟩⟩ := uses'
    · exact absurd has' absent
    · rfl

private theorem nearest_unique (nearest : Nearest files start file) (nearest' : Nearest files start other) :
    file = other := by
  obtain ⟨dir, name, above, uses, rfl, deepest⟩ := nearest
  obtain ⟨dir', name', above', uses', rfl, deepest'⟩ := nearest'
  have first : ¬ dir.length < dir'.length := fun less => uses'.not_bare (deepest dir' above' less)
  have second : ¬ dir'.length < dir.length := fun less => uses.not_bare (deepest' dir above less)
  have length : dir.length = dir'.length := by omega
  obtain rfl : dir = dir' :=
    (List.prefix_of_prefix_length_le above above' (Nat.le_of_eq length)).eq_of_length length
  rw [uses_unique uses uses']

end

section

variable {files : FileSystem} {path above found : Path}

theorem bare_of_isFile (isFile : files.isFile path = true) : Bare files (files.wayOf path) := by
  obtain ⟨⟨way, tree⟩, located⟩ := locate_isFile isFile
  rw [FileSystem.isFile, located] at isFile
  have there := (locate_ok_iff.mp located).2.2
  rw [locate_wayOf located] at there
  cases tree with
  | directory children => cases isFile
  | file content =>
    -- nothing is below a file
    constructor <;>
    · rintro ⟨_, inside⟩
      rw [FileTree.descend?_append, there] at inside
      cases inside

theorem isFile_join_iff (leads : files.Leads above) {name : Bytes} (plain : PlainName name) :
    files.isFile (above.join ⟨name⟩) = true ↔ Has files (files.wayOf above) name := by
  constructor
  · intro isFile
    obtain ⟨⟨way, tree⟩, located⟩ := locate_isFile isFile
    rw [FileSystem.isFile, located] at isFile
    obtain ⟨rfl, there⟩ := (leads name plain _).mp located
    cases tree with
    | file content => exact ⟨content, there⟩
    | directory children => cases isFile
  · rintro ⟨content, there⟩
    have located := (leads name plain ⟨_, .file content⟩).mpr ⟨rfl, there⟩
    rw [FileSystem.isFile, located]
    rfl

theorem plain_hidden : PlainName (.ofText ".importgraph.toml") := by decide

theorem plain_shown : PlainName (.ofText "importgraph.toml") := by decide

private theorem fileIn?_eq_some (leads : files.Leads above) (chosen : fileIn? files above = some found) :
    ∃ name, PlainName name ∧ Uses files (files.wayOf above) name ∧ found = above.join ⟨name⟩ := by
  have hidden := isFile_join_iff leads plain_hidden
  have shown := isFile_join_iff leads plain_shown
  simp only [fileIn?, fileNames, Path.ofText, List.map_cons, List.map_nil, List.find?_cons,
    List.find?_nil] at chosen
  split at chosen
  · next has => exact ⟨_, plain_hidden, ⟨hidden.mp has, .inl rfl⟩, (Option.some.inj chosen).symm⟩
  · next lacks =>
    split at chosen
    · next has =>
      have absent : ¬ Has files (files.wayOf above) ".importgraph.toml" := by simp [← hidden, lacks]
      exact ⟨_, plain_shown, ⟨shown.mp has, .inr ⟨rfl, absent⟩⟩, (Option.some.inj chosen).symm⟩
    · cases chosen

theorem fileIn?_eq_none_iff (leads : files.Leads above) :
    fileIn? files above = none ↔ Bare files (files.wayOf above) := by
  rw [Bare, ← isFile_join_iff leads plain_hidden, ← isFile_join_iff leads plain_shown]
  simp [fileIn?, fileNames, Path.ofText]

/-- A search that starts at a file finds what is found from its directory, as nothing is below a file. -/
theorem find?_eq (files : FileSystem) (path : Path) :
    find? files path = path.ancestors.findSome? (fileIn? files) := by
  unfold find?
  by_cases isFile : files.isFile path = true
  · have bare : fileIn? files path = none := by
      obtain ⟨place, located⟩ := locate_isFile isFile
      rw [fileIn?_eq_none_iff (leads_of_located located (self_mem_ancestors path))]
      exact bare_of_isFile isFile
    rw [if_pos isFile]
    rcases parent?_cases path with ⟨top, _⟩ | ⟨parent, _, found, _⟩
    · simp [top, ancestors_top top, bare]
    · simp [found, ancestors_below found, bare]
  · rw [if_neg isFile]
    rfl

theorem find?_eq_some (leads : ∀ above ∈ path.ancestors, files.Leads above)
    (search : find? files path = some found) :
    ∃ before above after name content, path.ancestors = before ++ above :: after ∧
      (∀ passed ∈ before, Bare files (files.wayOf passed)) ∧ Uses files (files.wayOf above) name ∧
      (found.components = above.components ++ [.name name] ∧
        files.locate found = .ok ⟨files.wayOf above ++ [name], .file content⟩) := by
  rw [find?_eq] at search
  obtain ⟨before, above, after, split, chosen, none⟩ := List.findSome?_eq_some_iff.mp search
  have leading := leads above (by simp [split])
  obtain ⟨name, plain, uses, rfl⟩ := fileIn?_eq_some leading chosen
  obtain ⟨content, there⟩ := uses.1
  refine ⟨before, above, after, name, content, split, fun passed member => ?_, uses,
    components_join plain above, (leading name plain _).mpr ⟨rfl, there⟩⟩
  exact (fileIn?_eq_none_iff (leads passed (by simp [split, member]))).mp (none passed member)

theorem find?_eq_none_iff (leads : ∀ above ∈ path.ancestors, files.Leads above) :
    find? files path = none ↔ ∀ above ∈ path.ancestors, Bare files (files.wayOf above) := by
  rw [find?_eq, List.findSome?_eq_none_iff]
  exact forall₂_congr fun above member => fileIn?_eq_none_iff (leads above member)

theorem nearest_of_passed {before after : List Path} {name : Bytes}
    (split : path.ancestors = before ++ above :: after)
    (bare : ∀ passed ∈ before, Bare files (files.wayOf passed))
    (uses : Uses files (files.wayOf above) name) (upward : files.wayOf above <+: files.wayOf path) :
    Nearest files (files.wayOf path) (files.wayOf above ++ [name]) := by
  refine ⟨_, name, upward, uses, rfl, fun deeper between longer => ?_⟩
  -- whatever lies between was passed before
  rcases passed_or_above split between with ⟨passed, member, rfl⟩ | higher
  · exact bare passed member
  · exact absurd higher.length_le (Nat.not_le.mpr longer)

/-- If no file is found, only directories above the current one can have any. -/
theorem bare_of_find?_eq_none (leads : ∀ above ∈ path.ancestors, files.Leads above)
    (search : find? files path = none) {dir : List Bytes} (upward : dir <+: files.wayOf path) :
    Bare files dir ∨ path.isAbsolute = false ∧ dir <+: files.current ∧ dir ≠ files.current := by
  have bare := (find?_eq_none_iff leads).mp search
  obtain ⟨before, top, split, start⟩ := files.exists_top path
  rcases passed_or_above split upward with ⟨passed, member, rfl⟩ | higher
  · exact .inl (bare passed (by simp [split, member]))
  · have last := bare top (by simp [split])
    by_cases same : dir = files.wayOf top
    · exact .inl (same ▸ last)
    · rw [start] at higher same
      split at higher
      · next absolute => exact absurd (List.prefix_nil.mp higher) (by simpa [absolute] using same)
      · next relative => exact .inr ⟨by simpa using relative, higher, by simpa [relative] using same⟩

end

section

variable {files : FileSystem} {start : Path}

private theorem leads_ancestors (absolute : start.isAbsolute = true) (names : .parent ∉ start.components) :
    ∀ above ∈ start.ancestors, files.Leads above := by
  intro above member
  refine leads_of_names (by rw [isAbsolute_of_mem_ancestors member, absolute]) fun dots => names ?_
  exact (components_of_mem_ancestors member).subset dots

theorem find?_nearest_of_names (absolute : start.isAbsolute = true) (names : .parent ∉ start.components) :
    (∀ found, find? files start = some found → ∃ file content, Nearest files (files.wayOf start) file ∧
      found.same (FileSystem.absolute file) = true ∧ files.locate found = .ok ⟨file, .file content⟩) ∧
    (find? files start = none ↔ ∀ dir, dir <+: files.wayOf start → Bare files dir) := by
  have leads := @leads_ancestors files start absolute names
  refine ⟨fun found search => ?_, fun search dir upward => ?_, fun bare => ?_⟩
  · obtain ⟨before, above, after, name, content, split, bare, uses, spelled, located⟩ :=
      find?_eq_some leads search
    have member : above ∈ start.ancestors := by simp [split]
    refine ⟨_, content, nearest_of_passed split bare uses (wayOf_above names member), ?_, located⟩
    obtain ⟨whole, front⟩ := @components_eq_wayOf files above
      (by rw [isAbsolute_of_mem_ancestors member, absolute])
      (fun dots => names ((components_of_mem_ancestors member).subset dots))
    have last : PlainName name := (orderly_components found).plain name (by simp [spelled])
    have every : ∀ other ∈ files.wayOf above ++ [name], PlainName other := by
      simpa [or_imp, forall_and] using ⟨front, last⟩
    rw [same_iff, spelled, whole, components_absolute every]
    simp
  · rcases bare_of_find?_eq_none leads search upward with bare | ⟨relative, _⟩
    · exact bare
    · rw [absolute] at relative
      cases relative
  · exact (find?_eq_none_iff leads).mpr fun above member => bare _ (wayOf_above names member)

private theorem wayOf_absolute {way : List Bytes} (plain : ∀ name ∈ way, PlainName name) :
    files.wayOf (FileSystem.absolute way) = way := by
  rw [wayOf, components_absolute plain, absolute_isAbsolute, if_pos rfl, List.foldl_cons, foldl_move_names]
  rfl

theorem prefix_dropLast_or_eq {dir way : List Bytes} (upward : dir <+: way) :
    dir = way ∨ dir <+: way.dropLast := by
  rcases List.eq_nil_or_concat' way with rfl | ⟨front, last, rfl⟩
  · exact .inl (List.prefix_nil.mp upward)
  · rw [List.dropLast_concat]
    exact List.prefix_concat_iff.mp upward

private theorem nearest_dropLast {way file : List Bytes} (bare : Bare files way)
    (nearest : Nearest files way file) : Nearest files way.dropLast file := by
  obtain ⟨dir, name, upward, uses, spelled, deepest⟩ := nearest
  refine ⟨dir, name, ?_, uses, spelled, fun deeper between =>
    deepest deeper (between.trans (List.dropLast_prefix way))⟩
  exact (prefix_dropLast_or_eq upward).resolve_left fun same => uses.not_bare (same ▸ bare)

end

/-- The directory in which a search from an absolute path starts: that of a file, or the path itself. -/
def StartsIn (files : FileSystem) (start : Path) (dir : List Bytes) : Prop :=
  ∃ way, start.components = .root :: way.map .name ∧
    dir = if files.isFile start then way.dropLast else way

/-- From every absolute path without `..`, existing or not, the search gives the settings file of the deepest
directory that has one, and nothing just if there is none. -/
theorem find?_nearest (files : FileSystem) (start : Path) (absolute : start.isAbsolute = true)
    (names : .parent ∉ start.components) :
    ∃ dir, StartsIn files start dir ∧
      (∀ found, find? files start = some found → ∃ file content, Nearest files dir file ∧
        found.same (FileSystem.absolute file) = true ∧ files.locate found = .ok ⟨file, .file content⟩) ∧
      (find? files start = none ↔ ∀ above, above <+: dir → Bare files above) := by
  obtain ⟨some, none⟩ := @find?_nearest_of_names files start absolute names
  obtain ⟨whole, plain⟩ := @components_eq_wayOf files start absolute names
  refine ⟨_, ⟨files.wayOf start, whole, rfl⟩, ?_⟩
  split
  · next isFile =>
    have bare := bare_of_isFile isFile
    refine ⟨fun found search => ?_, none.trans ⟨fun every above upward => ?_, fun every above upward => ?_⟩⟩
    · obtain ⟨file, content, nearest, denotes⟩ := some found search
      exact ⟨file, content, nearest_dropLast bare nearest, denotes⟩
    · exact every above (upward.trans (List.dropLast_prefix _))
    · rcases prefix_dropLast_or_eq upward with rfl | upward
      · exact bare
      · exact every above upward
  · exact ⟨some, none⟩

/-- Settings of all kinds: at the top, in both files of a directory, and in a directory that only bears the
name of such a file. -/
def thicket : FileSystem where
  root := .directory [("importgraph.toml", .file (some "")), ("p", .directory [
    ("importgraph.toml", .file (some "")), (".importgraph.toml", .file (some "")),
    ("q", .directory [(".importgraph.toml", .directory []), ("a.rs", .file (some ""))])])]
  current := []

theorem find?_nearest_thicket :
    find? thicket "/p//q/./a.rs" = some (.ofText "/p/.importgraph.toml") ∧
    Nearest thicket ["p", "q"] ["p", ".importgraph.toml"] := by
  have search : find? thicket "/p//q/./a.rs" = some (.ofText "/p/.importgraph.toml") := by decide +kernel
  obtain ⟨dir, ⟨way, spelled, rfl⟩, some, _⟩ := find?_nearest thicket "/p//q/./a.rs" (by decide +kernel)
    (by decide +kernel)
  have names : [Component.root] ++ (["p", "q", "a.rs"] : List Bytes).map .name = [.root] ++ way.map .name :=
    Eq.trans (by decide +kernel) spelled
  obtain rfl : (["p", "q", "a.rs"] : List Bytes) = way :=
    List.map_injective_iff.mpr (fun _ _ same => Component.name.inj same) (List.append_cancel_left names)
  have isFile : thicket.isFile "/p//q/./a.rs" = true := by decide +kernel
  obtain ⟨file, content, nearest, _, located⟩ := some _ search
  have there : thicket.locate "/p/.importgraph.toml" =
      .ok ⟨["p", ".importgraph.toml"], .file (Option.some "")⟩ := rfl
  obtain rfl := (Place.mk.inj (Except.ok.inj (there.symm.trans located))).1
  rw [if_pos isFile] at nearest
  exact ⟨search, nearest⟩

section

variable {files : FileSystem} {path found : Path} {place : Place}

private theorem Nearest.upward {start file : List Bytes} {content : Option String}
    (nearest : Nearest files start file) (located : files.locate found = .ok ⟨file, .file content⟩) :
    Upward files start found := by
  obtain ⟨dir, name, above, _, rfl, _⟩ := nearest
  exact ⟨dir, name, content, located, above⟩

private theorem Nearest.locate_eq {start file other : List Bytes} {content content' : Option String}
    {found' : Path} (nearest : Nearest files start file)
    (located : files.locate found = .ok ⟨file, .file content⟩)
    (nearest' : Nearest files start other) (located' : files.locate found' = .ok ⟨other, .file content'⟩) :
    files.locate found = files.locate found' := by
  obtain rfl := nearest_unique nearest nearest'
  have same : some (FileTree.file content) = some (.file content') :=
    (locate_ok_iff.mp located).2.2.symm.trans (locate_ok_iff.mp located').2.2
  rw [located, located', Option.some.inj same]

private theorem nearest_of_upward (located : files.locate path = .ok place)
    (search : find? files path = some found) (upward : Upward files place.way found) :
    ∃ file content, Nearest files place.way file ∧ files.locate found = .ok ⟨file, .file content⟩ := by
  obtain ⟨before, above, after, name, content, split, bare, uses, _, there⟩ :=
    find?_eq_some (fun above => leads_of_located located) search
  obtain ⟨dir, last, _, there', higher⟩ := upward
  have same := (Place.mk.inj (Except.ok.inj (there'.symm.trans there))).1
  rw [(List.append_inj' same rfl).1] at higher
  rw [locate_wayOf located] at higher ⊢
  exact ⟨_, content, nearest_of_passed split bare uses higher, there⟩

private theorem upward_of_names (located : files.locate path = .ok place) (names : .parent ∉ path.components)
    (search : find? files path = some found) : Upward files place.way found := by
  obtain ⟨before, above, after, name, content, split, _, _, _, there⟩ :=
    find?_eq_some (fun above => leads_of_located located) search
  refine ⟨_, name, content, there, ?_⟩
  rw [locate_wayOf located]
  exact wayOf_above names (by simp [split])

theorem find?_canonical (current : ∀ name ∈ files.current, PlainName name)
    (located : files.locate path = .ok place) :
    (∀ found, find? files (files.canonical path) = some found → ∃ file content,
      Nearest files place.way file ∧ files.locate found = .ok ⟨file, .file content⟩) ∧
    (find? files (files.canonical path) = none ↔ ∀ dir, dir <+: place.way → Bare files dir) := by
  have plain := (locate_way (.inr current) located).1
  have spelled : files.canonical path = absolute place.way := by simp [canonical, canonical?, located]
  have names : .parent ∉ (absolute place.way).components := by simp [components_absolute plain]
  obtain ⟨some, none⟩ := @find?_nearest_of_names files _ (absolute_isAbsolute place.way) names
  rw [wayOf_absolute plain] at some none
  rw [spelled]
  refine ⟨fun found search => ?_, none⟩
  obtain ⟨file, content, nearest, _, there⟩ := some found search
  exact ⟨file, content, nearest, there⟩

private theorem find?_agree_iff (current : ∀ name ∈ files.current, PlainName name)
    (located : files.locate path = .ok place) :
    (find? files path).map files.locate = (find? files (files.canonical path)).map files.locate ↔
      (∀ found, find? files path = some found → Upward files place.way found) ∧
      (find? files path = none → find? files (files.canonical path) = none) := by
  obtain ⟨canonical, nothing⟩ := find?_canonical current located
  constructor
  · intro same
    refine ⟨fun found search => ?_, fun search => ?_⟩
    · rw [search, Option.map_some, eq_comm, Option.map_eq_some_iff] at same
      obtain ⟨other, search', alike⟩ := same
      obtain ⟨file, content, nearest, there⟩ := canonical other search'
      exact nearest.upward (alike.symm.trans there)
    · rwa [search, Option.map_none, eq_comm, Option.map_eq_none_iff] at same
  · rintro ⟨upward, missing⟩
    cases search : find? files path with
    | none => rw [missing search]
    | some found =>
      -- both searches give the nearest file, of which there is one
      obtain ⟨file, content, nearest, there⟩ := nearest_of_upward located search (upward found search)
      cases search' : find? files (files.canonical path) with
      | none =>
        obtain ⟨dir, name, above, uses, _⟩ := nearest
        exact absurd (nothing.mp search' dir above) uses.not_bare
      | some other =>
        obtain ⟨file', content', nearest', there'⟩ := canonical other search'
        exact congrArg some (nearest.locate_eq there nearest' there')

private theorem skipped_above_current (current : ∀ name ∈ files.current, PlainName name)
    (located : files.locate path = .ok place) (search : find? files path = none)
    (search' : find? files (files.canonical path) = some found) :
    path.isAbsolute = false ∧ ∃ dir name content,
      files.locate found = .ok ⟨dir ++ [name], .file content⟩ ∧ dir <+: files.current ∧
        dir ≠ files.current := by
  obtain ⟨_, content, ⟨dir, name, above, uses, rfl, _⟩, there⟩ :=
    (find?_canonical current located).1 found search'
  rw [locate_wayOf located] at above
  rcases bare_of_find?_eq_none (fun above => leads_of_located located) search above with bare | far
  · exact absurd bare uses.not_bare
  · exact ⟨far.1, dir, name, content, there, far.2⟩

end

/-- Whether the search from a path that exists gives the same as from its canonical path: it does just if what
is found lies in a directory above, and nothing is found only if no directory above has settings. The first
may fail only for paths with a `..` in them, and the second only for relative ones, by a file above the
current directory. -/
theorem find?_spelling (files : FileSystem) (current : ∀ name ∈ files.current, PlainName name) (path : Path)
    (place : Place) (located : files.locate path = .ok place) :
    ((find? files path).map files.locate = (find? files (files.canonical path)).map files.locate ↔
      (∀ found, find? files path = some found → Upward files place.way found) ∧
      (find? files path = none → find? files (files.canonical path) = none)) ∧
    (.parent ∉ path.components → ∀ found, find? files path = some found → Upward files place.way found) ∧
    (∀ found, find? files path = none → find? files (files.canonical path) = some found →
      path.isAbsolute = false ∧ ∃ dir name content,
        files.locate found = .ok ⟨dir ++ [name], .file content⟩ ∧ dir <+: files.current ∧
          dir ≠ files.current) ∧
    (path.isAbsolute = true → .parent ∉ path.components →
      (find? files path).map files.locate = (find? files (files.canonical path)).map files.locate) := by
  have agree := find?_agree_iff current located
  refine ⟨agree, fun names found => upward_of_names located names,
    fun found => skipped_above_current current located, fun absolute names => ?_⟩
  refine agree.mpr ⟨fun found => upward_of_names located names, fun search => ?_⟩
  cases search' : find? files (files.canonical path) with
  | none => rfl
  | some found =>
    obtain ⟨relative, _⟩ := skipped_above_current current located search search'
    rw [absolute] at relative
    cases relative

def hollow : FileSystem where
  root := .directory [("p", .directory [("importgraph.toml", .file (some "")),
    ("src", .directory [("a.rs", .file (some ""))])]), ("q", .directory [])]
  current := ["p", "src"]

theorem find?_spelling_hollow :
    (∀ name ∈ hollow.current, PlainName name) ∧ hollow.canonical "/p/./src//a.rs" = "/p/src/a.rs" ∧
    find? hollow "/p/src/a.rs" = some (.ofText "/p/importgraph.toml") ∧
    (find? hollow "/p/./src//a.rs").map hollow.locate =
      some (.ok ⟨["p", "importgraph.toml"], .file (some "")⟩) := by
  have current : ∀ name ∈ hollow.current, PlainName name := by decide
  have canonical : hollow.canonical "/p/./src//a.rs" = "/p/src/a.rs" := by decide +kernel
  have search : find? hollow "/p/src/a.rs" = some (.ofText "/p/importgraph.toml") := by decide +kernel
  have same := (find?_spelling hollow current "/p/./src//a.rs" ⟨["p", "src", "a.rs"], .file (some "")⟩
    rfl).2.2.2 (by decide +kernel) (by decide +kernel)
  refine ⟨current, canonical, search, ?_⟩
  rw [same, canonical, search]
  rfl

/-- Two spellings of directories for which another file is found, or none. From `/p/../q` the search comes past
`/p`, whose settings it takes; and from the current directory, spelled as a dot, it never looks above. -/
theorem hollow_spelling_matters :
    (hollow.canonical "/p/../q" = "/q" ∧ find? hollow "/q" = none ∧
      find? hollow "/p/../q" = some (.ofText "/p/importgraph.toml")) ∧
    (hollow.canonical "." = "/p/src" ∧ find? hollow "/p/src" = some (.ofText "/p/importgraph.toml") ∧
      find? hollow "." = none) := by
  decide +kernel

end CrateAtlas.Config
