import CrateAtlas.Proofs.FileSystem
import CrateAtlas.Resolver

/-!
Modules and their files. A crate whose root file has a canonical path keeps each module in at most one
file, and the names of the module can be read off the path of that file.
-/

namespace CrateAtlas

open CrateAtlas.Path FileSystem

theorem Text.dropEnd?_append (text ending : String) : dropEnd? (text ++ ending) ending = some text := by
  simp [dropEnd?, ← String.length_toList]

theorem Path.PlainName.source {name : String} (plain : PlainName (.ofText name)) :
    PlainName (.ofText (name ++ ".rs")) := by
  obtain ⟨_, whole, _, _⟩ := plainName_ofText_iff.mp plain
  refine plainName_ofText_iff.mpr ⟨by simp, by simpa using whole, fun same => ?_, fun same => ?_⟩
  all_goals
    have length := congrArg (·.toList.length) same
    simp at length

namespace Resolver

/-- A name that modules are referred to by: without separators and dots, and not `mod`. -/
structure ModuleName (name : String) : Prop where
  filled : name ≠ ""
  whole : '/' ∉ name.toList
  undotted : '.' ∉ name.toList
  notMod : name ≠ "mod"

namespace ModuleName

variable {name : String}

instance : Decidable (ModuleName name) :=
  decidable_of_iff (name ≠ "" ∧ '/' ∉ name.toList ∧ '.' ∉ name.toList ∧ name ≠ "mod")
    ⟨fun valid => ⟨valid.1, valid.2.1, valid.2.2.1, valid.2.2.2⟩,
      fun valid => ⟨valid.filled, valid.whole, valid.undotted, valid.notMod⟩⟩

theorem plain (valid : ModuleName name) : PlainName (.ofText name) :=
  plainName_ofText_iff.mpr ⟨valid.filled, valid.whole, fun same => valid.undotted (by simp [same]),
    fun same => valid.undotted (by simp [same])⟩

theorem plainFile (valid : ModuleName name) : PlainName (.ofText (name ++ ".rs")) :=
  valid.plain.source

end ModuleName

theorem plain_modFile : PlainName (.ofText "mod.rs") := by
  decide

/-- The root file of a crate exists in some directory, and its other files are looked for there. -/
structure Rooted (files : FileSystem) (resolver : Resolver) (dir : List Bytes) (root : Bytes) :
    Prop where
  rootFile : resolver.rootFile = absolute (dir ++ [root])
  sourceDir : resolver.sourceDir = absolute dir
  plain : ∀ name ∈ dir ++ [root], PlainName name
  present : ∃ content, files.root.descend? (dir ++ [root]) = some (.file content)

theorem exists_rooted {files : FileSystem} {resolver : Resolver}
    (beside : resolver.sourceDir = resolver.rootFile.parent?.getD "")
    (canonical : files.canonical? resolver.rootFile = some resolver.rootFile)
    (isFile : files.isFile resolver.rootFile = true) : ∃ dir root, resolver.Rooted files dir root := by
  obtain ⟨dir, root, content, spelled, plain, found⟩ := canonical_file canonical isFile
  refine ⟨dir, root, spelled, ?_, plain, content, found⟩
  rw [beside, spelled, parent?_absolute plain, Option.getD_some]

def flatWay (dir : List Bytes) (front : List String) (last : String) : List Bytes :=
  dir ++ front.map .ofText ++ [.ofText (last ++ ".rs")]

def nestedWay (dir : List Bytes) (front : List String) (last : String) : List Bytes :=
  dir ++ front.map .ofText ++ [.ofText last] ++ [.ofText "mod.rs"]

section

variable {files : FileSystem} {resolver : Resolver} {dir : List Bytes} {root : Bytes}
  {front names : List String} {last : String} {path : Path}

private theorem foldl_join (plainDir : ∀ name ∈ dir, PlainName name)
    (plain : ∀ name ∈ names, PlainName (.ofText name)) :
    names.foldl (fun dir (name : String) => dir.join name) (absolute dir) =
      absolute (dir ++ names.map .ofText) := by
  induction names generalizing dir with
  | nil => simp
  | cons name rest ih =>
    rw [List.forall_mem_cons] at plain
    have both : ∀ other ∈ dir ++ [.ofText name], PlainName other := by
      intro other member
      rcases List.mem_append.mp member with old | new
      · exact plainDir other old
      · exact List.mem_singleton.mp new ▸ plain.1
    rw [List.foldl_cons, ofText, join_absolute plainDir plain.1, ih both plain.2]
    simp

namespace Rooted

theorem plainDir (rooted : resolver.Rooted files dir root) : ∀ name ∈ dir, PlainName name :=
  fun name member => rooted.plain name (by simp [member])

theorem plain_append (rooted : resolver.Rooted files dir root)
    (valid : ∀ name ∈ front, ModuleName name) {file : Bytes} (plain : PlainName file) :
    ∀ name ∈ dir ++ front.map .ofText ++ [file], PlainName name := by
  intro name member
  rcases List.mem_append.mp member with old | new
  · rcases List.mem_append.mp old with above | inner
    · exact rooted.plainDir name above
    · obtain ⟨text, listed, rfl⟩ := List.mem_map.mp inner
      exact (valid text listed).plain
  · exact List.mem_singleton.mp new ▸ plain

private theorem plain_flatWay (rooted : resolver.Rooted files dir root)
    (valid : ∀ name ∈ front ++ [last], ModuleName name) :
    ∀ name ∈ flatWay dir front last, PlainName name :=
  rooted.plain_append (fun name member => valid name (by simp [member])) (valid last (by simp)).plainFile

private theorem plain_nestedWay (rooted : resolver.Rooted files dir root)
    (valid : ∀ name ∈ front ++ [last], ModuleName name) :
    ∀ name ∈ nestedWay dir front last, PlainName name := by
  have plain := rooted.plain_append valid plain_modFile
  rwa [List.map_append, ← List.append_assoc] at plain

/-- The file of a module is its flat one if there is one, else its nested one. -/
theorem moduleFile?_eq (rooted : resolver.Rooted files dir root)
    (valid : ∀ name ∈ front ++ [last], ModuleName name) :
    resolver.moduleFile? files (front ++ [last]) =
      if files.isFile (absolute (flatWay dir front last)) then some (absolute (flatWay dir front last))
      else if files.isFile (absolute (nestedWay dir front last)) then
        some (absolute (nestedWay dir front last))
      else none := by
  have final := valid last (by simp)
  have inner : ∀ name ∈ front, ModuleName name := fun name member => valid name (by simp [member])
  have nested := rooted.plain_append inner final.plain
  have plain : ∀ name ∈ dir ++ front.map .ofText, PlainName name :=
    fun name member => nested name (List.mem_append_left _ member)
  simp only [moduleFile?, List.getLast?_concat, List.dropLast_concat, rooted.sourceDir]
  rw [foldl_join rooted.plainDir fun name member => (inner name member).plain, ofText, ofText, ofText,
    join_absolute plain final.plainFile, join_absolute plain final.plain,
    join_absolute nested plain_modFile]
  rfl

/-- The names of a module, read off a path below the directory of the crate. -/
theorem modulePath?_eq (rooted : resolver.Rooted files dir root) {stem : String}
    (plain : ∀ name ∈ dir ++ front.map .ofText ++ [.ofText (stem ++ ".rs")], PlainName name)
    (apart : (absolute (dir ++ front.map .ofText ++ [.ofText (stem ++ ".rs")])).same
      resolver.rootFile = false) :
    resolver.modulePath? (absolute (dir ++ front.map .ofText ++ [.ofText (stem ++ ".rs")])) =
      some (if stem = "mod" then front else front ++ [stem]) := by
  have whole : front.map Bytes.ofText ++ [Bytes.ofText (stem ++ ".rs")] =
      (front ++ [stem ++ ".rs"]).map .ofText := by simp
  rw [List.append_assoc, whole] at plain apart ⊢
  have names : (⟨[slash].intercalate ((front ++ [stem ++ ".rs"]).map Bytes.ofText)⟩ :
      Path).components.map (·.bytes.display) = front ++ [stem ++ ".rs"] := by
    rw [components_intercalate fun name member => plain name (List.mem_append_right dir member)]
    simp [Component.bytes, Function.comp_def]
  simp only [modulePath?, apart, Bool.false_eq_true, if_false, rooted.sourceDir,
    below?_absolute plain, Option.bind_eq_bind, Option.bind_some, names, List.getLast?_concat,
    Text.dropEnd?_append, List.dropLast_concat, Option.pure_def]

private theorem same_rootFile (rooted : resolver.Rooted files dir root) {way : List Bytes}
    (plain : ∀ name ∈ way, PlainName name) (same : (absolute way).same resolver.rootFile = true) :
    absolute way = resolver.rootFile := by
  rw [rooted.rootFile] at same ⊢
  rw [absolute_inj plain rooted.plain ((Path.same_iff _ _).mp same)]

end Rooted

/-- A path is the file of the module of some names, and of no other module. -/
structure Houses (files : FileSystem) (resolver : Resolver) (names : List String) (path : Path) :
    Prop where
  valid : ∀ name ∈ names, ModuleName name
  file : resolver.moduleFile? files names = some path
  names : resolver.modulePath? path = some names

theorem houses_rootFile (files : FileSystem) (resolver : Resolver) :
    resolver.Houses files [] resolver.rootFile where
  valid := by simp
  file := rfl
  names := by simp [modulePath?]

/-- A module is kept in one file. -/
theorem Houses.path_eq {other : Path} (houses : resolver.Houses files names path)
    (houses' : resolver.Houses files names other) : path = other :=
  Option.some.inj (houses.file.symm.trans houses'.file)

namespace Rooted

/-- The file of a module other than the root is one of two files, and it exists. -/
theorem moduleFile?_cases (rooted : resolver.Rooted files dir root)
    (valid : ∀ name ∈ front ++ [last], ModuleName name)
    (found : resolver.moduleFile? files (front ++ [last]) = some path) :
    ∃ way, path = absolute way ∧ (∀ name ∈ way, PlainName name) ∧ files.isFile path = true ∧
      (way = flatWay dir front last ∨ way = nestedWay dir front last) := by
  rw [rooted.moduleFile?_eq valid] at found
  split at found
  · next flat =>
    cases found
    exact ⟨_, rfl, rooted.plain_flatWay valid, flat, .inl rfl⟩
  · split at found
    · next nested =>
      cases found
      exact ⟨_, rfl, rooted.plain_nestedWay valid, nested, .inr rfl⟩
    · cases found

/-- The names of a module can be read off the path of its file, unless that is the root file. -/
theorem houses_of_moduleFile? (rooted : resolver.Rooted files dir root)
    (valid : ∀ name ∈ names, ModuleName name) (found : resolver.moduleFile? files names = some path) :
    ∃ names, resolver.Houses files names path := by
  rcases List.eq_nil_or_concat' names with rfl | ⟨front, last, rfl⟩
  · cases found
    exact ⟨[], houses_rootFile files resolver⟩
  obtain ⟨way, rfl, plain, _, spelled⟩ := rooted.moduleFile?_cases valid found
  by_cases self : (absolute way).same resolver.rootFile = true
  · rw [rooted.same_rootFile plain self]
    exact ⟨[], houses_rootFile files resolver⟩
  · have apart := Bool.eq_false_iff.mpr self
    refine ⟨front ++ [last], valid, found, ?_⟩
    rcases spelled with rfl | rfl
    · have own := (valid last (by simp)).notMod
      exact (rooted.modulePath?_eq plain apart).trans (by rw [if_neg own])
    · have whole : nestedWay dir front last =
          dir ++ (front ++ [last]).map .ofText ++ [.ofText ("mod" ++ ".rs")] := by simp [nestedWay]
      rw [whole] at plain apart ⊢
      exact rooted.modulePath?_eq plain apart

private theorem houses_deepestFile (rooted : resolver.Rooted files dir root)
    (valid : ∀ name ∈ names, ModuleName name) (count : Nat) :
    ∃ found, resolver.Houses files found (resolver.deepestFile files names count) := by
  induction count with
  | zero => exact ⟨[], houses_rootFile files resolver⟩
  | succ count ih =>
    rw [deepestFile]
    split
    · next file found =>
      exact rooted.houses_of_moduleFile? (fun name member => valid name (List.mem_of_mem_take member))
        found
    · exact ih

end Rooted

private theorem fileExtension?_source {way : List Bytes} {stem : String}
    (plain : ∀ name ∈ way ++ [.ofText (stem ++ ".rs")], PlainName name) (filled : stem ≠ "") :
    (absolute (way ++ [.ofText (stem ++ ".rs")])).fileExtension? = some (.ofText "rs") := by
  obtain ⟨byte, rest, letters⟩ := List.exists_cons_of_ne_nil
    (by simpa using filled : (Bytes.ofText stem).reverse ≠ [])
  have named : (absolute (way ++ [.ofText (stem ++ ".rs")])).fileName? =
      some (.ofText (stem ++ ".rs")) := by
    rw [fileName?, components_absolute plain, List.map_append, List.map_singleton, ← List.cons_append,
      List.getLast?_concat]
  have ending : Bytes.ofText ".rs" = [dot, 0x72, 0x73] := by decide
  have reversed : (Bytes.ofText (stem ++ ".rs")).reverse = 0x73 :: 0x72 :: dot :: byte :: rest := by
    simp [Bytes.ofText_append, ending, letters]
  simp only [fileExtension?, named, Option.bind_eq_bind, Option.bind_some, reversed]
  rfl

/-- The file of a module is a file below the directory of the crate, spelled canonically, and it is a
source file unless it is the root file. -/
theorem Rooted.housed_file (rooted : resolver.Rooted files dir root)
    (houses : resolver.Houses files names path) :
    files.isFile path = true ∧ files.canonical? path = some path ∧
      (∃ relative, path.below? resolver.sourceDir = some relative ∧ relative.components ≠ []) ∧
      (path = resolver.rootFile ∨ path.fileExtension? = some (.ofText "rs")) := by
  obtain ⟨way, rfl, plain, nonempty, isFile, source⟩ : ∃ way, path = absolute (dir ++ way) ∧
      (∀ name ∈ dir ++ way, PlainName name) ∧ way ≠ [] ∧ files.isFile path = true ∧
      (path = resolver.rootFile ∨ path.fileExtension? = some (.ofText "rs")) := by
    rcases List.eq_nil_or_concat' names with rfl | ⟨front, last, rfl⟩
    · obtain rfl := Option.some.inj houses.file
      refine ⟨[root], rooted.rootFile, rooted.plain, by simp, ?_, .inl rfl⟩
      rw [rooted.rootFile]
      exact (isFile_absolute rooted.plain (by simp)).mpr rooted.present
    · obtain ⟨way, rfl, plain, isFile, spelled⟩ := rooted.moduleFile?_cases houses.valid houses.file
      rcases spelled with rfl | rfl
      · have filled := (houses.valid last (by simp)).filled
        have source := fileExtension?_source plain filled
        have split : flatWay dir front last = dir ++ (front.map .ofText ++ [.ofText (last ++ ".rs")]) :=
          List.append_assoc ..
        exact ⟨_, congrArg absolute split, split ▸ plain, by simp, isFile, .inr source⟩
      · have source := @fileExtension?_source _ "mod" plain (by decide)
        have split : nestedWay dir front last =
            dir ++ (front.map .ofText ++ [.ofText last] ++ [.ofText "mod.rs"]) := by simp [nestedWay]
        exact ⟨_, congrArg absolute split, split ▸ plain, by simp, isFile, .inr source⟩
  obtain ⟨content, found⟩ := (isFile_absolute plain (by simp [nonempty])).mp isFile
  refine ⟨isFile, canonical?_absolute plain (by simp [nonempty]) found,
    ⟨⟨[slash].intercalate way⟩, ?_, ?_⟩, source⟩
  · rw [rooted.sourceDir, below?_absolute plain]
  · rw [components_intercalate fun name member => plain name (List.mem_append_right dir member)]
    simpa using nonempty

/-- A specifier of module names leads from a module of such names to another one. -/
theorem target_valid {here rest : List String} {first : String}
    (validHere : ∀ name ∈ here, ModuleName name) (valid : ∀ name ∈ first :: rest, ModuleName name)
    (meant : resolver.target files here first rest = .module names) :
    ∀ name ∈ names, ModuleName name := by
  rw [List.forall_mem_cons] at valid
  have both {left right : List String} (validLeft : ∀ name ∈ left, ModuleName name)
      (validRight : ∀ name ∈ right, ModuleName name) : ∀ name ∈ left ++ right, ModuleName name :=
    fun name member => (List.mem_append.mp member).elim (validLeft name) (validRight name)
  unfold target at meant
  split at meant
  · cases meant
    exact valid.2
  split at meant
  · cases meant
    exact both validHere valid.2
  split at meant
  · dsimp only at meant
    split at meant
    · cases meant
    · cases meant
      exact both (fun name member => validHere name (List.mem_of_mem_take member))
        fun name member => valid.2 name (List.mem_of_mem_drop member)
  split at meant
  · cases meant
    exact both validHere (List.forall_mem_cons.mpr valid)
  split at meant <;> cases meant

/-- What a specifier of module names leads to from a module is the file of a module. -/
theorem Rooted.houses_of_resolve (rooted : resolver.Rooted files dir root) {importer target : Path}
    {here : List String} (houses : resolver.Houses files here importer) {specifier : String}
    (valid : ∀ name ∈ segments specifier, ModuleName name)
    (resolved : resolver.resolve files specifier importer = .internal target) :
    (∃ names, resolver.Houses files names target) ∧ resolver.isExcluded target = false := by
  unfold resolve at resolved
  rw [houses.names] at resolved
  split at resolved
  · next first rest found written same =>
    cases same
    rw [written] at valid
    split at resolved
    · next names meant =>
      dsimp only at resolved
      split at resolved
      · cases resolved
      · next kept =>
        cases resolved
        exact ⟨rooted.houses_deepestFile (target_valid houses.valid valid meant) _,
          Bool.eq_false_iff.mpr kept⟩
    · cases resolved
    · cases resolved
  · cases resolved

end

end Resolver

end CrateAtlas
