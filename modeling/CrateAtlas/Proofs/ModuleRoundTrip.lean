import CrateAtlas.Proofs.DeepestFile
import CrateAtlas.Proofs.TextPaths

/-!
From modules to files and back. However the directory of a crate is spelled, the file of a module lies
as many components below it as the module has names, so the names can be read off the file; and from
a file whose names are read off, the module leads back to it, or to the flat file beside its directory.
-/

namespace CrateAtlas

open CrateAtlas.Path

private theorem Text.dropEnd?_eq_some_iff {text ending front : String} :
    dropEnd? text ending = some front ↔ text = front ++ ending := by
  constructor
  · intro dropped
    unfold dropEnd? at dropped
    split at dropped
    · next ends =>
      obtain ⟨letters, spelled⟩ := List.isSuffixOf_iff_suffix.mp ends
      obtain rfl := Option.some.inj dropped
      apply String.toList_inj.mp
      rw [String.toList_append, String.toList_ofList, ← spelled, ← String.length_toList,
        ← String.length_toList, ← spelled, List.length_append, Nat.add_sub_cancel, List.take_left]
    · cases dropped
  · rintro rfl
    exact dropEnd?_append front ending

theorem Component.eq_name {component : Component} {name : Bytes} (plain : PlainName name)
    (same : component.bytes = name) : component = .name name := by
  subst same
  cases component with
  | root => exact absurd List.mem_cons_self plain.whole
  | current => exact absurd rfl plain.notCurrent
  | parent => exact absurd rfl plain.notParent
  | name bytes => rfl

def Component.ofText (name : String) : Component :=
  .name (.ofText name)

@[simp] theorem Component.display_ofText (name : String) : (ofText name).bytes.display = name :=
  Bytes.display_ofText name

namespace Resolver

section

variable {files : FileSystem} {resolver : Resolver} {front names : List String} {last : String}
  {file found : Path}

theorem components_moduleDir (plain : ∀ name ∈ names, PlainName (.ofText name)) :
    (resolver.moduleDir names).components = resolver.sourceDir.components ++ names.map .ofText := by
  unfold moduleDir
  generalize resolver.sourceDir = dir
  induction names generalizing dir with
  | nil => simp
  | cons name rest ih =>
    rw [List.forall_mem_cons] at plain
    rw [List.foldl_cons, ih plain.2, Path.ofText, components_join plain.1]
    simp [Component.ofText]

theorem components_flat (plain : ∀ name ∈ front ++ [last], PlainName (.ofText name)) :
    ((resolver.moduleDir front).join (.ofText (last ++ ".rs"))).components =
      resolver.sourceDir.components ++ (front ++ [last ++ ".rs"]).map .ofText := by
  rw [List.forall_mem_append, List.forall_mem_singleton] at plain
  rw [Path.ofText, components_join plain.2.source, components_moduleDir plain.1]
  simp [Component.ofText]

theorem components_nested (plain : ∀ name ∈ front ++ [last], PlainName (.ofText name)) :
    (((resolver.moduleDir front).join last).join "mod.rs").components =
      resolver.sourceDir.components ++ (front ++ [last, "mod.rs"]).map .ofText := by
  rw [List.forall_mem_append, List.forall_mem_singleton] at plain
  rw [Path.ofText, Path.ofText, components_join plain_modFile, components_join plain.2,
    components_moduleDir plain.1]
  simp [Component.ofText]

/-- The names of a module are those of the components below the directory of the crate, as they are
shown. -/
theorem modulePath?_eq_some_iff (apart : file.same resolver.rootFile = false) :
    resolver.modulePath? file = some names ↔ ∃ inner last stem,
      file.components = resolver.sourceDir.components ++ (inner ++ [last]) ∧
      last.bytes.display = stem ++ ".rs" ∧
      names = if stem = "mod" then inner.map (·.bytes.display)
        else inner.map (·.bytes.display) ++ [stem] := by
  have apart : (file.components == resolver.rootFile.components) = false := apart
  rw [modulePath?_components, apart, if_neg Bool.false_ne_true, components_below?, startsWith]
  constructor
  · intro read
    split at read
    · next within =>
      obtain ⟨below, split⟩ := List.isPrefixOf_iff_prefix.mp within
      rw [← split, List.drop_left, Option.bind_some] at read
      obtain ⟨text, final, read⟩ := Option.bind_eq_some_iff.mp read
      obtain ⟨stem, dropped, rfl⟩ := Option.map_eq_some_iff.mp read
      rcases List.eq_nil_or_concat' below with rfl | ⟨inner, last, rfl⟩
      · cases final
      · rw [List.map_append, List.map_singleton, List.getLast?_concat] at final
        obtain rfl := Option.some.inj final
        refine ⟨inner, last, stem, split.symm, Text.dropEnd?_eq_some_iff.mp dropped, ?_⟩
        rw [List.map_append, List.map_singleton, List.dropLast_concat]
    · cases read
  · rintro ⟨inner, last, stem, split, ends, rfl⟩
    have within : resolver.sourceDir.components.isPrefixOf file.components = true := by
      rw [List.isPrefixOf_iff_prefix, split]
      exact List.prefix_append _ _
    rw [if_pos within, split, List.drop_left]
    simp [Text.dropEnd?_eq_some_iff.mpr ends]

theorem Keeps.components (keeps : Keeps files resolver names file)
    (plain : ∀ name ∈ names, PlainName (.ofText name)) : ∃ front last, names = front ++ [last] ∧
      (file.components = resolver.sourceDir.components ++ (front ++ [last ++ ".rs"]).map .ofText ∨
        file.components = resolver.sourceDir.components ++ (front ++ [last, "mod.rs"]).map .ofText) := by
  cases keeps with
  | flat front last _ => exact ⟨front, last, rfl, .inl (components_flat plain)⟩
  | nested front last _ _ => exact ⟨front, last, rfl, .inr (components_nested plain)⟩

/-- The names of a module can be read off its file. -/
theorem Keeps.modulePath? (keeps : Keeps files resolver names file)
    (plain : ∀ name ∈ names, PlainName (.ofText name)) (notMod : names.getLast? ≠ some "mod")
    (apart : file.same resolver.rootFile = false) : resolver.modulePath? file = some names := by
  rw [modulePath?_eq_some_iff apart]
  have texts (names : List String) :
      (names.map Component.ofText).map (·.bytes.display) = names := by simp [Function.comp_def]
  obtain ⟨front, last, rfl, flat | nested⟩ := keeps.components plain
  · have other : last ≠ "mod" := by simpa using notMod
    refine ⟨front.map .ofText, .ofText (last ++ ".rs"), last, ?_, by simp, by rw [if_neg other, texts]⟩
    rw [flat, List.map_append, List.map_singleton]
  · refine ⟨(front ++ [last]).map .ofText, .ofText "mod.rs", "mod", ?_, by simp, ?_⟩
    · rw [nested]
      simp
    · rw [if_pos rfl, texts]

private theorem eq_map_ofText {components : List Component}
    (plain : ∀ name ∈ components.map (·.bytes.display), PlainName (.ofText name))
    (text : ∀ component ∈ components, component.bytes.IsText) :
    components = (components.map (·.bytes.display)).map .ofText := by
  rw [List.forall_mem_map] at plain
  rw [List.map_map]
  refine (List.map_id _).symm.trans (List.map_congr_left fun component member => ?_)
  exact Component.eq_name (plain component member)
    (Bytes.isText_iff_display.mp (text component member)).symm

/-- A file whose names are read off, and that is spelled with these names, lies where one of the two files
of the module is looked for. -/
theorem exists_components (plain : ∀ name ∈ names, PlainName (.ofText name)) (nonempty : names ≠ [])
    (apart : file.same resolver.rootFile = false) (read : resolver.modulePath? file = some names)
    (text : file.IsTextBelow resolver.sourceDir) :
    ∃ front last, names = front ++ [last] ∧
      (file.components = ((resolver.moduleDir front).join (.ofText (last ++ ".rs"))).components ∨
        file.components = (((resolver.moduleDir front).join last).join "mod.rs").components) := by
  obtain ⟨inner, final, stem, split, ends, rfl⟩ := (modulePath?_eq_some_iff apart).mp read
  rw [isTextBelow_iff split, List.forall_mem_append, List.forall_mem_singleton,
    Bytes.isText_iff_display, ends] at text
  obtain ⟨texts, spelled⟩ := text
  by_cases nested : stem = "mod"
  · subst nested
    rw [if_pos rfl] at plain nonempty ⊢
    obtain ⟨front, last, same⟩ := (List.eq_nil_or_concat' _).resolve_left nonempty
    refine ⟨front, last, same, .inr ?_⟩
    have stands : final = .ofText "mod.rs" := Component.eq_name plain_modFile spelled.symm
    rw [split, eq_map_ofText plain texts, stands, same]
    rw [same] at plain
    rw [components_nested plain]
    simp
  · rw [if_neg nested] at plain ⊢
    refine ⟨inner.map (·.bytes.display), stem, rfl, .inl ?_⟩
    rw [components_flat plain, split]
    rw [List.forall_mem_append, List.forall_mem_singleton] at plain
    have stands : final = .ofText (stem ++ ".rs") := Component.eq_name plain.2.source spelled.symm
    rw [List.map_append, ← eq_map_ofText plain.1 texts, stands, List.map_singleton]

/-- A file is the one that was found, or it is the nested file of a module whose flat file was found. -/
def Meets (found file : Path) : Prop :=
  found.same file = true ∨ ∃ dir name, file.components = dir ++ [.name name, .ofText "mod.rs"] ∧
    found.components = dir ++ [.name (name ++ .ofText ".rs")]

/-- The file of a module is spelled with texts below the directory of the crate, and so is one that it
meets. -/
theorem Keeps.isTextBelow (keeps : Keeps files resolver names found)
    (plain : ∀ name ∈ names, PlainName (.ofText name)) (meets : Meets found file) :
    file.IsTextBelow resolver.sourceDir := by
  have spelled {texts : List String}
      (split : file.components = resolver.sourceDir.components ++ texts.map .ofText) :
      file.IsTextBelow resolver.sourceDir := by
    rw [isTextBelow_iff split]
    simp [Component.ofText, Component.bytes]
  obtain ⟨front, last, rfl, split⟩ := keeps.components plain
  rcases meets with same | ⟨dir, name, nested, beside⟩
  · rw [(Path.same_iff _ _).mp same] at split
    exact split.elim spelled spelled
  · -- what was found ends with the name and the ending, so the name is the text before the ending
    have ends {before : List Component} {text : String}
        (ended : found.components = before ++ [.ofText text]) :
        dir = before ∧ name ++ .ofText ".rs" = Bytes.ofText text := by
      have same := List.append_inj' (beside.symm.trans ended) rfl
      exact ⟨same.1, Component.name.inj (List.cons.inj same.2).1⟩
    rcases split with flat | inner
    · rw [List.map_append, List.map_singleton, ← List.append_assoc] at flat
      obtain ⟨rfl, named⟩ := ends flat
      rw [Bytes.ofText_append] at named
      apply @spelled (front ++ [last, "mod.rs"])
      rw [nested, List.append_cancel_right named]
      simp [Component.ofText]
    · have inner : found.components =
          resolver.sourceDir.components ++ (front ++ [last]).map .ofText ++ [.ofText "mod.rs"] := by
        rw [inner]
        simp
      obtain ⟨rfl, named⟩ := ends inner
      have named : name = Bytes.ofText "mod" := List.append_cancel_right named
      apply @spelled (front ++ [last] ++ ["mod", "mod.rs"])
      rw [nested, named]
      simp [Component.ofText]

end

/-- The file of a module other than the root tells the names of the module. A file that tells the names
of a module is the file of that module, or it is the nested one and the flat file beside its
directory is there too, exactly if it is spelled with texts: names are shown as texts, and a name that is
none is not found again. -/
theorem modules_round_trip (files : FileSystem) (resolver : Resolver) (names : List String)
    (nonempty : names ≠ []) (plain : ∀ name ∈ names, PlainName (.ofText name))
    (notMod : names.getLast? ≠ some "mod") (file : Path)
    (apart : file.same resolver.rootFile = false) :
    (resolver.moduleFile? files names = some file → resolver.modulePath? file = some names) ∧
    (files.isFile file = true → resolver.modulePath? file = some names →
      ((∃ found, resolver.moduleFile? files names = some found ∧ files.isFile found = true ∧
        Meets found file) ↔ file.IsTextBelow resolver.sourceDir)) := by
  constructor
  · intro found
    exact ((keeps_iff nonempty).mpr found).modulePath? plain notMod apart
  · intro isFile read
    constructor
    · rintro ⟨found, kept, _, meets⟩
      exact ((keeps_iff nonempty).mpr kept).isTextBelow plain meets
    intro text
    obtain ⟨front, last, rfl, lies⟩ := exists_components plain nonempty apart read text
    have final := plain last (by simp)
    by_cases flat : files.isFile ((resolver.moduleDir front).join (.ofText (last ++ ".rs"))) = true
    · have keeps := Keeps.flat front last flat
      refine ⟨_, (keeps_iff nonempty).mp keeps, flat, ?_⟩
      rcases lies with same | nested
      · exact .inl ((Path.same_iff _ _).mpr same.symm)
      · refine .inr ⟨resolver.sourceDir.components ++ front.map .ofText, .ofText last, ?_, ?_⟩
        · rw [nested, components_nested plain]
          simp [Component.ofText]
        · rw [components_flat plain, ← Bytes.ofText_append]
          simp [Component.ofText]
    · -- without the flat file, the file itself is spelled once more as the nested one
      rcases lies with same | same
      · exact absurd (FileSystem.isFile_join final.source same.symm isFile) flat
      · have nested := FileSystem.isFile_join plain_modFile same.symm isFile
        have keeps := Keeps.nested front last (Bool.eq_false_iff.mpr flat) nested
        exact ⟨_, (keeps_iff nonempty).mp keeps, nested, .inl ((Path.same_iff _ _).mpr same.symm)⟩

def meadow : FileSystem where
  root := .directory [("farm", .directory [("lib.rs", .file (some "")), ("moss.rs", .file (some "")),
    ("moss", .directory [("mod.rs", .file (some ""))]),
    ("fern", .directory [("mod.rs", .file (some ""))])])]
  current := ["farm"]

theorem modules_round_trip_meadow :
    (ofRootFile "./lib.rs").modulePath? "./fern/mod.rs" = some ["fern"] ∧
    ∃ found, (ofRootFile "./lib.rs").moduleFile? meadow ["moss"] = some found ∧
      meadow.isFile found = true ∧ Meets found ".//moss/./mod.rs" := by
  have fern := modules_round_trip meadow (ofRootFile "./lib.rs") ["fern"] (by decide) (by decide)
    (by decide) "./fern/mod.rs" (by decide +kernel)
  have moss := modules_round_trip meadow (ofRootFile "./lib.rs") ["moss"] (by decide) (by decide)
    (by decide) ".//moss/./mod.rs" (by decide +kernel)
  exact ⟨fern.1 (by decide +kernel),
    (moss.2 (by decide +kernel) (by decide +kernel)).mpr (by decide +kernel)⟩

def heath : FileSystem where
  root := .directory [("src", .directory [("lib.rs", .file (some "")),
    (0xFF :: Bytes.ofText ".rs", .file (some ""))])]
  current := []

/-- The file is there and has the names of a module, but the module has no file. -/
theorem modules_round_trip_heath :
    heath.isFile ⟨Bytes.ofText "/src/" ++ 0xFF :: Bytes.ofText ".rs"⟩ = true ∧
    Path.same ⟨Bytes.ofText "/src/" ++ 0xFF :: Bytes.ofText ".rs"⟩ "/src/lib.rs" = false ∧
    (ofRootFile "/src/lib.rs").modulePath? ⟨Bytes.ofText "/src/" ++ 0xFF :: Bytes.ofText ".rs"⟩ =
      some ["�"] ∧
    PlainName (.ofText "�") ∧
    (ofRootFile "/src/lib.rs").moduleFile? heath ["�"] = none := by
  decide +kernel

end Resolver

end CrateAtlas
