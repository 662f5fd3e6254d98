import CrateAtlas.Proofs.DeepestFile

/-!
Global specifiers. Double colons at the start of a specifier are passed over, so a global specifier leads
where the same names lead without them: to another crate only if the importing module has no submodule
of that name.
-/

namespace CrateAtlas.Resolver

/-- A name that stands for another crate: one that needs no manifest entry, one that the manifest lists,
or any name if there is no manifest. -/
def NamesCrate (resolver : Resolver) (name : String) : Prop :=
  name ∈ builtinCrates ∨ ∀ crates, resolver.externCrates = some crates → name ∈ crates

section

variable {files : FileSystem} {resolver : Resolver} {importer : Path} {here names rest : List String}
  {name specifier : String}

theorem namesCrate_iff : resolver.NamesCrate name ↔
    (resolver.isExternCrate name || resolver.externCrates.isNone) = true := by
  rw [NamesCrate, isExternCrate]
  cases resolver.externCrates <;> simp

private theorem segments_global (text : String) : segments ("::" ++ text) = segments text := by
  have letters : ("::" ++ text).toList = ':' :: ':' :: text.toList := by
    rw [String.toList_append]
    rfl
  rw [segments, segments, letters, Text.splitColons]
  rfl

/-- Where no submodule has the first name, the name stands for another crate or for nothing. -/
theorem resolve_outside (located : resolver.modulePath? importer = some here)
    (written : segments specifier = name :: rest) (ordinary : name ∉ ["crate", "self", "super"])
    (absent : ∀ file, ¬ Keeps files resolver (here ++ [name]) file) :
    resolver.resolve files specifier importer =
      if resolver.isExternCrate name || resolver.externCrates.isNone then .external specifier
      else .unresolved := by
  have none := (not_keeps_iff (List.concat_ne_nil name here)).mp absent
  have meant := @target_ordinary files resolver here rest name ordinary
  rw [none, Option.isSome_none, if_neg Bool.false_ne_true] at meant
  simp only [resolve, written, located, meant]
  by_cases known : (resolver.isExternCrate name || resolver.externCrates.isNone) = true
  · rw [if_pos known, if_pos known]
  · rw [if_neg known, if_neg known]

end

/-- In a file of a crate, a global specifier leads to a file just if the module has a submodule of its
first name, and then it is the deepest one below this module. Else it leads to the other crate of
that name, and nowhere if there is none. -/
theorem resolve_global (files : FileSystem) (resolver : Resolver) (importer : Path)
    (here : List String) (located : resolver.modulePath? importer = some here)
    (text name : String) (rest : List String) (written : segments text = name :: rest)
    (ordinary : name ∉ ["crate", "self", "super"]) :
    (∀ file, (resolver.resolve files ("::" ++ text) importer = .internal file ∨
        resolver.resolve files ("::" ++ text) importer = .excluded file) ↔
      (∃ child, Keeps files resolver (here ++ [name]) child) ∧
        Deepest files resolver (here ++ name :: rest) file) ∧
    ((∀ child, ¬ Keeps files resolver (here ++ [name]) child) →
      (resolver.NamesCrate name →
        resolver.resolve files ("::" ++ text) importer = .external ("::" ++ text)) ∧
      (¬ resolver.NamesCrate name →
        resolver.resolve files ("::" ++ text) importer = .unresolved)) := by
  have global : segments ("::" ++ text) = name :: rest := (segments_global text).trans written
  refine ⟨fun file => ?_, fun absent => ?_⟩
  · have expanded (names : List String) :
        Expands files resolver here (name :: rest) names ↔ _ :=
      expands_iff.trans (target_ordinary_iff ordinary)
    rw [resolve_file_iff, global]
    constructor
    · rintro ⟨here', names, located', expands, deepest⟩
      obtain rfl := Option.some.inj (located.symm.trans located')
      obtain ⟨child, rfl⟩ := (expanded names).mp expands
      exact ⟨child, deepest⟩
    · rintro ⟨child, deepest⟩
      exact ⟨here, _, located, (expanded _).mpr ⟨child, rfl⟩, deepest⟩
  · have outside := resolve_outside located global ordinary absent
    refine ⟨fun known => ?_, fun unknown => ?_⟩
    · rw [outside, if_pos (namesCrate_iff.mp known)]
    · rw [outside, if_neg (mt namesCrate_iff.mpr unknown)]

def trellis : FileSystem where
  root := .directory [("src", .directory [("lib.rs", .file (some "")), ("vine.rs", .file (some "")),
    ("vine", .directory [("leaf.rs", .file (some ""))])])]
  current := []

/-- The submodule of a submodule does not stand in the way. -/
theorem resolve_global_trellis :
    ((ofRootFile "/src/lib.rs").withExternCrates ["leaf"]).resolve trellis "::leaf::Edge"
      "/src/lib.rs" = .external "::leaf::Edge" := by
  obtain ⟨_, outside⟩ := resolve_global trellis ((ofRootFile "/src/lib.rs").withExternCrates ["leaf"])
    "/src/lib.rs" [] (by decide +kernel) "leaf::Edge" "leaf" ["Edge"] (by decide +kernel) (by decide)
  refine (outside ?_).1 (namesCrate_iff.mpr (by decide +kernel))
  exact (not_keeps_iff (List.concat_ne_nil _ _)).mpr (by decide +kernel)

/-- In the module above it, the submodule is taken for the crate that is listed. -/
theorem shadowed_not_external :
    ((ofRootFile "/src/lib.rs").withExternCrates ["leaf"]).modulePath? "/src/vine.rs" =
      some ["vine"] ∧
    ((ofRootFile "/src/lib.rs").withExternCrates ["leaf"]).NamesCrate "leaf" ∧
    ((ofRootFile "/src/lib.rs").withExternCrates ["leaf"]).resolve trellis "::leaf::Edge"
      "/src/vine.rs" = .internal "/src/vine/leaf.rs" := by
  refine ⟨by decide +kernel, namesCrate_iff.mpr (by decide +kernel), by decide +kernel⟩

end CrateAtlas.Resolver
