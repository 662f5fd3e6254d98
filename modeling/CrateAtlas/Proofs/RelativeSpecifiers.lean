import CrateAtlas.Proofs.Specifiers

/-!
Relative specifiers. What a specifier means in a file is told by the module that the file holds, and
any specifier that means a module leads to where the absolute specifier of that module leads.
-/

namespace CrateAtlas.Resolver

/-- A name that can stand between the double colons of a specifier. -/
def IsSegment (name : String) : Prop :=
  name ≠ "" ∧ ':' ∉ name.toList

instance (name : String) : Decidable (IsSegment name) :=
  inferInstanceAs (Decidable (_ ∧ _))

def specifier (names : List String) : String :=
  "::".intercalate names

theorem segments_specifier {names : List String} (valid : ∀ name ∈ names, IsSegment name) :
    segments (specifier names) = names := by
  have filled : names.filter (· != "") = names := by
    simpa using fun name member => (valid name member).1
  have letters : "::".toList = [':', ':'] := rfl
  cases names with
  | nil => rfl
  | cons first rest =>
    have whole : ∀ part ∈ (first :: rest).map String.toList, ':' ∉ part := by
      intro part member
      obtain ⟨name, listed, rfl⟩ := List.mem_map.mp member
      exact (valid name listed).2
    have split : (Text.splitColons (specifier (first :: rest)).toList).map String.ofList =
        first :: rest := by
      rw [specifier, String.toList_intercalate, letters,
        Text.splitColons_intercalate (by simp) whole, List.map_map]
      simp [Function.comp_def]
    rw [segments, split, filled]

variable {files : FileSystem} {resolver : Resolver} {importer : Path} {here rest names : List String}
  {first : String}

/-- A specifier that means a module leads to where the absolute specifier of that module leads. -/
theorem resolve_absolute (located : resolver.modulePath? importer = some here)
    (valid : ∀ name ∈ first :: rest, IsSegment name) (validNames : ∀ name ∈ names, IsSegment name)
    (meant : resolver.target files here first rest = .module names) :
    resolver.resolve files (specifier (first :: rest)) importer =
      resolver.resolve files (specifier ("crate" :: names)) importer := by
  have absolute : resolver.target files here "crate" names = .module names := by
    rw [target, if_pos rfl]
  have validCrate : ∀ name ∈ "crate" :: names, IsSegment name :=
    List.forall_mem_cons.mpr ⟨by decide, validNames⟩
  simp only [resolve, segments_specifier valid, segments_specifier validCrate, located, meant, absolute]

theorem target_self : resolver.target files here "self" rest = .module (here ++ rest) := by
  simp [target]

private theorem takeWhile_supers (count : Nat) (plain : rest.head? ≠ some "super") :
    (List.replicate count "super" ++ rest).takeWhile (· == "super") = List.replicate count "super" := by
  rw [List.takeWhile_append_of_pos (by simp [List.mem_replicate])]
  cases rest with
  | nil => simp
  | cons next rest =>
    have other : (next == "super") = false := by simpa using plain
    simp [other]

theorem target_super : resolver.target files here "super" rest =
    if here.length < (rest.takeWhile (· == "super")).length + 1 then .unknown
    else .module (here.take (here.length - ((rest.takeWhile (· == "super")).length + 1)) ++
      rest.drop (rest.takeWhile (· == "super")).length) := by
  rw [target, if_neg (by decide), if_neg (by decide), if_pos rfl, Nat.add_comm]
  rfl

/-- One `super` and some more of them leave out as many names at the end of the module. -/
theorem target_supers (count : Nat) (plain : rest.head? ≠ some "super")
    (enough : count + 1 ≤ here.length) :
    resolver.target files here "super" (List.replicate count "super" ++ rest) =
      .module (here.take (here.length - (count + 1)) ++ rest) := by
  rw [target_super, takeWhile_supers count plain, List.length_replicate, if_neg (by omega),
    List.drop_left' (by simp)]

theorem target_supers_beyond (count : Nat) (beyond : here.length < count + 1) :
    resolver.target files here "super" (List.replicate count "super" ++ rest) = .unknown := by
  have ups : count ≤ ((List.replicate count "super" ++ rest).takeWhile (· == "super")).length := by
    rw [List.takeWhile_append_of_pos (by simp [List.mem_replicate]), List.length_append,
      List.length_replicate]
    omega
  rw [target_super, if_pos (by omega)]

theorem target_child {child : String} (ordinary : child ∉ ["crate", "self", "super"])
    (present : (resolver.moduleFile? files (here ++ [child])).isSome = true) :
    resolver.target files here child rest = .module (here ++ child :: rest) := by
  simp only [List.mem_cons, List.not_mem_nil, or_false, not_or] at ordinary
  rw [target, if_neg ordinary.1, if_neg ordinary.2.1, if_neg ordinary.2.2, if_pos present]

/-- In a file of a module, `self` stands for the module, each `super` leaves out one more of its names,
and the name of a submodule that has a file is looked for below it. Where too many `super` stand, the
specifier means nothing. -/
theorem resolve_relative (files : FileSystem) (resolver : Resolver) (importer : Path)
    (here rest : List String) (located : resolver.modulePath? importer = some here)
    (validHere : ∀ name ∈ here, IsSegment name) (valid : ∀ name ∈ rest, IsSegment name) :
    resolver.resolve files (specifier ("self" :: rest)) importer =
      resolver.resolve files (specifier ("crate" :: (here ++ rest))) importer ∧
    (∀ count, 1 ≤ count → count ≤ here.length → rest.head? ≠ some "super" →
      resolver.resolve files (specifier (List.replicate count "super" ++ rest)) importer =
        resolver.resolve files
          (specifier ("crate" :: (here.take (here.length - count) ++ rest))) importer) ∧
    (∀ count, here.length < count →
      resolver.resolve files (specifier (List.replicate count "super" ++ rest)) importer =
        .unresolved) ∧
    ∀ child, IsSegment child → child ∉ ["crate", "self", "super"] →
      (resolver.moduleFile? files (here ++ [child])).isSome = true →
      resolver.resolve files (specifier (child :: rest)) importer =
        resolver.resolve files (specifier ("crate" :: (here ++ child :: rest))) importer := by
  have validSupers (count : Nat) : ∀ name ∈ List.replicate count "super" ++ rest, IsSegment name := by
    intro name member
    rcases List.mem_append.mp member with up | later
    · rw [List.eq_of_mem_replicate up]
      decide
    · exact valid name later
  have both {left right : List String} (validLeft : ∀ name ∈ left, IsSegment name)
      (validRight : ∀ name ∈ right, IsSegment name) : ∀ name ∈ left ++ right, IsSegment name :=
    fun name member => (List.mem_append.mp member).elim (validLeft name) (validRight name)
  refine ⟨?_, ?_, ?_, ?_⟩
  · apply resolve_absolute located _ (both validHere valid) target_self
    exact List.forall_mem_cons.mpr ⟨by decide, valid⟩
  · intro count some enough plain
    obtain ⟨count, rfl⟩ := Nat.exists_eq_add_of_le' some
    apply resolve_absolute located (validSupers (count + 1)) _ (target_supers count plain enough)
    exact both (fun name member => validHere name (List.mem_of_mem_take member)) valid
  · intro count beyond
    obtain ⟨count, rfl⟩ := Nat.exists_eq_add_of_le' (Nat.one_le_of_lt beyond)
    have names := segments_specifier (validSupers (count + 1))
    rw [List.replicate_succ, List.cons_append] at names
    simp only [resolve, names, located, List.replicate_succ, List.cons_append,
      target_supers_beyond count beyond]
  · intro child validChild ordinary present
    have validRest := List.forall_mem_cons.mpr ⟨validChild, valid⟩
    exact resolve_absolute located validRest (both validHere validRest) (target_child ordinary present)

def terrace : FileSystem where
  root := .directory [("src", .directory [("lib.rs", .file (some "")),
    ("hill", .directory [("mod.rs", .file (some "")), ("vine.rs", .file (some "")),
      ("vine", .directory [("leaf.rs", .file (some ""))])])])]
  current := []

theorem resolve_relative_terrace :
    (ofRootFile "/src/lib.rs").resolve terrace "self::leaf::Edge" "/src/hill/vine.rs" =
      .internal "/src/hill/vine/leaf.rs" ∧
    (ofRootFile "/src/lib.rs").resolve terrace "super::leaf::Edge" "/src/hill/vine.rs" =
      .internal "/src/hill/mod.rs" ∧
    (ofRootFile "/src/lib.rs").resolve terrace "super::super::super::leaf::Edge"
      "/src/hill/vine.rs" = .unresolved ∧
    (ofRootFile "/src/lib.rs").resolve terrace "leaf::leaf::Edge" "/src/hill/vine.rs" =
      .internal "/src/hill/vine/leaf.rs" := by
  obtain ⟨inside, above, beyond, below⟩ := resolve_relative terrace (ofRootFile "/src/lib.rs")
    "/src/hill/vine.rs" ["hill", "vine"] ["leaf", "Edge"] (by decide +kernel) (by decide) (by decide)
  refine ⟨inside.trans ?_, (above 1 (by decide) (by decide) (by decide)).trans ?_,
    beyond 3 (by decide), (below "leaf" (by decide) (by decide) (by decide +kernel)).trans ?_⟩
  all_goals decide +kernel

end CrateAtlas.Resolver
