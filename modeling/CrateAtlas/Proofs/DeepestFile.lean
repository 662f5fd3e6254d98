import CrateAtlas.Proofs.RelativeSpecifiers

/-!
Which file a specifier leads to. The names of a specifier are expanded to those of a module or of
something in one, and the file is that of the longest front of these names that has one, else the root
file. Patterns for files to leave out have no say in this: they only mark the file that was found.
-/

namespace CrateAtlas.Resolver

def moduleDir (resolver : Resolver) (names : List String) : Path :=
  names.foldl (fun dir (name : String) => dir.join name) resolver.sourceDir

/-- A module other than the root is kept in a file: in its flat one if there is one, else in the nested
one. -/
inductive Keeps (files : FileSystem) (resolver : Resolver) : List String → Path → Prop
  | flat (front : List String) (last : String)
      (present : files.isFile ((resolver.moduleDir front).join (.ofText (last ++ ".rs"))) = true) :
      Keeps files resolver (front ++ [last]) ((resolver.moduleDir front).join (.ofText (last ++ ".rs")))
  | nested (front : List String) (last : String)
      (absent : files.isFile ((resolver.moduleDir front).join (.ofText (last ++ ".rs"))) = false)
      (present : files.isFile (((resolver.moduleDir front).join last).join "mod.rs") = true) :
      Keeps files resolver (front ++ [last]) (((resolver.moduleDir front).join last).join "mod.rs")

/-- The file of the longest front of some names that has one; the root file if none has. -/
inductive Deepest (files : FileSystem) (resolver : Resolver) (names : List String) : Path → Prop
  | module (front : List String) (file : Path) (among : front <+: names)
      (keeps : Keeps files resolver front file)
      (longest : ∀ longer, longer <+: names → front.length < longer.length →
        ∀ other, ¬ Keeps files resolver longer other) :
      Deepest files resolver names file
  | root (none : ∀ front, front <+: names → ∀ other, ¬ Keeps files resolver front other) :
      Deepest files resolver names resolver.rootFile

/-- The names of a specifier, seen from a module, are those of a module or of something in one. -/
inductive Expands (files : FileSystem) (resolver : Resolver) (here : List String) :
    List String → List String → Prop
  | fromRoot (rest : List String) : Expands files resolver here ("crate" :: rest) rest
  | fromHere (rest : List String) : Expands files resolver here ("self" :: rest) (here ++ rest)
  | fromAbove (count : Nat) (rest : List String) (up : 1 ≤ count) (enough : count ≤ here.length)
      (all : rest.head? ≠ some "super") :
      Expands files resolver here (List.replicate count "super" ++ rest)
        (here.take (here.length - count) ++ rest)
  | child (first : String) (rest : List String) (ordinary : first ∉ ["crate", "self", "super"])
      (file : Path) (keeps : Keeps files resolver (here ++ [first]) file) :
      Expands files resolver here (first :: rest) (here ++ first :: rest)

section

variable {files : FileSystem} {resolver : Resolver} {here front names rest : List String}
  {first last specifier : String} {file importer : Path} {exclude : List Glob}

private theorem moduleFile?_concat (front : List String) (last : String) :
    resolver.moduleFile? files (front ++ [last]) =
      if files.isFile ((resolver.moduleDir front).join (.ofText (last ++ ".rs"))) then
        some ((resolver.moduleDir front).join (.ofText (last ++ ".rs")))
      else if files.isFile (((resolver.moduleDir front).join last).join "mod.rs") then
        some (((resolver.moduleDir front).join last).join "mod.rs")
      else none := by
  simp only [moduleFile?, List.getLast?_concat, List.dropLast_concat]
  rfl

theorem Keeps.ne_nil (keeps : Keeps files resolver names file) : names ≠ [] := by
  cases keeps <;> exact List.concat_ne_nil _ _

private theorem Keeps.isFile (keeps : Keeps files resolver names file) : files.isFile file = true := by
  cases keeps with
  | flat _ _ present => exact present
  | nested _ _ _ present => exact present

theorem keeps_iff (nonempty : names ≠ []) :
    Keeps files resolver names file ↔ resolver.moduleFile? files names = some file := by
  constructor
  · intro keeps
    cases keeps with
    | flat front last present => rw [moduleFile?_concat, if_pos present]
    | nested front last absent present =>
      rw [moduleFile?_concat, if_neg (by simp [absent]), if_pos present]
  · intro found
    obtain ⟨front, last, rfl⟩ := (List.eq_nil_or_concat' names).resolve_left nonempty
    rw [moduleFile?_concat] at found
    split at found
    · next present =>
      cases found
      exact .flat front last present
    · next absent =>
      split at found
      · next present =>
        cases found
        exact .nested front last (Bool.eq_false_iff.mpr absent) present
      · cases found

theorem not_keeps_iff (nonempty : names ≠ []) :
    (∀ other, ¬ Keeps files resolver names other) ↔ resolver.moduleFile? files names = none := by
  rw [Option.eq_none_iff_forall_ne_some]
  exact forall_congr' fun other => not_congr (keeps_iff nonempty)

private theorem Keeps.unique {other : Path} (keeps : Keeps files resolver names file)
    (keeps' : Keeps files resolver names other) : file = other := by
  have found := (keeps_iff keeps.ne_nil).mp keeps
  have found' := (keeps_iff keeps.ne_nil).mp keeps'
  exact Option.some.inj (found.symm.trans found')

theorem Deepest.isFile (deepest : Deepest files resolver names file) :
    file = resolver.rootFile ∨ files.isFile file = true := by
  cases deepest with
  | module _ _ _ keeps => exact .inr keeps.isFile
  | root => exact .inl rfl

private theorem Deepest.unique {other : Path} (deepest : Deepest files resolver names file)
    (deepest' : Deepest files resolver names other) : file = other := by
  cases deepest with
  | module front file among keeps longest =>
    cases deepest' with
    | module front' other among' keeps' longest' =>
      have length : front.length = front'.length := by
        apply Nat.le_antisymm
        · exact Nat.not_lt.mp fun shorter => longest' front among shorter file keeps
        · exact Nat.not_lt.mp fun shorter => longest front' among' shorter other keeps'
      obtain rfl := (List.prefix_of_prefix_length_le among among' (Nat.le_of_eq length)).eq_of_length length
      exact keeps.unique keeps'
    | root none => exact absurd keeps (none front among file)
  | root none =>
    cases deepest' with
    | module front other among keeps _ => exact absurd keeps (none front among other)
    | root _ => rfl

/-- One more name changes nothing if there is no file for all names together. -/
theorem Deepest.concat (deepest : Deepest files resolver front file)
    (absent : ∀ other, ¬ Keeps files resolver (front ++ [last]) other) :
    Deepest files resolver (front ++ [last]) file := by
  cases deepest with
  | module shorter file among keeps longest =>
    refine .module shorter file (among.trans (List.prefix_append front [last])) keeps ?_
    intro longer within length other
    rcases List.prefix_concat_iff.mp within with rfl | within
    · exact absent other
    · exact longest longer within length other
  | root none =>
    apply Deepest.root
    intro longer within other
    rcases List.prefix_concat_iff.mp within with rfl | within
    · exact absent other
    · exact none longer within other

/-- The search over the first names finds the deepest file that they have. -/
theorem deepest_deepestFile (count : Nat) (within : count ≤ names.length) :
    Deepest files resolver (names.take count) (resolver.deepestFile files names count) := by
  -- the search goes down from all names, but what it finds is told by going up, one more name each time
  induction count with
  | zero =>
    apply Deepest.root
    intro front among other keeps
    exact keeps.ne_nil (List.prefix_nil.mp among)
  | succ count ih =>
    have shorter : count < names.length := within
    have nonempty : names.take (count + 1) ≠ [] := by
      rw [← List.length_pos_iff, List.length_take]
      omega
    rw [deepestFile]
    cases found : resolver.moduleFile? files (names.take (count + 1)) with
    | some file =>
      refine .module _ file (List.prefix_refl _) ((keeps_iff nonempty).mpr found) ?_
      intro longer among length
      exact absurd among.length_le (Nat.not_le.mpr length)
    | none =>
      have absent := (not_keeps_iff nonempty).mpr found
      rw [List.take_succ_eq_append_getElem shorter] at absent ⊢
      exact (ih (Nat.le_of_lt shorter)).concat absent

private theorem deepest_iff : Deepest files resolver names file ↔
    resolver.deepestFile files names names.length = file := by
  have deepest : Deepest files resolver names (resolver.deepestFile files names names.length) := by
    have whole := @deepest_deepestFile files resolver names names.length (Nat.le_refl _)
    rwa [List.take_length] at whole
  constructor
  · exact deepest.unique
  · rintro rfl
    exact deepest

theorem target_ordinary (ordinary : first ∉ ["crate", "self", "super"]) :
    resolver.target files here first rest =
      if (resolver.moduleFile? files (here ++ [first])).isSome then .module (here ++ first :: rest)
      else if resolver.isExternCrate first || resolver.externCrates.isNone then .external
      else .unknown := by
  simp only [List.mem_cons, List.not_mem_nil, or_false, not_or] at ordinary
  rw [target, if_neg ordinary.1, if_neg ordinary.2.1, if_neg ordinary.2.2]

theorem target_ordinary_iff (ordinary : first ∉ ["crate", "self", "super"]) :
    resolver.target files here first rest = .module names ↔
      (∃ file, Keeps files resolver (here ++ [first]) file) ∧ names = here ++ first :: rest := by
  have nonempty : here ++ [first] ≠ [] := List.concat_ne_nil _ _
  constructor
  · intro meant
    rw [target_ordinary ordinary] at meant
    split at meant
    · next present =>
      cases meant
      obtain ⟨file, found⟩ := Option.isSome_iff_exists.mp present
      exact ⟨⟨file, (keeps_iff nonempty).mpr found⟩, rfl⟩
    · split at meant <;> cases meant
  · rintro ⟨⟨file, keeps⟩, rfl⟩
    apply target_child ordinary
    rw [(keeps_iff nonempty).mp keeps]
    rfl

private theorem exists_supers (names : List String) : ∃ count rest,
    names = List.replicate count "super" ++ rest ∧ rest.head? ≠ some "super" := by
  induction names with
  | nil => exact ⟨0, [], rfl, by simp⟩
  | cons name names ih =>
    by_cases up : name = "super"
    · obtain ⟨count, rest, rfl, all⟩ := ih
      exact ⟨count + 1, rest, by rw [up, List.replicate_succ, List.cons_append], all⟩
    · exact ⟨0, name :: names, rfl, by simpa using up⟩

/-- What the names of a specifier are expanded to is what they mean. -/
theorem expands_iff : Expands files resolver here (first :: rest) names ↔
    resolver.target files here first rest = .module names := by
  constructor
  · intro expands
    generalize written : first :: rest = segments at expands
    cases expands with
    | fromRoot =>
      cases written
      rw [target, if_pos rfl]
    | fromHere =>
      cases written
      exact target_self
    | fromAbove count others up enough all =>
      obtain ⟨count, rfl⟩ := Nat.exists_eq_add_of_le' up
      rw [List.replicate_succ, List.cons_append] at written
      cases written
      exact target_supers count all enough
    | child _ _ ordinary file keeps =>
      cases written
      exact (target_ordinary_iff ordinary).mpr ⟨⟨file, keeps⟩, rfl⟩
  · intro meant
    by_cases ordinary : first ∈ ["crate", "self", "super"]
    · simp only [List.mem_cons, List.not_mem_nil, or_false] at ordinary
      rcases ordinary with rfl | rfl | rfl
      · rw [target, if_pos rfl] at meant
        cases meant
        exact .fromRoot _
      · rw [target_self] at meant
        cases meant
        exact .fromHere rest
      · obtain ⟨count, others, rfl, all⟩ := exists_supers rest
        by_cases enough : count + 1 ≤ here.length
        · rw [target_supers count all enough] at meant
          cases meant
          exact .fromAbove (count + 1) others (Nat.le_add_left 1 count) enough all
        · rw [target_supers_beyond count (Nat.not_le.mp enough)] at meant
          cases meant
    · obtain ⟨⟨file, keeps⟩, rfl⟩ := (target_ordinary_iff ordinary).mp meant
      exact .child first rest ordinary file keeps

/-- A specifier leads to a file just if its names are expanded, and then to their deepest file. -/
theorem resolve_file_iff :
    (resolver.resolve files specifier importer = .internal file ∨
      resolver.resolve files specifier importer = .excluded file) ↔
    ∃ here names, resolver.modulePath? importer = some here ∧
      Expands files resolver here (segments specifier) names ∧ Deepest files resolver names file := by
  constructor
  · intro found
    unfold resolve at found
    split at found
    · next first rest here written located =>
      split at found
      · next names meant =>
        refine ⟨here, names, located, ?_, ?_⟩
        · rw [written]
          exact expands_iff.mpr meant
        · rw [deepest_iff]
          dsimp only at found
          split at found <;> simpa using found
      · simp at found
      · simp at found
    · simp at found
  · rintro ⟨here, names, located, expands, deepest⟩
    cases written : segments specifier with
    | nil =>
      -- every expansion starts from some name
      rw [written] at expands
      generalize none : [] = empty at expands
      cases expands with
      | fromAbove count _ up =>
        obtain ⟨count, rfl⟩ := Nat.exists_eq_add_of_le' up
        cases none
      | _ => cases none
    | cons first rest =>
      rw [written] at expands
      have meant := expands_iff.mp expands
      have same := deepest_iff.mp deepest
      simp only [resolve, written, located, meant, same]
      split
      · exact .inr rfl
      · exact .inl rfl

private theorem deepestFile_withExclude (names : List String) (count : Nat) :
    (resolver.withExclude exclude).deepestFile files names count =
      resolver.deepestFile files names count := by
  induction count with
  | zero => rfl
  | succ count ih =>
    rw [deepestFile, deepestFile, ih]
    rfl

/-- The text of a path that patterns are held against: what is left of it behind the directory of the
project, or all of it. -/
def patternText (resolver : Resolver) (path : Path) : String :=
  Text.swapChar '\\' '/' ((path.below? resolver.projectDir).getD path).display

private theorem isExcluded_withExclude_iff :
    (resolver.withExclude exclude).isExcluded file = true ↔
      ∃ glob ∈ exclude, glob.fits (resolver.patternText file) = true :=
  List.any_eq_true

private theorem isExcluded_of_resolve
    (excluded : resolver.resolve files specifier importer = .excluded file) :
    resolver.isExcluded file = true := by
  unfold resolve at excluded
  split at excluded
  · split at excluded
    · dsimp only at excluded
      split at excluded
      · next fits =>
        cases excluded
        exact fits
      · cases excluded
    · cases excluded
    · cases excluded
  · cases excluded

/-- Patterns change what a specifier leads to only where one of them fits the file. -/
theorem resolve_relabels (exclude : List Glob) (specifier : String) (importer : Path) :
    (resolver.withExclude exclude).resolve files specifier importer =
      match (resolver.withExclude []).resolve files specifier importer with
      | .internal file =>
        if (resolver.withExclude exclude).isExcluded file then .excluded file else .internal file
      | answer => answer := by
  have module (file : Path) : (resolver.withExclude exclude).modulePath? file =
      (resolver.withExclude []).modulePath? file := rfl
  have seen (here : List String) (first : String) (rest : List String) :
      (resolver.withExclude exclude).target files here first rest =
        (resolver.withExclude []).target files here first rest := rfl
  have unmarked (file : Path) : (resolver.withExclude []).isExcluded file = false := rfl
  rw [resolve, resolve, module]
  cases segments specifier with
  | nil => rfl
  | cons first rest =>
    cases (resolver.withExclude []).modulePath? importer with
    | none => rfl
    | some here =>
      dsimp only
      rw [seen]
      cases (resolver.withExclude []).target files here first rest with
      | module names =>
        simp only [deepestFile_withExclude, unmarked, Bool.false_eq_true, if_false]
      | external => rfl
      | unknown => rfl

end

/-- A specifier leads to a file just if its names are expanded, and then to the deepest file that they
have. With patterns for files to leave out it leads to a file that is left out just if it led to this
file without them and one of them fits it; else the patterns change nothing. -/
theorem resolve_deepest (files : FileSystem) (resolver : Resolver) (specifier : String)
    (importer : Path) :
    (∀ file, (resolver.resolve files specifier importer = .internal file ∨
        resolver.resolve files specifier importer = .excluded file) ↔
      ∃ here names, resolver.modulePath? importer = some here ∧
        Expands files resolver here (segments specifier) names ∧
        Deepest files resolver names file) ∧
    ∀ exclude,
      (∀ file, (resolver.withExclude exclude).resolve files specifier importer = .excluded file ↔
        (resolver.withExclude []).resolve files specifier importer = .internal file ∧
          ∃ glob ∈ exclude, glob.fits (resolver.patternText file) = true) ∧
      ((∀ file, (resolver.withExclude exclude).resolve files specifier importer ≠ .excluded file) →
        (resolver.withExclude exclude).resolve files specifier importer =
          (resolver.withExclude []).resolve files specifier importer) := by
  refine ⟨fun file => resolve_file_iff, fun exclude => ?_⟩
  have unlabelled (file : Path) :
      (resolver.withExclude []).resolve files specifier importer ≠ .excluded file := by
    intro excluded
    exact Bool.false_ne_true (isExcluded_of_resolve excluded)
  rw [resolve_relabels]
  cases answer : (resolver.withExclude []).resolve files specifier importer with
  | internal found =>
    dsimp only
    split
    · next fits =>
      have fits := isExcluded_withExclude_iff.mp fits
      refine ⟨fun file => ?_, fun kept => absurd rfl (kept found)⟩
      constructor
      · intro same
        cases same
        exact ⟨rfl, fits⟩
      · rintro ⟨same, _⟩
        cases same
        rfl
    · next kept =>
      refine ⟨fun file => ?_, fun _ => rfl⟩
      constructor
      · intro same
        cases same
      · rintro ⟨same, fits⟩
        cases same
        exact absurd (isExcluded_withExclude_iff.mpr fits) kept
  | excluded found => exact absurd answer (unlabelled found)
  | external => simp
  | unresolved => simp

def quarry : FileSystem where
  root := .directory [("src", .directory [("lib.rs", .file (some "")),
    ("pit", .directory [("mod.rs", .file (some "")),
      ("seam", .directory [("ore.rs", .file (some ""))])])])]
  current := []

theorem resolve_deepest_quarry :
    (∃ here names, (ofRootFile "/src/lib.rs").modulePath? "/src/pit/mod.rs" = some here ∧
      Expands quarry (ofRootFile "/src/lib.rs") here (segments "self::seam::Rock") names ∧
      Deepest quarry (ofRootFile "/src/lib.rs") names "/src/pit/mod.rs") ∧
    ((ofRootFile "/src/lib.rs").withExclude [⟨"*pit*", [.anySequence, .char 'p', .char 'i', .char 't',
      .anySequence]⟩]).resolve quarry "self::seam::Rock" "/src/pit/mod.rs" =
        .excluded "/src/pit/mod.rs" := by
  obtain ⟨leads, marks⟩ :=
    resolve_deepest quarry (ofRootFile "/src/lib.rs") "self::seam::Rock" "/src/pit/mod.rs"
  have plain : (ofRootFile "/src/lib.rs").resolve quarry "self::seam::Rock" "/src/pit/mod.rs" =
      .internal "/src/pit/mod.rs" := by
    decide +kernel
  refine ⟨(leads _).mp (.inl plain), ((marks _).1 _).mpr ⟨plain, _, List.mem_singleton_self _, ?_⟩⟩
  decide +kernel

end CrateAtlas.Resolver
