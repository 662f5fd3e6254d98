import CrateAtlas.Proofs.Paths

/-!
What absolute paths of names denote. The path of a way denotes what the way leads to, and is its own
canonical path; every canonical path is the path of some way.
-/

namespace CrateAtlas

open CrateAtlas.Path

theorem FileTree.descend?_append (front back : List Bytes) (tree : FileTree) :
    descend? (front ++ back) tree = (descend? front tree).bind (descend? back) := by
  induction front generalizing tree with
  | nil => rfl
  | cons name front ih =>
    simp only [List.cons_append, descend?]
    cases tree.child? name with
    | none => rfl
    | some child => exact ih child

theorem bind_ok {ε α β : Type} {first : Except ε α} {next : α → Except ε β} {result : β}
    (ok : (first >>= next) = .ok result) : ∃ value, first = .ok value ∧ next value = .ok result := by
  cases first with
  | error error => cases ok
  | ok value => exact ⟨value, rfl, ok⟩

theorem bind_error {ε α β : Type} {first : Except ε α} {next : α → Except ε β} {error : ε}
    (failed : (first >>= next) = .error error) :
    first = .error error ∨ ∃ value, first = .ok value ∧ next value = .error error := by
  cases first with
  | error other =>
    cases failed
    exact .inl rfl
  | ok value => exact .inr ⟨value, rfl, failed⟩

theorem ok_of_toOption {ε α : Type} {result : Except ε α} {value : α}
    (found : result.toOption = some value) : result = .ok value := by
  cases result with
  | error error => cases found
  | ok other => exact congrArg _ (Option.some.inj found)

theorem Path.splitParts_whole_mem {bytes part : Bytes} (member : part ∈ splitParts bytes) :
    slash ∉ part := by
  induction bytes generalizing part with
  | nil =>
    rw [List.mem_singleton.mp member]
    exact List.not_mem_nil
  | cons byte rest ih =>
    by_cases separator : byte = slash
    · subst separator
      rw [splitParts_slash] at member
      rcases List.mem_cons.mp member with rfl | later
      · exact List.not_mem_nil
      · exact ih later
    · obtain ⟨first, parts, split⟩ := List.exists_cons_of_ne_nil (splitParts_ne_nil rest)
      rw [splitParts_byte separator rest first parts split] at member
      rw [split] at ih
      rcases List.mem_cons.mp member with rfl | later
      · rw [List.mem_cons, not_or]
        exact ⟨Ne.symm separator, ih List.mem_cons_self⟩
      · exact ih (List.mem_cons_of_mem first later)

namespace FileSystem

variable {files : FileSystem} {way start : List Bytes} {name : Bytes}

private theorem step_error {way : List Bytes} {part : Bytes} {error : FileError}
    (failed : files.step way part = .error error) : error = .notFound ∨ error = .notDirectory := by
  unfold step at failed
  repeat' split at failed
  all_goals cases failed
  · exact .inl rfl
  · exact .inr rfl
  · exact .inl rfl

private theorem steps_error {parts way : List Bytes} {error : FileError}
    (failed : parts.foldlM files.step way = .error error) :
    error = .notFound ∨ error = .notDirectory := by
  induction parts generalizing way with
  | nil => cases failed
  | cons part rest ih =>
    rw [List.foldlM_cons] at failed
    rcases bind_error failed with here | ⟨next, _, later⟩
    · exact step_error here
    · exact ih later

theorem locate_error {path : Path} {error : FileError} (failed : files.locate path = .error error) :
    error = .notFound ∨ error = .notDirectory := by
  unfold locate at failed
  generalize (if path.isAbsolute then [] else files.current) = start at failed
  split at failed
  · cases failed
    exact .inl rfl
  · rcases bind_error failed with followed | ⟨way, _, found⟩
    · exact steps_error followed
    · split at found
      · cases found
      · cases found
        exact .inl rfl

/-- A path denotes what its parts lead to. -/
theorem locate_ok_iff {path : Path} {place : Place} : files.locate path = .ok place ↔
    path.bytes ≠ [] ∧ (parts path).foldlM files.step (if path.isAbsolute then [] else files.current) =
      .ok place.way ∧ files.root.descend? place.way = some place.tree := by
  unfold locate
  generalize (if path.isAbsolute then [] else files.current) = start
  constructor
  · intro located
    split at located
    · cases located
    · next filled =>
      obtain ⟨way, followed, found⟩ := bind_ok located
      split at found
      · next tree there =>
        cases found
        exact ⟨by simpa using filled, followed, there⟩
      · cases found
  · rintro ⟨filled, followed, found⟩
    have filled : path.bytes.isEmpty = false := by simpa using filled
    simp [filled, followed, found, bind, Except.bind, pure, Except.pure]

/-- One more name leads on just if there is something of that name. -/
theorem step_plain_iff (plain : PlainName name) (next : List Bytes) :
    files.step way name = .ok next ↔
      next = way ++ [name] ∧ (files.root.descend? (way ++ [name])).isSome = true := by
  rw [FileTree.descend?_append, step]
  cases files.root.descend? way with
  | none => simp
  | some tree =>
    cases tree with
    | file content => simp [FileTree.descend?, FileTree.child?]
    | directory children =>
      cases found : children.lookup name <;>
        simp [FileTree.descend?, FileTree.child?, plain.notCurrent, plain.notParent, found, eq_comm]

/-- Following plain names from some place leads to the end of the way, if there is one. -/
theorem steps_plain_iff (plain : ∀ name ∈ way, PlainName name) (nonempty : way ≠ []) (next : List Bytes) :
    way.foldlM files.step start = .ok next ↔
      next = start ++ way ∧ (files.root.descend? (start ++ way)).isSome = true := by
  induction way generalizing start with
  | nil => exact absurd rfl nonempty
  | cons name rest ih =>
    rw [List.forall_mem_cons] at plain
    rw [List.foldlM_cons]
    have joined : start ++ name :: rest = start ++ [name] ++ rest := by simp
    constructor
    · intro followed
      obtain ⟨middle, stepped, followed⟩ := bind_ok followed
      obtain ⟨rfl, present⟩ := (step_plain_iff plain.1 middle).mp stepped
      cases rest with
      | nil =>
        cases followed
        exact ⟨rfl, present⟩
      | cons other rest =>
        rw [joined]
        exact (ih plain.2 (by simp)).mp followed
    · rintro ⟨rfl, present⟩
      rw [joined] at present
      have first : (files.root.descend? (start ++ [name])).isSome = true := by
        rw [FileTree.descend?_append] at present
        exact Option.isSome_of_isSome_bind present
      rw [(step_plain_iff plain.1 _).mpr ⟨rfl, first⟩]
      cases rest with
      | nil => rfl
      | cons other rest => exact (ih plain.2 (by simp)).mpr ⟨joined, present⟩

private theorem parts_absolute (plain : ∀ name ∈ way, PlainName name) (nonempty : way ≠ []) :
    parts (absolute way) = way := by
  have whole : ∀ part ∈ way, slash ∉ part := fun part member => (plain part member).whole
  have filled (name : Bytes) (member : name ∈ way) : name ≠ [] := (plain name member).filled
  have split : splitParts (absolute way).bytes = [] :: way := by
    rw [absolute, splitParts_slash, splitParts_intercalate nonempty whole]
  have kept : ([] :: way).filter (· != []) = way := by
    simpa using filled
  simp only [parts, split]
  split
  · next empty =>
    obtain ⟨front, last, rfl⟩ := (List.eq_nil_or_concat' way).resolve_left nonempty
    rw [← List.cons_append, List.getLast?_concat] at empty
    exact absurd (Option.some.inj empty) (filled last (by simp))
  · exact kept

/-- The path of a way denotes what the way leads to. -/
theorem locate_absolute (plain : ∀ name ∈ way, PlainName name) (nonempty : way ≠ [])
    (place : Place) : files.locate (absolute way) = .ok place ↔
      place.way = way ∧ files.root.descend? way = some place.tree := by
  have filled : (absolute way).bytes ≠ [] := by simp [absolute]
  have follow := @steps_plain_iff files way [] plain nonempty place.way
  rw [locate_ok_iff, absolute_isAbsolute, parts_absolute plain nonempty, if_pos rfl, follow,
    List.nil_append]
  constructor
  · rintro ⟨_, ⟨same, _⟩, found⟩
    exact ⟨same, same ▸ found⟩
  · rintro ⟨same, found⟩
    exact ⟨filled, ⟨same, by simp [found]⟩, same ▸ found⟩

theorem isFile_absolute (plain : ∀ name ∈ way, PlainName name) (nonempty : way ≠ []) :
    files.isFile (absolute way) = true ↔
      ∃ content, files.root.descend? way = some (.file content) := by
  have located := @locate_absolute files way plain nonempty
  unfold isFile
  cases answer : files.locate (absolute way) with
  | error error =>
    simp only [Bool.false_eq_true, false_iff]
    rintro ⟨content, found⟩
    cases answer.symm.trans ((located ⟨way, .file content⟩).mpr ⟨rfl, found⟩)
  | ok place =>
    obtain ⟨reached, tree⟩ := place
    rw [((located _).mp answer).2]
    cases tree <;> simp [FileTree.isFile]

theorem canonical?_absolute (plain : ∀ name ∈ way, PlainName name) (nonempty : way ≠ [])
    {tree : FileTree} (found : files.root.descend? way = some tree) :
    files.canonical? (absolute way) = some (absolute way) := by
  rw [canonical?, (locate_absolute plain nonempty ⟨way, tree⟩).mpr ⟨rfl, found⟩]

/-- Parts of a path add plain names to a way, or take some away. -/
theorem step_keeps_plain {part : Bytes} {next : List Bytes} (whole : slash ∉ part)
    (filled : part ≠ []) (plain : ∀ name ∈ way, PlainName name)
    (stepped : files.step way part = .ok next) : ∀ name ∈ next, PlainName name := by
  unfold step at stepped
  split at stepped
  · cases stepped
  · cases stepped
  · split at stepped
    · cases stepped
      exact plain
    · split at stepped
      · cases stepped
        exact fun name member => plain name ((List.dropLast_sublist way).mem member)
      · split at stepped
        · next current parent _ =>
          cases stepped
          intro name member
          rcases List.mem_append.mp member with old | new
          · exact plain name old
          · rw [List.mem_singleton.mp new]
            exact ⟨filled, whole, current, parent⟩
        · cases stepped

private theorem steps_keep_plain {parts next : List Bytes}
    (names : ∀ part ∈ parts, slash ∉ part ∧ part ≠ []) (plain : ∀ name ∈ way, PlainName name)
    (followed : parts.foldlM files.step way = .ok next) : ∀ name ∈ next, PlainName name := by
  induction parts generalizing way with
  | nil =>
    cases followed
    exact plain
  | cons part rest ih =>
    rw [List.forall_mem_cons] at names
    obtain ⟨middle, stepped, followed⟩ := bind_ok followed
    exact ih names.2 (step_keeps_plain names.1.1 names.1.2 plain stepped) followed

private theorem parts_names (path : Path) : ∀ part ∈ parts path, slash ∉ part ∧ part ≠ [] := by
  have split : ∀ part ∈ (splitParts path.bytes).filter (· != []), slash ∉ part ∧ part ≠ [] := by
    intro part member
    obtain ⟨listed, filled⟩ := List.mem_filter.mp member
    exact ⟨splitParts_whole_mem listed, by simpa using filled⟩
  intro part member
  unfold parts at member
  dsimp only at member
  split at member
  · rcases List.mem_append.mp member with named | dot
    · exact split part named
    · rw [List.mem_singleton.mp dot]
      decide
  · exact split part member

/-- A path denotes what some way of plain names leads to, if it starts at the root or if the way to the
current directory is such a way. -/
theorem locate_way {path : Path} {place : Place}
    (current : path.isAbsolute = true ∨ ∀ name ∈ files.current, PlainName name)
    (located : files.locate path = .ok place) :
    (∀ name ∈ place.way, PlainName name) ∧ files.root.descend? place.way = some place.tree := by
  have plain : ∀ name ∈ if path.isAbsolute then [] else files.current, PlainName name := by
    split
    · simp
    · next relative => exact current.resolve_left relative
  obtain ⟨_, followed, found⟩ := locate_ok_iff.mp located
  exact ⟨steps_keep_plain (parts_names path) plain followed, found⟩

theorem isFile_root : files.isFile (absolute []) = false := by
  -- the path of the root ends with a separator, so it asks for a directory
  cases root : files.root <;>
    simp [isFile, locate, absolute, Path.isAbsolute, parts, splitParts, step, root, FileTree.descend?,
      FileTree.isFile, bind, Except.bind, pure, Except.pure]

/-- A canonical path of a file is the path of a way that ends with the name of the file. -/
theorem canonical_file {path : Path} (canonical : files.canonical? path = some path)
    (isFile : files.isFile path = true) :
    ∃ dir name content, path = absolute (dir ++ [name]) ∧ (∀ part ∈ dir ++ [name], PlainName part) ∧
      files.root.descend? (dir ++ [name]) = some (.file content) := by
  unfold canonical? at canonical
  split at canonical
  · next place located =>
    obtain rfl := Option.some.inj canonical
    obtain ⟨plain, _⟩ := locate_way (.inl (absolute_isAbsolute place.way)) located
    rcases List.eq_nil_or_concat' place.way with none | ⟨dir, name, split⟩
    · rw [none, isFile_root] at isFile
      cases isFile
    · rw [split] at isFile plain ⊢
      obtain ⟨content, found⟩ := (isFile_absolute plain (by simp)).mp isFile
      exact ⟨dir, name, content, rfl, plain, found⟩
  · cases canonical

theorem canonical_inj {first second : Path} (canonical : files.canonical? first = some first)
    (isFile : files.isFile first = true) (canonical' : files.canonical? second = some second)
    (isFile' : files.isFile second = true) (same : first.components = second.components) :
    first = second := by
  obtain ⟨dir, name, _, rfl, plain, _⟩ := canonical_file canonical isFile
  obtain ⟨dir', name', _, rfl, plain', _⟩ := canonical_file canonical' isFile'
  rw [absolute_inj plain plain' same]

theorem canonical?_canonical {path : Path} (current : ∀ name ∈ files.current, PlainName name)
    (isFile : files.isFile (files.canonical path) = true) :
    files.canonical? (files.canonical path) = some (files.canonical path) := by
  cases located : files.locate path with
  | error error =>
    have same : files.canonical path = path := by simp [canonical, canonical?, located]
    simp [same, FileSystem.isFile, located] at isFile
  | ok place =>
    have same : files.canonical path = absolute place.way := by simp [canonical, canonical?, located]
    obtain ⟨plain, found⟩ := locate_way (.inr current) located
    rw [same] at isFile ⊢
    refine canonical?_absolute plain ?_ found
    intro none
    rw [none, isFile_root] at isFile
    cases isFile

end FileSystem

end CrateAtlas
