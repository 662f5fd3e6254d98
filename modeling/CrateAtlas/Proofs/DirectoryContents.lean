import CrateAtlas.Proofs.PathSpelling
import Mathlib.Data.List.Flatten
import Mathlib.Data.List.Nodup

/-!
What lies below a directory. The ways of a tree are the ways that lead somewhere in it, each listed once
if no directory holds two things of one name; and joining the names of a way to a path of a directory, one
after another, gives a path of what the way leads to. A relative path is followed from the directory that it
is joined to, however that directory is spelled.
-/

namespace CrateAtlas

open CrateAtlas.Path

namespace FileTree

/-- Every directory in the tree holds things of different names, which are names that it can hold. -/
inductive Proper : FileTree → Prop where
  | file (content : Option String) : Proper (file content)
  | directory {children : List (Bytes × FileTree)} (distinct : (children.map (·.1)).Nodup)
      (plain : ∀ child ∈ children, PlainName child.1) (inner : ∀ child ∈ children, Proper child.2) :
      Proper (directory children)

theorem waysAll_eq_flatMap (children : List (Bytes × FileTree)) :
    waysAll children = children.flatMap fun child => child.2.ways.map (child.1 :: ·) := by
  induction children with
  | nil => rfl
  | cons child rest ih =>
    obtain ⟨name, tree⟩ := child
    rw [waysAll, ih, List.flatMap_cons]

theorem mem_of_lookup {children : List (Bytes × FileTree)} {name : Bytes} {tree : FileTree}
    (found : children.lookup name = some tree) : (name, tree) ∈ children := by
  obtain ⟨before, after, rfl, _⟩ := List.lookup_eq_some_iff.mp found
  simp

private theorem lookup_of_mem {children : List (Bytes × FileTree)} {child : Bytes × FileTree}
    (distinct : (children.map (·.1)).Nodup) (member : child ∈ children) :
    children.lookup child.1 = some child.2 := by
  obtain ⟨before, after, rfl⟩ := List.append_of_mem member
  refine List.lookup_eq_some_iff.mpr ⟨before, after, rfl, ?_⟩
  intro other earlier
  rw [List.map_append, List.map_cons] at distinct
  have apart := (List.nodup_append.mp distinct).2.2 other.1 (List.mem_map_of_mem earlier) child.1
    List.mem_cons_self
  simpa using apart.symm

theorem mem_ways {way : List Bytes} {tree place : FileTree}
    (found : descend? way tree = some place) : way ∈ tree.ways := by
  induction way generalizing tree with
  | nil => cases tree <;> simp [ways]
  | cons name rest ih =>
    obtain ⟨child, named, below⟩ := Option.bind_eq_some_iff.mp found
    cases tree with
    | file content => cases named
    | directory children =>
      rw [ways, waysAll_eq_flatMap]
      refine List.mem_cons_of_mem _ (List.mem_flatMap.mpr ⟨(name, child), mem_of_lookup named, ?_⟩)
      exact List.mem_map_of_mem (ih below)

namespace Proper

variable {tree place : FileTree} {way : List Bytes}

theorem descend? (proper : tree.Proper) (found : tree.descend? way = some place) :
    place.Proper ∧ ∀ name ∈ way, PlainName name := by
  induction way generalizing tree with
  | nil =>
    cases found
    exact ⟨proper, by simp⟩
  | cons name rest ih =>
    obtain ⟨child, named, below⟩ := Option.bind_eq_some_iff.mp found
    cases proper with
    | file content => cases named
    | directory distinct plain inner =>
      have member := mem_of_lookup named
      obtain ⟨settled, names⟩ := ih (inner _ member) below
      exact ⟨settled, List.forall_mem_cons.mpr ⟨plain _ member, names⟩⟩

theorem mem_ways_iff (proper : tree.Proper) :
    way ∈ tree.ways ↔ ∃ place, tree.descend? way = some place := by
  refine ⟨fun listed => ?_, fun ⟨place, found⟩ => mem_ways found⟩
  induction way generalizing tree with
  | nil => exact ⟨tree, rfl⟩
  | cons name rest ih =>
    cases proper with
    | file content => simp [ways] at listed
    | @directory children distinct plain inner =>
      have below : name :: rest ∈ waysAll children := by simpa [ways] using listed
      rw [waysAll_eq_flatMap] at below
      obtain ⟨child, member, spelled⟩ := List.mem_flatMap.mp below
      obtain ⟨other, further, same⟩ := List.mem_map.mp spelled
      obtain ⟨rfl, rfl⟩ := List.cons.inj same
      obtain ⟨place, found⟩ := ih (inner child member) further
      exact ⟨place, Option.bind_eq_some_iff.mpr ⟨child.2, lookup_of_mem distinct member, found⟩⟩

theorem nodup_ways (proper : tree.Proper) : tree.ways.Nodup := by
  induction proper with
  | file content => simp [ways]
  | @directory children distinct plain inner ih =>
    rw [ways, waysAll_eq_flatMap, List.nodup_cons]
    refine ⟨by simp, List.nodup_flatMap.mpr ⟨?_, ?_⟩⟩
    · intro child member
      exact (ih child member).map (List.cons_injective)
    · refine (List.pairwise_map.mp distinct).imp ?_
      intro child other apart way first second
      obtain ⟨rest, _, rfl⟩ := List.mem_map.mp first
      obtain ⟨_, _, same⟩ := List.mem_map.mp second
      exact apart (List.cons.inj same).1.symm

end Proper

end FileTree

/-- The path to which names lead from a path, each joined to what stands before it. -/
def Path.descend (path : Path) (way : List Bytes) : Path :=
  way.foldl (fun path name => path.join ⟨name⟩) path

private theorem Path.descend_concat (path : Path) (way : List Bytes) (name : Bytes) :
    path.descend (way ++ [name]) = (path.descend way).join ⟨name⟩ := by
  simp [descend]

theorem Path.components_descend {way : List Bytes} (plain : ∀ name ∈ way, PlainName name) (path : Path) :
    (path.descend way).components = path.components ++ way.map .name := by
  induction way generalizing path with
  | nil => simp [descend]
  | cons name rest ih =>
    rw [List.forall_mem_cons] at plain
    have joined : path.descend (name :: rest) = (path.join ⟨name⟩).descend rest := rfl
    rw [joined, ih plain.2, components_join plain.1]
    simp

theorem Path.fileExtension?_descend {way : List Bytes} {name : Bytes}
    (plain : ∀ other ∈ way ++ [name], PlainName other) (path : Path) :
    (path.descend (way ++ [name])).fileExtension? = fileExtension? ⟨name⟩ := by
  have single := components_plain (plain name (by simp))
  have last : (path.descend (way ++ [name])).fileName? = (⟨name⟩ : Path).fileName? := by
    simp [fileName?, components_descend plain, single]
  rw [fileExtension?, fileExtension?, last]

namespace FileSystem

variable {files : FileSystem} {dir other : Path} {place : Place} {way : List Bytes}

theorem locate_descend (plain : ∀ name ∈ way, PlainName name) (nonempty : way ≠ [])
    (located : files.locate dir = .ok place) (inner : Place) :
    files.locate (dir.descend way) = .ok inner ↔
      inner.way = place.way ++ way ∧ place.tree.descend? way = some inner.tree := by
  obtain ⟨followed, found⟩ := locate_steps located
  have absolute : (dir.descend way).isAbsolute = dir.isAbsolute := by
    rw [Bool.eq_iff_iff, isAbsolute_iff, isAbsolute_iff, components_descend plain]
    simp
  have named : (way.map Component.name).filterMap Component.step? = way := by
    simp [List.filterMap_map, Function.comp_def, Component.step?]
  have steps : ((dir.descend way).components.filterMap Component.step?).foldlM files.step
      (if (dir.descend way).isAbsolute then [] else files.current) =
        way.foldlM files.step place.way := by
    rw [absolute, components_descend plain, List.filterMap_append, named, List.foldlM_append, followed]
    rfl
  have below : files.root.descend? (place.way ++ way) = place.tree.descend? way := by
    rw [FileTree.descend?_append, found]
    rfl
  constructor
  · intro reached
    obtain ⟨followedInner, foundInner⟩ := locate_steps reached
    rw [steps] at followedInner
    have same := ((steps_plain_iff plain nonempty inner.way).mp followedInner).1
    rw [same, below] at foundInner
    exact ⟨same, foundInner⟩
  · rintro ⟨same, foundInner⟩
    have there : files.root.descend? inner.way = some inner.tree := by rw [same, below, foundInner]
    have followedInner : way.foldlM files.step place.way = .ok inner.way :=
      (steps_plain_iff plain nonempty inner.way).mpr ⟨same, by rw [← same, there]; rfl⟩
    -- with a name at its end the path has no separator there, which would ask for a directory
    obtain ⟨front, name, rfl⟩ := (List.eq_nil_or_concat' way).resolve_left nonempty
    rw [descend_concat] at steps ⊢
    exact locate_of_steps (plain name (by simp)) (steps.trans followedInner) there

private theorem parts_ne_nil (path : Path) : parts path ≠ [] := by
  obtain ⟨front, last, split⟩ :=
    (List.eq_nil_or_concat' (splitParts path.bytes)).resolve_left (splitParts_ne_nil _)
  unfold parts
  rw [split]
  dsimp only
  rw [List.getLast?_concat]
  split
  · simp
  · next filled =>
    have named : last ≠ [] := fun empty => filled (congrArg some empty)
    simp [named]

/-- A path that stands behind a separator is followed after what stands before it. -/
theorem parts_behind {path : Path} {front : Bytes}
    (spelled : path.bytes = front ++ slash :: other.bytes) :
    parts path = (splitParts front).filter (· != []) ++ parts other := by
  unfold parts
  rw [spelled, splitParts_append_slash]
  dsimp only
  rw [List.getLast?_append_of_ne_nil _ (splitParts_ne_nil other.bytes)]
  split <;> simp

/-- What is followed before a joined path leads to the directory. -/
theorem steps_before {front : Bytes} (located : files.locate dir = .ok place)
    (before : dir.bytes = front ∨ dir.bytes = front ++ [slash]) :
    ((splitParts front).filter (· != [])).foldlM files.step
      (if dir.isAbsolute then [] else files.current) = .ok place.way := by
  obtain ⟨_, followed, _⟩ := locate_ok_iff.mp located
  generalize (if dir.isAbsolute then [] else files.current) = start at followed ⊢
  have dotted : parts dir = (splitParts front).filter (· != []) ∨
      parts dir = (splitParts front).filter (· != []) ++ [[dot]] := by
    rcases before with same | same
    · unfold parts
      rw [same]
      dsimp only
      split
      · exact .inr rfl
      · exact .inl rfl
    · exact .inr (@parts_behind ⟨[]⟩ dir front same)
  rcases dotted with same | same
  · exact same ▸ followed
  · rw [same, List.foldlM_append] at followed
    obtain ⟨way, followed, last⟩ := bind_ok followed
    obtain ⟨next, stepped, ended⟩ := bind_ok last
    cases ended
    obtain rfl : way = place.way := Except.ok.inj ((step_dot stepped).symm.trans stepped)
    exact followed

private theorem locate_join_relative (located : files.locate dir = .ok place)
    (relative : other.isAbsolute = false) (inner : Place) :
    files.locate (dir.join other) = .ok inner ↔
      (parts other).foldlM files.step place.way = .ok inner.way ∧
        files.root.descend? inner.way = some inner.tree := by
  have filled := (locate_ok_iff.mp located).1
  rcases join_relative dir relative with ⟨empty, _⟩ | ⟨front, spelled, _, before⟩
  · exact absurd empty filled
  have nonempty : (dir.join other).bytes ≠ [] := by
    intro empty
    simp [empty] at spelled
  rw [locate_ok_iff, parts_behind spelled, isAbsolute_join dir relative, List.foldlM_append,
    steps_before located before]
  exact and_iff_right nonempty

/-- Only below a directory does anything lead on, so the root is one then. -/
theorem step_root {way next : List Bytes} {part : Bytes} (stepped : files.step way part = .ok next) :
    files.step [] [dot] = .ok [] := by
  unfold step at stepped ⊢
  cases root : files.root with
  | file content => cases way <;> simp [root, FileTree.descend?, FileTree.child?] at stepped
  | directory children => simp [FileTree.descend?]

private theorem locate_canonical_of_plain (plain : ∀ name ∈ place.way, PlainName name)
    (located : files.locate dir = .ok place) : files.locate (files.canonical dir) = .ok place := by
  obtain ⟨_, followed, found⟩ := locate_ok_iff.mp located
  have spelled : files.canonical dir = absolute place.way := by
    simp [canonical, canonical?, located]
  rw [spelled]
  by_cases top : place.way = []
  · obtain ⟨first, rest, split⟩ := List.exists_cons_of_ne_nil (parts_ne_nil dir)
    rw [split] at followed
    obtain ⟨_, stepped, _⟩ := bind_ok followed
    have dotted : parts (absolute []) = [[dot]] := by decide
    refine locate_ok_iff.mpr ⟨by simp [absolute], ?_, found⟩
    rw [absolute_isAbsolute, top, dotted, List.foldlM_cons, if_pos rfl, step_root stepped]
    rfl
  · exact (locate_absolute plain top place).mpr ⟨rfl, found⟩

/-- What a path denotes from a directory does not depend on the spelling of the directory. -/
theorem locate_canonical_join (current : ∀ name ∈ files.current, PlainName name) (dir other : Path)
    (inner : Place) : files.locate ((files.canonical dir).join other) = .ok inner ↔
      files.locate (dir.join other) = .ok inner := by
  by_cases absolute : other.isAbsolute = true
  · simp [join, absolute]
  have relative : other.isAbsolute = false := by simpa using absolute
  cases located : files.locate dir with
  | error error =>
    have same : files.canonical dir = dir := by simp [canonical, canonical?, located]
    rw [same]
  | ok place =>
    have again := locate_canonical_of_plain (locate_way (.inr current) located).1 located
    rw [locate_join_relative located relative, locate_join_relative again relative]

theorem canonical_descend (plain : ∀ name ∈ way, PlainName name) (nonempty : way ≠ [])
    (located : files.locate dir = .ok place) {tree : FileTree}
    (found : place.tree.descend? way = some tree) :
    files.canonical (dir.descend way) = absolute (place.way ++ way) := by
  have reached := (locate_descend plain nonempty located ⟨place.way ++ way, tree⟩).mpr ⟨rfl, found⟩
  simp [canonical, canonical?, reached]

end FileSystem

end CrateAtlas
