import CrateAtlas.Proofs.LooseImports

/-!
Leaves of import trees. A tree imports one path for each of its leaves, made of the names on the way
down to it. Braces only gather trees below the same names, so a tree may be spread into several
without a change to what a file imports.
-/

namespace CrateAtlas.Source

namespace UseTree

/-- A leaf of a tree: the names down to it, its own among them, and whether it stands in braces. -/
structure Leaf where
  names : List String
  grouped : Bool
  deriving DecidableEq, Repr

namespace Leaf

def below (name : String) (leaf : Leaf) : Leaf :=
  { leaf with names := name :: leaf.names }

def inBraces (leaf : Leaf) : Leaf :=
  { leaf with grouped := true }

def path (above : String) (leaf : Leaf) : String :=
  "::".intercalate ((if above = "" then [] else [above]) ++ leaf.names)

/-- Whether the path of a leaf is imported: an empty one in braces is not. -/
def isListed (above : String) (leaf : Leaf) : Bool :=
  !(leaf.grouped && leaf.path above == "")

end Leaf

/-- The name that a leaf adds to those above it: `self` adds none. -/
def ownNames (name : PathWord) : List String :=
  if name.text = "self" then [] else [name.text]

mutual

/-- The leaves of a tree in source order. The new name of a renamed leaf does not count, and a glob has
no name. -/
def leaves : UseTree → List Leaf
  | .path first tree => tree.leaves.map (.below first.text)
  | .name last => [⟨ownNames last, false⟩]
  | .rename last => [⟨ownNames last, false⟩]
  | .glob => [⟨[], false⟩]
  | .group trees => (leavesAll trees).map .inBraces

def leavesAll : List UseTree → List Leaf
  | [] => []
  | tree :: rest => tree.leaves ++ leavesAll rest

end

mutual

/-- Trees that a tree may be replaced by: groups anywhere in it are dissolved into their trees, each
below the names that stood before the group. -/
inductive Spreads : UseTree → List UseTree → Prop
  | keep (tree : UseTree) : Spreads tree [tree]
  | path (name : PathWord) (tree : UseTree) (parts : List UseTree) (inner : Spreads tree parts) :
      Spreads (.path name tree) (parts.map (.path name))
  | dissolve (trees parts : List UseTree) (inner : SpreadsAll trees parts) :
      Spreads (.group trees) parts
  | regroup (trees parts : List UseTree) (inner : SpreadsAll trees parts) :
      Spreads (.group trees) [.group parts]

inductive SpreadsAll : List UseTree → List UseTree → Prop
  | nil : SpreadsAll [] []
  | cons (tree : UseTree) (rest front back : List UseTree) (first : Spreads tree front)
      (others : SpreadsAll rest back) : SpreadsAll (tree :: rest) (front ++ back)

end

section

variable {tree : UseTree} {trees parts : List UseTree} {above name : String}

theorem Leaf.path_below (filled : name ≠ "") (above : String) (leaf : Leaf) :
    (leaf.below name).path above = leaf.path (join above name) := by
  unfold Leaf.path Leaf.below join
  by_cases empty : above = ""
  · simp [empty, filled]
  · have joined : above ++ "::" ++ name ≠ "" := by simp
    rw [if_neg empty, if_neg empty, if_neg joined]
    apply String.toList_inj.mp
    cases leaf.names <;> simp [String.toList_intercalate]

theorem Leaf.path_nil (above : String) (grouped : Bool) : Leaf.path above ⟨[], grouped⟩ = above := by
  unfold Leaf.path
  split
  · next empty => rw [empty]; rfl
  · simp

private theorem leafPath_eq (above : String) (last : PathWord) (grouped : Bool) :
    leafPath above last.text = Leaf.path above ⟨ownNames last, grouped⟩ := by
  unfold leafPath ownNames
  split
  · rw [Leaf.path_nil]
  · have joined := Leaf.path_below last.filled above ⟨[], grouped⟩
    rw [Leaf.path_nil] at joined
    exact joined.symm

private theorem Leaf.isListed_below (filled : name ≠ "") (above : String) (leaf : Leaf) :
    (leaf.below name).isListed above = leaf.isListed (join above name) := by
  rw [isListed, isListed, path_below filled]
  rfl

/-- In braces just the paths that are not empty are listed. -/
theorem Leaf.isListed_inBraces (above : String) (leaf : Leaf) :
    leaf.inBraces.isListed above = (leaf.path above != "" && leaf.isListed above) := by
  have same : leaf.inBraces.path above = leaf.path above := rfl
  rw [isListed, isListed, same]
  cases leaf.grouped <;> cases empty : leaf.path above == "" <;> simp_all [inBraces]

mutual

private theorem paths_eq : (tree : UseTree) → (above : String) →
    tree.paths above = (tree.leaves.filter (Leaf.isListed above)).map (Leaf.path above)
  | .path first tree, above => by
    have path : Leaf.path above ∘ Leaf.below first.text = Leaf.path (join above first.text) :=
      funext (Leaf.path_below first.filled above)
    have listed : Leaf.isListed above ∘ Leaf.below first.text = Leaf.isListed (join above first.text) :=
      funext (Leaf.isListed_below first.filled above)
    rw [paths, leaves, paths_eq tree, List.filter_map, List.map_map, path, listed]
  | .name last, above => by
    rw [paths, leaves, leafPath_eq above last false]
    rfl
  | .rename last, above => by
    rw [paths, leaves, leafPath_eq above last false]
    rfl
  | .glob, above => by
    rw [paths, leaves]
    exact congrArg (fun path => [path]) (Leaf.path_nil above false).symm
  | .group trees, above => by
    have listed : Leaf.isListed above ∘ Leaf.inBraces =
        fun leaf => leaf.path above != "" && leaf.isListed above :=
      funext (Leaf.isListed_inBraces above)
    rw [paths, leaves, pathsAll_eq trees, List.filter_map, List.filter_map, List.filter_filter,
      List.map_map, listed]
    rfl

theorem pathsAll_eq : (trees : List UseTree) → (above : String) →
    pathsAll above trees = ((leavesAll trees).filter (Leaf.isListed above)).map (Leaf.path above)
  | [], _ => rfl
  | tree :: rest, above => by
    rw [pathsAll, leavesAll, paths_eq tree, pathsAll_eq rest, List.filter_append, List.map_append]

end

theorem pathsAll_eq_flatMap (above : String) (trees : List UseTree) :
    pathsAll above trees = trees.flatMap (paths above) := by
  induction trees with
  | nil => rfl
  | cons tree rest ih => rw [pathsAll, ih, List.flatMap_cons]

mutual

/-- Trees that a tree is spread into import the paths of the tree, below any path. -/
theorem Spreads.paths_eq : {tree : UseTree} → {parts : List UseTree} → Spreads tree parts →
    (above : String) → (tree.paths above).filter (· != "") = (pathsAll above parts).filter (· != "")
  | _, _, .keep tree, above => by
    rw [pathsAll, pathsAll, List.append_nil]
  | _, _, .path first tree parts inner, above => by
    rw [paths, inner.paths_eq, pathsAll_eq_flatMap, pathsAll_eq_flatMap, List.flatMap_map]
    rfl
  | _, _, .dissolve trees parts inner, above => by
    rw [paths, List.filter_filter, ← inner.paths_eq]
    simp
  | _, _, .regroup trees parts inner, above => by
    rw [pathsAll, pathsAll, List.append_nil, paths, paths, inner.paths_eq]

theorem SpreadsAll.paths_eq : {trees parts : List UseTree} → SpreadsAll trees parts →
    (above : String) → (pathsAll above trees).filter (· != "") = (pathsAll above parts).filter (· != "")
  | _, _, .nil, _ => rfl
  | _, _, .cons tree rest front back first others, above => by
    have split : pathsAll above (front ++ back) = pathsAll above front ++ pathsAll above back := by
      simp only [pathsAll_eq_flatMap, List.flatMap_append]
    rw [pathsAll, split, List.filter_append, List.filter_append, first.paths_eq, others.paths_eq]

end

private theorem Spreads.specifiers_eq (spreads : Spreads tree parts) :
    tree.specifiers = parts.flatMap specifiers := by
  rw [specifiers, spreads.paths_eq, pathsAll_eq_flatMap, List.filter_flatMap]
  rfl

private theorem SpreadsAll.keep (trees : List UseTree) : SpreadsAll trees trees := by
  induction trees with
  | nil => exact .nil
  | cons tree rest ih => exact .cons tree rest [tree] rest (.keep tree) ih

/-- A group below some names is spread into its trees below these names. -/
theorem spreads_group (words : List PathWord) (trees : List UseTree) :
    Spreads (words.foldr .path (.group trees)) (trees.map fun tree => words.foldr .path tree) := by
  induction words with
  | nil =>
    rw [List.foldr_nil]
    simpa using Spreads.dissolve trees trees (.keep trees)
  | cons word words ih =>
    have spreads := Spreads.path word _ _ ih
    rwa [List.map_map] at spreads

end

end UseTree

namespace SourceFile

open UseTree

private theorem topLevelSpecifiers_outline (items : List Construct) (excludeTests : Bool) :
    (outline ⟨items⟩ excludeTests).topLevelSpecifiers =
      (items.filter fun item => !(excludeTests && item.isTestOnly)).flatMap Construct.specifiers :=
  Construct.topLevelSpecifiers_outlineAll _

/-- The specifiers of import statements with the same attributes, with or without those for tests. -/
theorem specifiers_useItems (attrs : List Construct) (trees : List UseTree) (excludeTests : Bool) :
    ((trees.map (Construct.useItem attrs)).filter fun item =>
        !(excludeTests && item.isTestOnly)).flatMap Construct.specifiers =
      if excludeTests && attrs.any Construct.isTestMark then [] else trees.flatMap specifiers := by
  have own (tree : UseTree) : (Construct.useItem attrs tree).specifiers = tree.specifiers := by
    rw [Construct.specifiers_eq]
    exact List.append_nil _
  have kept : (fun item : Construct => !(excludeTests && item.isTestOnly)) ∘ Construct.useItem attrs =
      fun _ => !(excludeTests && attrs.any Construct.isTestMark) := rfl
  rw [List.filter_map, kept, List.flatMap_map]
  simp only [own]
  cases excludeTests && attrs.any Construct.isTestMark <;> simp

end SourceFile

/-- The paths that a tree imports are those of its leaves in source order, less the empty ones in
braces. A group below some names is one of the ways to write its trees below these names, and
whichever trees a tree is spread into, a file that imports these in its place has the same
specifiers. -/
theorem UseTree.paths_leaf_expansion (tree : UseTree) (above : String) :
    tree.paths above = (tree.leaves.filter (Leaf.isListed above)).map (Leaf.path above) ∧
    (∀ (words : List PathWord) (trees : List UseTree),
      Spreads (words.foldr .path (.group trees)) (trees.map fun tree => words.foldr .path tree)) ∧
    ∀ parts, Spreads tree parts → ∀ before attrs after excludeTests,
      (SourceFile.outline ⟨before ++ parts.map (.useItem attrs) ++ after⟩
          excludeTests).topLevelSpecifiers =
        (SourceFile.outline ⟨before ++ [.useItem attrs tree] ++ after⟩
          excludeTests).topLevelSpecifiers := by
  refine ⟨paths_eq tree above, spreads_group, ?_⟩
  intro parts spreads before attrs after excludeTests
  have single := SourceFile.specifiers_useItems attrs [tree] excludeTests
  rw [List.map_singleton, List.flatMap_singleton, spreads.specifiers_eq,
    ← SourceFile.specifiers_useItems attrs parts] at single
  simp only [SourceFile.topLevelSpecifiers_outline, List.filter_append, List.flatMap_append, single]

namespace UseTree

def rose : PathWord := ⟨⟨"rose", by decide, by decide⟩, by decide⟩

def tulip : PathWord := ⟨⟨"tulip", by decide, by decide⟩, by decide⟩

def branches : List UseTree :=
  [.name ⟨⟨"self", by decide, by decide⟩, by decide⟩, .path tulip (.group [.glob, .rename rose])]

theorem paths_leaf_expansion_branches :
    (UseTree.path rose (.group branches)).paths "" = ["rose", "rose::tulip", "rose::tulip::rose"] ∧
    (SourceFile.outline ⟨branches.map fun tree => .useItem [] (.path rose tree)⟩
        false).topLevelSpecifiers =
      (SourceFile.outline ⟨[.useItem [] (.path rose (.group branches))]⟩ false).topLevelSpecifiers := by
  obtain ⟨expanded, groups, replaced⟩ := paths_leaf_expansion (.path rose (.group branches)) ""
  exact ⟨expanded.trans (by decide +kernel), replaced _ (groups [rose] branches) [] [] [] false⟩

end UseTree

end CrateAtlas.Source
