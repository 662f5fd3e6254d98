import CrateAtlas.Outline.Score
import Mathlib.Algebra.BigOperators.Ring.List
import Mathlib.Algebra.Order.BigOperators.Group.List
import Mathlib.Algebra.Order.Group.Finset
import Mathlib.Algebra.Order.Ring.Nat
import Mathlib.Data.Finset.Lattice.Fold
import Mathlib.Order.Lattice.Nat

/-!
The score of an outline as a sum over its nodes. The depth of a node depends only on the kinds of the
nodes around it, so a node adds what it adds whatever stands beside it. Counted flat, only the kinds of
the nodes matter; counted by nesting, each scope around a node adds its weight once more.
-/

namespace CrateAtlas.Outline

/-- A node as it is found in an outline: its kind, and the kinds of the nodes around it, from the
outermost inwards. -/
structure Site where
  around : List Kind
  kind : Kind
  deriving DecidableEq, Repr

namespace Site

def within (outer : Kind) (site : Site) : Site :=
  { site with around := outer :: site.around }

def scopes (site : Site) : Nat :=
  site.around.countP Kind.opensScope

def depth (mode : DepthMode) (root : Nat) (site : Site) : Nat :=
  site.around.foldl (fun depth kind => mode.below kind depth) root

private theorem depth_within (mode : DepthMode) (root : Nat) (outer : Kind) (site : Site) :
    (site.within outer).depth mode root = site.depth mode (mode.below outer root) :=
  rfl

private theorem depth_flat (root : Nat) (site : Site) : site.depth .flat root = root := by
  obtain ⟨around, kind⟩ := site
  induction around with
  | nil => rfl
  | cons outer around ih => exact ih

theorem depth_nested (root : Nat) (site : Site) : site.depth .nested root = root + site.scopes := by
  obtain ⟨around, kind⟩ := site
  induction around generalizing root with
  | nil => rfl
  | cons outer around ih =>
    -- the root of what is inside is deeper just if `outer` opens a scope, and then `outer` is counted
    have inner := ih (DepthMode.nested.below outer root)
    have deeper : scopes ⟨outer :: around, kind⟩ =
        scopes ⟨around, kind⟩ + if outer.opensScope then 1 else 0 := List.countP_cons
    rw [deeper]
    refine inner.trans ?_
    rw [DepthMode.below]
    split <;> omega

private theorem scopes_eq_zero_iff (site : Site) :
    site.scopes = 0 ↔ ∀ kind ∈ site.around, kind.opensScope = false := by
  simp [scopes]

end Site

mutual

def sites : Outline → List Site
  | node kind parts => ⟨[], kind⟩ :: (sitesAll parts).map (Site.within kind)
  | specifier _ => [⟨[], .specifier⟩]

def sitesAll : List Outline → List Site
  | [] => []
  | outline :: rest => outline.sites ++ sitesAll rest

end

def kinds (outline : Outline) : List Kind :=
  outline.sites.map Site.kind

private theorem sitesAll_eq_flatMap (outlines : List Outline) :
    sitesAll outlines = outlines.flatMap sites := by
  induction outlines with
  | nil => rfl
  | cons outline rest ih => rw [sitesAll, ih, List.flatMap_cons]

@[simp]
theorem kinds_node (kind : Kind) (parts : List Outline) :
    (node kind parts).kinds = kind :: parts.flatMap kinds := by
  -- a node keeps its kind wherever it stands
  have same : Site.kind ∘ Site.within kind = Site.kind := rfl
  rw [kinds, sites, List.map_cons, List.map_map, same, sitesAll_eq_flatMap, List.map_flatMap]
  rfl

@[simp]
theorem kinds_leaf (kind : Kind) : (leaf kind).kinds = [kind] :=
  rfl

@[simp]
theorem kinds_specifier (text : String) : (specifier text).kinds = [.specifier] :=
  rfl

def tally (mode : DepthMode) (root : Nat) (sites : List Site) : Score where
  complexity := (sites.map fun site => weighted site.kind.weight (site.depth mode root)).sum
  maxDepth := sites.toFinset.sup (Site.depth mode root)

theorem tally_cons (mode : DepthMode) (root : Nat) (site : Site) (sites : List Site) :
    tally mode root (site :: sites) =
      ⟨weighted site.kind.weight (site.depth mode root) + (tally mode root sites).complexity,
        max (site.depth mode root) (tally mode root sites).maxDepth⟩ := by
  simp [tally]

private theorem tally_append (mode : DepthMode) (root : Nat) (first second : List Site) :
    tally mode root (first ++ second) =
      ⟨(tally mode root first).complexity + (tally mode root second).complexity,
        max (tally mode root first).maxDepth (tally mode root second).maxDepth⟩ := by
  simp [tally, Finset.sup_union]

private theorem tally_within (mode : DepthMode) (root : Nat) (outer : Kind) (sites : List Site) :
    tally mode root (sites.map (Site.within outer)) = tally mode (mode.below outer root) sites := by
  induction sites with
  | nil => rfl
  | cons site sites ih =>
    rw [List.map_cons, tally_cons, tally_cons, ih, Site.depth_within]
    rfl

mutual

/-- The score of an outline is that of its nodes together. -/
theorem score_eq_tally (mode : DepthMode) : (root : Nat) → (outline : Outline) →
    outline.score mode root = tally mode root outline.sites
  | root, node kind parts => by
    rw [score, sites, tally_cons, tally_within, scoreAll_eq_tally mode (mode.below kind root) parts]
    rfl
  | root, specifier _ => by
    rw [score, sites, tally_cons]
    simp [tally, Site.depth]

theorem scoreAll_eq_tally (mode : DepthMode) : (root : Nat) → (outlines : List Outline) →
    scoreAll mode root outlines = tally mode root (sitesAll outlines)
  | root, [] => rfl
  | root, outline :: rest => by
    rw [scoreAll, sitesAll, tally_append, score_eq_tally mode root outline,
      scoreAll_eq_tally mode root rest]

end

theorem sites_nonempty (outline : Outline) : outline.sites.toFinset.Nonempty := by
  cases outline <;> simp [sites]

theorem complexity_nested (outline : Outline) (depth : Nat) :
    (outline.score .nested depth).complexity =
      (outline.sites.map fun site => site.kind.weight * (depth + 10 + site.scopes)).sum := by
  rw [score_eq_tally]
  refine congrArg List.sum (List.map_congr_left fun site _ => ?_)
  rw [weighted, Site.depth_nested, Nat.add_right_comm]

private theorem maxDepth_nested (outline : Outline) (depth : Nat) :
    (outline.score .nested depth).maxDepth = depth + outline.sites.toFinset.sup Site.scopes := by
  have nested : Site.depth .nested depth = fun site => depth + site.scopes :=
    funext (Site.depth_nested depth)
  rw [score_eq_tally, tally, nested, Finset.add_sup outline.sites_nonempty]

theorem score_flat (outline : Outline) (depth : Nat) :
    outline.score .flat depth = ⟨(depth + 10) * (outline.kinds.map Kind.weight).sum, depth⟩ := by
  have flat : Site.depth .flat depth = fun _ => depth := funext (Site.depth_flat depth)
  rw [score_eq_tally, tally, flat, Finset.sup_const outline.sites_nonempty, kinds, List.map_map,
    ← List.sum_map_mul_left]
  congr 3
  funext site
  rw [weighted, Nat.mul_comm]
  rfl

/-- Nesting adds the weight of a node once for each scope around it. -/
theorem complexity_nested_eq_flat_add (outline : Outline) (depth : Nat) :
    (outline.score .nested depth).complexity = (outline.score .flat depth).complexity +
      (outline.sites.map fun site => site.kind.weight * site.scopes).sum := by
  rw [complexity_nested, score_flat, kinds, List.map_map, ← List.sum_map_mul_left,
    ← List.sum_map_add]
  congr 2
  funext site
  rw [Function.comp_apply, Nat.mul_add, Nat.mul_comm]

private theorem complexity_nested_eq_flat_iff (outline : Outline) (depth : Nat) :
    (outline.score .nested depth).complexity = (outline.score .flat depth).complexity ↔
      ∀ site ∈ outline.sites, 0 < site.kind.weight →
        ∀ kind ∈ site.around, kind.opensScope = false := by
  rw [complexity_nested_eq_flat_add, Nat.add_eq_left, List.sum_eq_zero_iff, List.forall_mem_map]
  refine forall₂_congr fun site _ => ?_
  rw [Nat.mul_eq_zero, ← Site.scopes_eq_zero_iff]
  omega

/-- The score in closed form. Counted by nesting, a node adds its weight times ten plus its depth, which
is the number of scopes around it on top of the depth of the root; the greatest depth is that of the node
in the most scopes. Counted flat, the score depends on nothing but the kinds of the nodes. It is never
greater than the nested one, and the same just if no node of any weight is in a scope. -/
theorem score_closed_form (outline : Outline) (depth : Nat) :
    (outline.score .nested depth).complexity =
      (outline.sites.map fun site => site.kind.weight * (depth + 10 + site.scopes)).sum ∧
    (outline.score .nested depth).maxDepth = depth + outline.sites.toFinset.sup Site.scopes ∧
    outline.score .flat depth = ⟨(depth + 10) * (outline.kinds.map Kind.weight).sum, depth⟩ ∧
    (∀ other : Outline, other.kinds.Perm outline.kinds →
      other.score .flat depth = outline.score .flat depth) ∧
    (outline.score .flat depth).complexity ≤ (outline.score .nested depth).complexity ∧
    ((outline.score .nested depth).complexity = (outline.score .flat depth).complexity ↔
      ∀ site ∈ outline.sites, 0 < site.kind.weight →
        ∀ kind ∈ site.around, kind.opensScope = false) := by
  refine ⟨outline.complexity_nested depth, outline.maxDepth_nested depth, outline.score_flat depth,
    ?_, ?_, outline.complexity_nested_eq_flat_iff depth⟩
  · intro other rearranged
    rw [score_flat, score_flat, (rearranged.map Kind.weight).sum_eq]
  · rw [complexity_nested_eq_flat_add]
    exact Nat.le_add_right _ _

def ladder : Outline :=
  node .file [leaf .useItem, node .function [node .ifExpr [node .forLoop [leaf .whileLoop]]]]

def levelled : Outline :=
  node .file [leaf .whileLoop, node .useItem [leaf .ifExpr, leaf .forLoop], leaf .function]

theorem score_closed_form_ladder :
    levelled.kinds.Perm ladder.kinds ∧ ladder.score .flat 2 = ⟨12 * (2 + 2 + 3 + 5 + 5), 2⟩ ∧
    levelled.score .flat 2 = ladder.score .flat 2 ∧
    ladder.score .nested 2 = ⟨2 * 12 + 2 * 12 + 3 * 13 + 5 * 14 + 5 * 15, 2 + 3⟩ ∧
    (ladder.score .nested 2).complexity ≠ (ladder.score .flat 2).complexity ∧
    (levelled.score .nested 2).complexity = (levelled.score .flat 2).complexity := by
  obtain ⟨complexity, maxDepth, flat, rearranged, _, same⟩ := score_closed_form ladder 2
  have shuffled : levelled.kinds.Perm ladder.kinds := by decide
  refine ⟨shuffled, flat, rearranged levelled shuffled, ?_, ?_, ?_⟩
  · exact congrArg₂ Score.mk complexity maxDepth
  · rw [Ne, same]
    decide
  · rw [(score_closed_form levelled 2).2.2.2.2.2]
    decide

end CrateAtlas.Outline
