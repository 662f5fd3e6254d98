import CrateAtlas.Graph.Registry
import Mathlib.Data.List.Basic

/-!
What the operations of a registry keep: a number stays with its path, a path has one number however
it is spelled, and a number is claimed once.
-/

namespace CrateAtlas

@[simp] theorem Path.same_iff (first second : Path) :
    first.same second = true ↔ first.components = second.components := by
  simp [Path.same]

namespace Registry

theorem pathOf?_eq_some_iff {registry : Registry} {index : Nat} {path : Path} :
    registry.pathOf? index = some path ↔
      ∃ node, registry.nodes[index]? = some node ∧ node.path = path := by
  simp [pathOf?]

theorem path_of_pathOf? {registry : Registry} {index : Nat} {path : Path} {node : FileNode}
    (known : registry.pathOf? index = some path) (found : registry.nodes[index]? = some node) :
    node.path = path := by
  obtain ⟨present, there, rfl⟩ := pathOf?_eq_some_iff.mp known
  rw [Option.some.inj (found.symm.trans there)]

theorem lt_size_of_pathOf? {registry : Registry} {index : Nat} {path : Path}
    (known : registry.pathOf? index = some path) : index < registry.size := by
  obtain ⟨node, found, _⟩ := pathOf?_eq_some_iff.mp known
  exact (Array.getElem?_eq_some_iff.mp found).1

theorem exists_pathOf? {registry : Registry} {index : Nat} (inside : index < registry.size) :
    ∃ path, registry.pathOf? index = some path :=
  ⟨registry.nodes[index].path, pathOf?_eq_some_iff.mpr ⟨_, Array.getElem?_eq_getElem inside, rfl⟩⟩

/-- A later registry: it has the same paths under the same numbers, and maybe more of both. -/
structure Extends (earlier later : Registry) : Prop where
  paths : ∀ index path, earlier.pathOf? index = some path → later.pathOf? index = some path
  claims : earlier.claimed ⊆ later.claimed

theorem Extends.refl (registry : Registry) : Extends registry registry :=
  ⟨fun _ _ known => known, List.Subset.refl _⟩

theorem Extends.trans {first second third : Registry} (before : Extends first second)
    (after : Extends second third) : Extends first third :=
  ⟨fun index path known => after.paths index path (before.paths index path known),
    List.Subset.trans before.claims after.claims⟩

theorem Extends.size {earlier later : Registry} (extended : Extends earlier later) :
    earlier.size ≤ later.size := by
  by_contra shrunk
  obtain ⟨path, known⟩ := @exists_pathOf? earlier later.size (by omega)
  have kept := lt_size_of_pathOf? (extended.paths _ _ known)
  omega

def Numbers (registry : Registry) (index : Nat) (path : Path) : Prop :=
  ∃ known, registry.pathOf? index = some known ∧ known.components = path.components

theorem numbers_iff {registry : Registry} {index : Nat} {path : Path} :
    registry.Numbers index path ↔
      ∃ node, registry.nodes[index]? = some node ∧ node.path.same path = true := by
  simp only [Numbers, pathOf?_eq_some_iff, Path.same_iff]
  constructor
  · rintro ⟨_, ⟨node, found, rfl⟩, alike⟩
    exact ⟨node, found, alike⟩
  · rintro ⟨node, found, alike⟩
    exact ⟨node.path, ⟨node, found, rfl⟩, alike⟩

theorem Numbers.extend {earlier later : Registry} {index : Nat} {path : Path}
    (numbered : earlier.Numbers index path) (extended : Extends earlier later) :
    later.Numbers index path := by
  obtain ⟨known, found, same⟩ := numbered
  exact ⟨known, extended.paths index known found, same⟩

theorem lt_size_of_numbers {registry : Registry} {indices : List Nat} {paths : List Path}
    (numbered : List.Forall₂ registry.Numbers indices paths) :
    ∀ index ∈ indices, index < registry.size := by
  induction numbered with
  | nil => simp
  | cons first _ ih =>
    obtain ⟨known, found, _⟩ := first
    exact List.forall_mem_cons.mpr ⟨lt_size_of_pathOf? found, ih⟩

/-- A registry in which no path has two numbers and no number is claimed twice. -/
structure Sound (registry : Registry) : Prop where
  distinct : ∀ {first second : Nat} {path : Path}, registry.Numbers first path →
    registry.Numbers second path → first = second
  claimedOnce : registry.claimed.Nodup
  claimedInside : ∀ index ∈ registry.claimed, index < registry.size

theorem find?_cases (registry : Registry) (path : Path) :
    (∃ index, registry.find? path = some index ∧ registry.Numbers index path) ∨
    (registry.find? path = none ∧ ∀ index, ¬ registry.Numbers index path) := by
  cases found : registry.find? path with
  | none =>
    refine .inr ⟨rfl, ?_⟩
    rintro index ⟨known, numbered, same⟩
    obtain ⟨node, present, rfl⟩ := pathOf?_eq_some_iff.mp numbered
    obtain ⟨inside, rfl⟩ := Array.getElem?_eq_some_iff.mp present
    have absent := Array.findIdx?_eq_none_iff.mp found registry.nodes[index]
      (Array.getElem_mem inside)
    exact Bool.false_ne_true (absent.symm.trans ((Path.same_iff _ _).mpr same))
  | some index =>
    refine .inl ⟨index, rfl, ?_⟩
    obtain ⟨inside, same, _⟩ := Array.findIdx?_eq_some_iff_getElem.mp found
    exact ⟨_, pathOf?_eq_some_iff.mpr ⟨_, Array.getElem?_eq_getElem inside, rfl⟩,
      (Path.same_iff _ _).mp same⟩

/-- What interning a path does: nothing if it is known, else a blank node at the end. -/
theorem intern_cases (registry : Registry) (path : Path) :
    (registry.Numbers (registry.intern path).1 path ∧ (registry.intern path).2 = registry) ∨
    ((∀ index, ¬ registry.Numbers index path) ∧ (registry.intern path).1 = registry.size ∧
      (registry.intern path).2 =
        { registry with nodes := registry.nodes.push (.ofPath path) }) := by
  rcases registry.find?_cases path with ⟨index, found, numbered⟩ | ⟨absent, unnumbered⟩
  · exact .inl (by simp [intern, found, numbered])
  · exact .inr ⟨unnumbered, by simp [intern, absent]⟩

theorem pathOf?_push (registry : Registry) (path : Path) (index : Nat) :
    ({ registry with nodes := registry.nodes.push (.ofPath path) } : Registry).pathOf? index =
      if index = registry.size then some path else registry.pathOf? index := by
  unfold pathOf? size
  rw [Array.getElem?_push]
  by_cases last : index = registry.nodes.size
  · simp [last, FileNode.ofPath]
  · simp [last]

theorem intern_extends (registry : Registry) (path : Path) :
    Extends registry (registry.intern path).2 := by
  rcases registry.intern_cases path with ⟨_, same⟩ | ⟨_, _, grown⟩
  · exact same.symm ▸ .refl registry
  · rw [grown]
    refine ⟨?_, List.Subset.refl _⟩
    intro index known found
    rw [pathOf?_push, if_neg (Nat.ne_of_lt (lt_size_of_pathOf? found)), found]

theorem intern_numbers (registry : Registry) (path : Path) :
    (registry.intern path).2.Numbers (registry.intern path).1 path := by
  rcases registry.intern_cases path with ⟨numbered, same⟩ | ⟨_, last, grown⟩
  · exact same.symm ▸ numbered
  · exact ⟨path, by rw [grown, last, pathOf?_push, if_pos rfl], rfl⟩

@[simp] theorem intern_claimed (registry : Registry) (path : Path) :
    (registry.intern path).2.claimed = registry.claimed := by
  rcases registry.intern_cases path with ⟨_, same⟩ | ⟨_, _, grown⟩
  · rw [same]
  · rw [grown]

theorem intern_node {registry : Registry} {path : Path} {index : Nat} {node : FileNode}
    (found : (registry.intern path).2.nodes[index]? = some node) :
    registry.nodes[index]? = some node ∨
      index = (registry.intern path).1 ∧ registry.size ≤ index ∧ node = .ofPath path := by
  rcases registry.intern_cases path with ⟨_, same⟩ | ⟨_, last, grown⟩
  · exact .inl (same ▸ found)
  · rw [grown] at found
    simp only [Array.getElem?_push] at found
    split at found
    next new => exact .inr ⟨new.trans last.symm, Nat.le_of_eq new.symm, (Option.some.inj found).symm⟩
    next old => exact .inl found

theorem intern_sound {registry : Registry} (sound : registry.Sound) (path : Path) :
    (registry.intern path).2.Sound := by
  rcases registry.intern_cases path with ⟨_, same⟩ | ⟨unnumbered, _, grown⟩
  · exact same.symm ▸ sound
  · rw [grown]
    have old {index : Nat} {other : Path} (apart : index ≠ registry.size)
        (numbered : ({ registry with nodes := registry.nodes.push (.ofPath path) } : Registry).Numbers
          index other) : registry.Numbers index other := by
      obtain ⟨known, found, same⟩ := numbered
      rw [pathOf?_push, if_neg apart] at found
      exact ⟨known, found, same⟩
    have new {other : Path}
        (numbered : ({ registry with nodes := registry.nodes.push (.ofPath path) } : Registry).Numbers
          registry.size other) : path.components = other.components := by
      obtain ⟨known, found, same⟩ := numbered
      rw [pathOf?_push, if_pos rfl] at found
      exact Option.some.inj found ▸ same
    have unlike {index : Nat} {other : Path} (numbered : registry.Numbers index other) :
        path.components ≠ other.components := by
      intro same
      obtain ⟨known, found, alike⟩ := numbered
      exact unnumbered index ⟨known, found, alike.trans same.symm⟩
    refine ⟨?_, sound.claimedOnce, ?_⟩
    · intro first second other firstNumbers secondNumbers
      by_cases firstLast : first = registry.size
      · by_cases secondLast : second = registry.size
        · exact firstLast.trans secondLast.symm
        · exact absurd (new (firstLast ▸ firstNumbers)) (unlike (old secondLast secondNumbers))
      · by_cases secondLast : second = registry.size
        · exact absurd (new (secondLast ▸ secondNumbers)) (unlike (old firstLast firstNumbers))
        · exact sound.distinct (old firstLast firstNumbers) (old secondLast secondNumbers)
    · intro index claimed
      have inside := sound.claimedInside index claimed
      simp only [size, Array.size_push] at inside ⊢
      omega

theorem claim_cases (registry : Registry) (index : Nat) :
    (index ∈ registry.claimed ∧ registry.claim index = (false, registry)) ∨
    (index ∉ registry.claimed ∧
      registry.claim index = (true, { registry with claimed := index :: registry.claimed })) := by
  by_cases taken : index ∈ registry.claimed
  · exact .inl ⟨taken, by simp [claim, taken]⟩
  · exact .inr ⟨taken, by simp [claim, taken]⟩

theorem update_node (registry : Registry) (index : Nat) (change : FileNode → FileNode)
    (other : Nat) : (registry.update index change).nodes[other]? =
      if index = other then registry.nodes[other]?.map change else registry.nodes[other]? := by
  simp only [update, Array.getElem?_modify]

/-- A node of the later registry is an earlier one, as it was or changed. -/
theorem update_node_cases {registry : Registry} {index other : Nat} {change : FileNode → FileNode}
    {node : FileNode} (found : (registry.update index change).nodes[other]? = some node) :
    registry.nodes[other]? = some node ∨
      ∃ before, registry.nodes[index]? = some before ∧ index = other ∧ change before = node := by
  rw [update_node] at found
  split at found
  next same =>
    obtain ⟨before, present, changed⟩ := Option.map_eq_some_iff.mp found
    exact .inr ⟨before, same ▸ present, same, changed⟩
  next apart => exact .inl found

theorem update_pathOf? (registry : Registry) (index : Nat) {change : FileNode → FileNode}
    (kept : ∀ node, (change node).path = node.path) (other : Nat) :
    (registry.update index change).pathOf? other = registry.pathOf? other := by
  simp only [pathOf?, update_node]
  split
  · simp [Option.map_map, Function.comp_def, kept]
  · rfl

theorem update_extends (registry : Registry) (index : Nat) {change : FileNode → FileNode}
    (kept : ∀ node, (change node).path = node.path) :
    Extends registry (registry.update index change) := by
  refine ⟨?_, List.Subset.refl _⟩
  intro other path known
  rw [update_pathOf? registry index kept, known]

theorem update_sound {registry : Registry} (sound : registry.Sound) (index : Nat)
    {change : FileNode → FileNode} (kept : ∀ node, (change node).path = node.path) :
    (registry.update index change).Sound := by
  have numbers {other : Nat} {path : Path}
      (numbered : (registry.update index change).Numbers other path) : registry.Numbers other path := by
    obtain ⟨known, found, same⟩ := numbered
    exact ⟨known, (update_pathOf? registry index kept other).symm.trans found, same⟩
  refine ⟨fun first second => sound.distinct (numbers first) (numbers second), sound.claimedOnce, ?_⟩
  intro other claimed
  exact Nat.lt_of_lt_of_le (sound.claimedInside other claimed) (registry.update_extends index kept).size

theorem claim_extends (registry : Registry) (index : Nat) :
    Extends registry { registry with claimed := index :: registry.claimed } :=
  ⟨fun _ _ known => known, List.subset_cons_self _ _⟩

theorem claim_sound {registry : Registry} (sound : registry.Sound) {index : Nat}
    (inside : index < registry.size) (fresh : index ∉ registry.claimed) :
    ({ registry with claimed := index :: registry.claimed } : Registry).Sound :=
  ⟨sound.distinct, List.nodup_cons.mpr ⟨fresh, sound.claimedOnce⟩,
    List.forall_mem_cons.mpr ⟨inside, sound.claimedInside⟩⟩

end Registry

end CrateAtlas
