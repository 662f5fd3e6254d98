import CrateAtlas.Proofs.PathSpelling
import CrateAtlas.Record.Names
import Mathlib.Data.List.Induction

/-!
The path that paths have in common. The components that paths share are themselves the components of a
path, and what starts all of these paths starts it as well; so it depends on no order of the paths, and
on none of their repetitions.
-/

namespace CrateAtlas.Path

theorem startsWith_iff (path base : Path) :
    path.startsWith base = true ↔ base.components <+: path.components := by
  rw [startsWith, List.isPrefixOf_iff_prefix]

/-- Components that some path has. Only the first of them may be the root or a dot. -/
structure Orderly (components : List Component) : Prop where
  plain : ∀ name, .name name ∈ components → PlainName name
  inner : ∀ component ∈ components.tail, component ≠ .root ∧ component ≠ .current

theorem Orderly.of_start {front components : List Component} (orderly : Orderly components)
    (above : front <+: components) : Orderly front where
  plain name member := orderly.plain name (above.subset member)
  inner component member := by
    obtain ⟨rest, rfl⟩ := above
    cases front with
    | nil => cases member
    | cons top front => exact orderly.inner component (List.mem_append_left rest member)

private theorem plainName_of_component? {first : Bool} {part name : Bytes} (whole : slash ∉ part)
    (named : component? first part = some (.name name)) : PlainName name := by
  unfold component? at named
  split at named
  · cases named
  · next filled =>
    split at named
    · cases first <;> cases named
    · next undotted =>
      split at named
      · cases named
      · next named' =>
        obtain rfl := Component.name.inj (Option.some.inj named)
        exact ⟨filled, whole, undotted, named'⟩

private theorem plainName_of_mem_partComponents {first : Bool} {parts : List Bytes} {name : Bytes}
    (whole : ∀ part ∈ parts, slash ∉ part) (member : .name name ∈ partComponents first parts) :
    PlainName name := by
  induction parts generalizing first with
  | nil => cases member
  | cons part rest ih =>
    rw [List.forall_mem_cons] at whole
    rcases List.mem_append.mp member with here | later
    · exact plainName_of_component? whole.1 (Option.mem_toList.mp here)
    · exact ih whole.2 later

private theorem current_not_mem_partComponents (parts : List Bytes) :
    .current ∉ partComponents false parts := by
  induction parts with
  | nil => exact List.not_mem_nil
  | cons part rest ih =>
    rw [partComponents, List.mem_append, not_or, Option.mem_toList]
    refine ⟨?_, ih⟩
    unfold component?
    repeat' split
    all_goals simp_all

private theorem tail_partComponents_subset (first : Bool) (parts : List Bytes) :
    (partComponents first parts).tail ⊆ partComponents false parts.tail := by
  cases parts with
  | nil => exact List.nil_subset _
  | cons part rest =>
    rw [partComponents]
    cases component? first part with
    | none => exact (List.tail_suffix _).subset
    | some component => exact List.Subset.refl _

theorem orderly_components (path : Path) : Orderly path.components := by
  have whole : ∀ part ∈ splitParts path.bytes, slash ∉ part :=
    fun part member => splitParts_whole_mem member
  have inner (parts : List Bytes) : ∀ component ∈ partComponents false parts,
      component ≠ .root ∧ component ≠ .current := by
    intro component member
    constructor
    · rintro rfl
      exact root_not_mem_partComponents false parts member
    · rintro rfl
      exact current_not_mem_partComponents parts member
  rw [components_eq]
  split
  · refine ⟨fun name member => ?_, inner _⟩
    have behind := (List.mem_cons.mp member).resolve_left (by simp)
    exact plainName_of_mem_partComponents whole behind
  · exact ⟨fun name member => plainName_of_mem_partComponents whole member,
      fun component member => inner _ component (tail_partComponents_subset true _ member)⟩

private theorem ofComponents_concat (front : List Component) (component : Component) :
    ofComponents (front ++ [component]) = (ofComponents front).join ⟨component.bytes⟩ := by
  simp [ofComponents]

/-- Joined one after another, the components of a path give a path that has them. -/
theorem components_ofComponents {components : List Component} (orderly : Orderly components) :
    (ofComponents components).components = components := by
  induction components using List.reverseRecOn with
  | nil => rfl
  | append_singleton front component ih =>
    have before := ih (orderly.of_start (List.prefix_append front [component]))
    have leading (first : component = .root ∨ component = .current) : front = [] := by
      cases front with
      | nil => rfl
      | cons top rest =>
        obtain ⟨inside, undotted⟩ := orderly.inner component (by simp)
        exact absurd first (not_or.mpr ⟨inside, undotted⟩)
    rw [ofComponents_concat]
    cases component with
    | root =>
      rw [leading (.inl rfl)]
      rfl
    | current =>
      rw [leading (.inr rfl)]
      rfl
    | parent =>
      have single : (⟨Component.parent.bytes⟩ : Path).components = [.parent] := rfl
      rw [components_join_relative _ (by simp [single]) (by simp [single]), before, single]
    | name name =>
      rw [Component.bytes, components_join (orderly.plain name (by simp)), before]

private theorem prefix_sharedStart_iff (front first second : List Component) :
    front <+: sharedStart first second ↔ front <+: first ∧ front <+: second := by
  induction first generalizing front second with
  | nil => simp +contextual [sharedStart]
  | cons a first ih =>
    cases second with
    | nil => simp +contextual [sharedStart]
    | cons b second =>
      cases front with
      | nil => simp
      | cons c front =>
        rw [sharedStart]
        split
        · next same =>
          subst same
          rw [List.cons_prefix_cons, List.cons_prefix_cons, List.cons_prefix_cons, ih]
          tauto
        · next apart =>
          simp only [List.prefix_nil, List.cons_prefix_cons, reduceCtorEq, false_iff]
          rintro ⟨⟨rfl, _⟩, rfl, _⟩
          exact apart rfl

/-- What starts all that is left when one path after another was looked at. -/
theorem prefix_foldl_sharedStart_iff (paths : List Path) (front start : List Component) :
    front <+: paths.foldl (fun shared path => sharedStart shared path.components) start ↔
      front <+: start ∧ ∀ path ∈ paths, front <+: path.components := by
  induction paths generalizing start with
  | nil => simp
  | cons path rest ih =>
    rw [List.foldl_cons, ih, prefix_sharedStart_iff, List.forall_mem_cons, and_assoc]

section

variable {paths : List Path}

theorem exists_common (paths : List Path) :
    ∃ shared, Orderly shared ∧ common paths = ofComponents shared ∧
      (paths ≠ [] → ∀ front, front <+: shared ↔ ∀ path ∈ paths, front <+: path.components) := by
  cases paths with
  | nil => exact ⟨[], ⟨by simp, by simp⟩, rfl, fun nonempty => absurd rfl nonempty⟩
  | cons first rest =>
    have greatest := prefix_foldl_sharedStart_iff rest
    refine ⟨_, (orderly_components first).of_start ((greatest _ _).mp List.prefix_rfl).1, rfl, ?_⟩
    intro _ front
    rw [greatest, List.forall_mem_cons]

/-- What starts all paths starts their common path, and what starts that starts all of them. -/
theorem prefix_common_iff (nonempty : paths ≠ []) (front : List Component) :
    front <+: (common paths).components ↔ ∀ path ∈ paths, front <+: path.components := by
  obtain ⟨shared, orderly, spelled, greatest⟩ := exists_common paths
  rw [spelled, components_ofComponents orderly]
  exact greatest nonempty front

private theorem ofComponents_common (paths : List Path) :
    ofComponents (common paths).components = common paths := by
  obtain ⟨shared, orderly, spelled, _⟩ := exists_common paths
  rw [spelled, components_ofComponents orderly]

theorem common_starts {path : Path} (member : path ∈ paths) :
    (common paths).components <+: path.components :=
  (prefix_common_iff (List.ne_nil_of_mem member) _).mp List.prefix_rfl path member

end

/-- The common path of some paths is the longest one that all of them start with. It is the same for
every list that holds the same paths, in whichever order and however often. -/
theorem common_greatest (paths : List Path) (nonempty : paths ≠ []) :
    (∀ path ∈ paths, path.startsWith (common paths) = true) ∧
    (∀ base, (∀ path ∈ paths, path.startsWith base = true) →
      (common paths).startsWith base = true) ∧
    ∀ others, (∀ path, path ∈ others ↔ path ∈ paths) → common others = common paths := by
  simp only [startsWith_iff]
  refine ⟨fun path member => common_starts member,
    fun base above => (prefix_common_iff nonempty _).mpr above, ?_⟩
  intro others same
  have nonempty' : others ≠ [] := by
    obtain ⟨path, member⟩ := List.exists_mem_of_ne_nil paths nonempty
    exact List.ne_nil_of_mem ((same path).mpr member)
  have alike (front : List Component) :
      front <+: (common others).components ↔ front <+: (common paths).components := by
    simp only [prefix_common_iff nonempty', prefix_common_iff nonempty, same]
  have below := (alike _).mp List.prefix_rfl
  have above := (alike _).mpr List.prefix_rfl
  have equal := below.eq_of_length (Nat.le_antisymm below.length_le above.length_le)
  rw [← ofComponents_common others, equal, ofComponents_common]

def outskirts : List Path :=
  ["../w//src/./a.rs", "../w/src2/b.rs", "../w/src/c/"]

theorem common_greatest_outskirts :
    outskirts ≠ [] ∧ common outskirts = "../w" ∧
    (∀ path ∈ outskirts, path.startsWith "../w" = true) ∧
    (common outskirts).startsWith ".././" = true ∧
    common (outskirts.reverse ++ outskirts) = "../w" := by
  have nonempty : outskirts ≠ [] := by simp [outskirts]
  have spelled : common outskirts = "../w" := by decide +kernel
  obtain ⟨starts, greatest, same⟩ := common_greatest outskirts nonempty
  refine ⟨nonempty, spelled, spelled ▸ starts, greatest ".././" (by decide +kernel), ?_⟩
  rw [same _ (by simp), spelled]

end CrateAtlas.Path
