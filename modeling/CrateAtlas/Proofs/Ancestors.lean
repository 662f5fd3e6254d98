import CrateAtlas.Proofs.CommonPath

/-!
The paths above a path. They leave out components at its end, one after another, up to a root or to the
empty path. What they denote are the directories that are passed on the way to what the path denotes, the
last one first: every directory above that is passed, apart from those above the current one, but others
may be as well if the path has a `..` in it.
-/

namespace CrateAtlas

namespace Path

/-- A path has a parent unless it is a root or empty, with all of its components but the last. -/
theorem parent?_cases (path : Path) :
    (path.parent? = none ∧ (path.components = [] ∨ path.components = [.root])) ∨
    ∃ parent last, path.parent? = some parent ∧ last ≠ .root ∧
      path.components = parent.components ++ [last] := by
  rcases List.eq_nil_or_concat' path.pieces with nothing | ⟨front, last, ends⟩
  · exact .inl ⟨by simp [parent?, nothing], .inl (by simp [components, nothing])⟩
  have whole : path.components = front.map (·.component) ++ [last.component] := by
    simp [components, ends]
  by_cases root : last.component = .root
  · -- a root stands at the front only, so nothing comes before it
    have single : front = [] := by
      cases front with
      | nil => rfl
      | cons top front =>
        have inner := (orderly_components path).inner last.component (by simp [whole])
        exact absurd root inner.1
    exact .inl ⟨by simp [parent?, ends, root], .inr (by simp [whole, single, root])⟩
  · have above : path.parent? = some (path.slice 0 ((front.getLast?.map (·.stop)).getD 0)) := by
      simp [parent?, ends, root]
    refine .inr ⟨_, last.component, above, root, ?_⟩
    rcases List.eq_nil_or_concat' front with rfl | ⟨before, piece, rfl⟩
    · rw [List.getLast?_nil, Option.map_none, Option.getD_none]
      exact whole
    · rw [List.append_assoc] at ends
      rw [List.getLast?_concat, Option.map_some, Option.getD_some, components_slice_front ends]
      exact whole

variable {path parent above : Path}

theorem components_of_parent? (found : path.parent? = some parent) :
    ∃ last, last ≠ .root ∧ path.components = parent.components ++ [last] := by
  rcases parent?_cases path with ⟨none, _⟩ | ⟨other, last, found', inner, whole⟩
  · cases found.symm.trans none
  · obtain rfl := Option.some.inj (found.symm.trans found')
    exact ⟨last, inner, whole⟩

private theorem components_of_top (top : path.parent? = none) :
    path.components = [] ∨ path.components = [.root] := by
  rcases parent?_cases path with ⟨_, few⟩ | ⟨_, _, found, _⟩
  · exact few
  · cases top.symm.trans found

@[elab_as_elim]
theorem parent_induction {motive : Path → Prop} (top : ∀ path, path.parent? = none → motive path)
    (below : ∀ path parent, path.parent? = some parent → motive parent → motive path) (path : Path) :
    motive path := by
  induction length : path.components.length generalizing path with
  | zero =>
    rcases parent?_cases path with ⟨none, _⟩ | ⟨_, _, _, _, whole⟩
    · exact top path none
    · simp [whole] at length
  | succ size ih =>
    rcases parent?_cases path with ⟨none, _⟩ | ⟨parent, _, found, _, whole⟩
    · exact top path none
    · have shorter : parent.components.length = size := by simpa [whole] using length
      exact below path parent found (ih parent shorter)

theorem ancestors_top (top : path.parent? = none) : path.ancestors = [path] := by
  unfold ancestors
  cases path.components.length with
  | zero => rfl
  | succ count => simp [ancestorsUpTo, top]

theorem ancestors_below (found : path.parent? = some parent) :
    path.ancestors = path :: parent.ancestors := by
  obtain ⟨last, _, whole⟩ := components_of_parent? found
  have size : path.components.length = parent.components.length + 1 := by simp [whole]
  rw [ancestors, size, ancestorsUpTo, found]
  rfl

@[elab_as_elim]
theorem ancestors_induction {motive : Path → Prop} (self : motive path)
    (up : ∀ below parent, below.parent? = some parent → motive below → motive parent)
    (member : above ∈ path.ancestors) : motive above := by
  induction path using parent_induction with
  | top path top =>
    rw [ancestors_top top, List.mem_singleton] at member
    exact member ▸ self
  | below path parent found ih =>
    rw [ancestors_below found] at member
    rcases List.mem_cons.mp member with rfl | further
    · exact self
    · exact ih (up path parent found self) further

theorem ancestors_eq_cons (path : Path) : ∃ rest, path.ancestors = path :: rest := by
  rcases parent?_cases path with ⟨top, _⟩ | ⟨parent, _, found, _⟩
  · exact ⟨[], ancestors_top top⟩
  · exact ⟨parent.ancestors, ancestors_below found⟩

theorem self_mem_ancestors (path : Path) : path ∈ path.ancestors := by
  obtain ⟨rest, whole⟩ := ancestors_eq_cons path
  simp [whole]

theorem components_of_mem_ancestors (member : above ∈ path.ancestors) :
    above.components <+: path.components := by
  refine ancestors_induction List.prefix_rfl (fun below parent found ih => ?_) member
  obtain ⟨last, _, whole⟩ := components_of_parent? found
  exact (whole ▸ List.prefix_append _ _).trans ih

theorem isAbsolute_of_parent? (found : path.parent? = some parent) :
    path.isAbsolute = parent.isAbsolute := by
  obtain ⟨last, inner, whole⟩ := components_of_parent? found
  rw [Bool.eq_iff_iff, isAbsolute_iff, isAbsolute_iff, whole]
  simp [Ne.symm inner]

theorem isAbsolute_of_mem_ancestors (member : above ∈ path.ancestors) :
    above.isAbsolute = path.isAbsolute := by
  refine ancestors_induction rfl (fun below parent found ih => ?_) member
  rw [← isAbsolute_of_parent? found, ih]

end Path

def Component.move (way : List Bytes) : Component → List Bytes
  | .name text => way ++ [text]
  | .parent => way.dropLast
  | _ => way

namespace FileSystem

open CrateAtlas.Path

def wayOf (files : FileSystem) (path : Path) : List Bytes :=
  path.components.foldl Component.move (if path.isAbsolute then [] else files.current)

/-- What a name denotes when it is joined to a path is found at the end of the way that the path describes. -/
def Leads (files : FileSystem) (path : Path) : Prop :=
  ∀ name, PlainName name → ∀ place, files.locate (path.join ⟨name⟩) = .ok place ↔
    place.way = files.wayOf path ++ [name] ∧ files.root.descend? place.way = some place.tree

variable {files : FileSystem} {path parent above : Path} {place : Place}

private theorem wayOf_top (top : path.parent? = none) :
    files.wayOf path = if path.isAbsolute then [] else files.current := by
  unfold wayOf
  rcases components_of_top top with few | few <;> rw [few] <;> rfl

theorem wayOf_below (found : path.parent? = some parent) :
    ∃ last, last ≠ .root ∧ last ∈ path.components ∧
      files.wayOf path = last.move (files.wayOf parent) := by
  obtain ⟨last, inner, whole⟩ := components_of_parent? found
  refine ⟨last, inner, by simp [whole], ?_⟩
  rw [wayOf, wayOf, whole, isAbsolute_of_parent? found, List.foldl_append]
  rfl

theorem exists_top (files : FileSystem) (path : Path) :
    ∃ before top, path.ancestors = before ++ [top] ∧
      files.wayOf top = if path.isAbsolute then [] else files.current := by
  induction path using parent_induction with
  | top path top => exact ⟨[], path, ancestors_top top, wayOf_top top⟩
  | below path parent found ih =>
    obtain ⟨before, top, split, start⟩ := ih
    rw [ancestors_below found, isAbsolute_of_parent? found, split]
    exact ⟨path :: before, top, rfl, start⟩

private theorem prefix_of_move {way dir : List Bytes} {component : Component}
    (up : dir <+: component.move way) : dir = component.move way ∨ dir <+: way := by
  cases component with
  | name text => exact (List.prefix_concat_iff.mp up).imp_left id
  | parent => exact .inr (up.trans (List.dropLast_prefix way))
  | root => exact .inr up
  | current => exact .inr up

/-- A directory above what a path describes is passed behind any path above it, or lies above that. -/
theorem passed_or_above {before after : List Path} (split : path.ancestors = before ++ above :: after)
    {dir : List Bytes} (up : dir <+: files.wayOf path) :
    (∃ passed ∈ before, files.wayOf passed = dir) ∨ dir <+: files.wayOf above := by
  induction before generalizing path with
  | nil =>
    obtain ⟨rest, whole⟩ := ancestors_eq_cons path
    obtain ⟨rfl, _⟩ := List.cons.inj (whole.symm.trans split)
    exact .inr up
  | cons first before ih =>
    rcases parent?_cases path with ⟨top, _⟩ | ⟨parent, _, found, _⟩
    · simp [ancestors_top top] at split
    · rw [ancestors_below found] at split
      obtain ⟨rfl, further⟩ := List.cons.inj split
      obtain ⟨last, _, _, moved⟩ := @wayOf_below files _ _ found
      rw [moved] at up
      -- the step up to the parent leaves no directory out but the path itself
      rcases prefix_of_move up with here | up
      · exact .inl ⟨path, List.mem_cons_self, moved.trans here.symm⟩
      · rcases ih further up with ⟨passed, member, there⟩ | higher
        · exact .inl ⟨passed, List.mem_cons_of_mem _ member, there⟩
        · exact .inr higher

theorem wayOf_above (names : .parent ∉ path.components) (member : above ∈ path.ancestors) :
    files.wayOf above <+: files.wayOf path := by
  -- that there is no `..` has to be carried along to the paths above
  have passed : .parent ∉ above.components ∧ files.wayOf above <+: files.wayOf path := by
    refine ancestors_induction ⟨names, List.prefix_rfl⟩ (fun below parent found ih => ?_) member
    obtain ⟨last, _, whole⟩ := components_of_parent? found
    refine ⟨fun dots => ih.1 (by simp [whole, dots]), List.IsPrefix.trans ?_ ih.2⟩
    obtain ⟨last, _, listed, moved⟩ := @wayOf_below files _ _ found
    rw [moved]
    cases last with
    | name text => exact List.prefix_append _ _
    | parent => exact absurd listed ih.1
    | root => exact List.prefix_rfl
    | current => exact List.prefix_rfl
  exact passed.2

theorem steps_move {components : List Component}
    (plain : ∀ name, .name name ∈ components → PlainName name) {start way : List Bytes}
    (followed : (components.filterMap Component.step?).foldlM files.step start = .ok way) :
    way = components.foldl Component.move start := by
  induction components generalizing start with
  | nil => exact (Except.ok.inj followed).symm
  | cons component rest ih =>
    have later := fun name member => plain name (List.mem_cons_of_mem component member)
    cases component with
    | root => exact ih later followed
    | current => exact ih later followed
    | name text =>
      obtain ⟨next, stepped, followed⟩ := bind_ok followed
      obtain ⟨rfl, _⟩ := (step_plain_iff (plain text List.mem_cons_self) next).mp stepped
      exact ih later followed
    | parent =>
      obtain ⟨next, stepped, followed⟩ := bind_ok followed
      have up : next = start.dropLast := by
        unfold step at stepped
        split at stepped
        · cases stepped
        · cases stepped
        · exact (Except.ok.inj stepped).symm
      rw [up] at followed
      exact ih later followed

theorem locate_wayOf (located : files.locate path = .ok place) : place.way = files.wayOf path :=
  steps_move (orderly_components path).plain (locate_steps located).1

private theorem leads_of_steps (followed : (path.components.filterMap Component.step?).foldlM files.step
    (if path.isAbsolute then [] else files.current) = .ok (files.wayOf path)) : files.Leads path := by
  intro name plain place
  have steps : ((path.join ⟨name⟩).components.filterMap Component.step?).foldlM files.step
      (if (path.join ⟨name⟩).isAbsolute then [] else files.current) =
        files.step (files.wayOf path) name := by
    rw [components_join plain, isAbsolute_join path (isAbsolute_plain plain), List.filterMap_append,
      List.foldlM_append, followed]
    exact bind_pure (files.step (files.wayOf path) name)
  constructor
  · intro located
    obtain ⟨reached, found⟩ := locate_steps located
    rw [steps] at reached
    exact ⟨((step_plain_iff plain _).mp reached).1, found⟩
  · rintro ⟨same, found⟩
    refine locate_of_steps plain ?_ found
    rw [steps, step_plain_iff plain]
    exact ⟨same, by rw [← same, found]; rfl⟩

theorem leads_of_located (located : files.locate path = .ok place) (member : above ∈ path.ancestors) :
    files.Leads above := by
  obtain ⟨rest, whole⟩ := components_of_mem_ancestors member
  have followed := (locate_steps located).1
  rw [← whole, ← isAbsolute_of_mem_ancestors member, List.filterMap_append, List.foldlM_append] at followed
  obtain ⟨way, before, _⟩ := bind_ok followed
  refine leads_of_steps ?_
  rw [before, steps_move (orderly_components above).plain before]
  rfl

theorem foldl_move_names (names start : List Bytes) :
    (names.map Component.name).foldl Component.move start = start ++ names := by
  induction names generalizing start with
  | nil => simp
  | cons name rest ih =>
    rw [List.map_cons, List.foldl_cons, ih]
    simp [Component.move]

theorem components_eq_wayOf (absolute : path.isAbsolute = true) (names : .parent ∉ path.components) :
    path.components = .root :: (files.wayOf path).map .name ∧
      ∀ name ∈ files.wayOf path, PlainName name := by
  have orderly := orderly_components path
  obtain ⟨rest, whole⟩ : ∃ rest, path.components = .root :: rest := by
    rw [components_eq, if_pos absolute]
    exact ⟨_, rfl⟩
  have named : rest = (rest.map Component.bytes).map .name := by
    rw [List.map_map]
    refine (List.map_id rest).symm.trans (List.map_congr_left fun component member => ?_)
    obtain ⟨inside, undotted⟩ := orderly.inner component (by simpa [whole] using member)
    cases component with
    | name text => rfl
    | parent => exact absurd (by simp [whole, member]) names
    | root => exact absurd rfl inside
    | current => exact absurd rfl undotted
  have way : files.wayOf path = rest.map Component.bytes := by
    rw [wayOf, absolute, if_pos rfl, whole, List.foldl_cons, named, foldl_move_names, ← named]
    rfl
  refine ⟨by rw [way, ← named, whole], fun name member => ?_⟩
  rw [way] at member
  apply orderly.plain
  rw [whole, named]
  exact List.mem_cons_of_mem _ (List.mem_map_of_mem member)

theorem leads_of_names (absolute : path.isAbsolute = true) (names : .parent ∉ path.components) :
    files.Leads path := by
  intro name plain place
  obtain ⟨spelled, front⟩ := @components_eq_wayOf files path absolute names
  have every : ∀ other ∈ files.wayOf path ++ [name], PlainName other := by
    simpa [or_imp, forall_and] using ⟨front, plain⟩
  have same : (path.join ⟨name⟩).components =
      (FileSystem.absolute (files.wayOf path ++ [name])).components := by
    rw [components_join plain, spelled, components_absolute every]
    simp
  have again : files.locate (path.join ⟨name⟩) = .ok place ↔
      files.locate (FileSystem.absolute (files.wayOf path ++ [name])) = .ok place := by
    refine ⟨fun located => ?_, locate_join plain same⟩
    rw [← join_absolute front plain] at same ⊢
    exact locate_join plain same.symm located
  rw [again, locate_absolute every (by simp)]
  constructor
  · rintro ⟨way, found⟩
    exact ⟨way, way ▸ found⟩
  · rintro ⟨way, found⟩
    exact ⟨way, way ▸ found⟩

end FileSystem

end CrateAtlas
