import CrateAtlas.Proofs.Registry
import Mathlib.Data.Finset.Card
import Mathlib.Data.List.Dedup

/-!
Histories of a registry. Calls are served one at a time, whoever makes them, so what several callers
do together is one list of calls. What each of them is answered can be told from the calls before it.
-/

namespace CrateAtlas

namespace Path

/-- Of some paths the different ones, in order and as they are first spelled. -/
def firstSights : List Path → List Path
  | [] => []
  | path :: rest => path :: (firstSights rest).filter fun other => !path.same other

theorem firstSights_concat (paths : List Path) (path : Path) :
    firstSights (paths ++ [path]) =
      if paths.any (·.same path) then firstSights paths else firstSights paths ++ [path] := by
  induction paths with
  | nil => rfl
  | cons first rest ih =>
    rw [List.cons_append, firstSights, ih, firstSights, List.any_cons]
    by_cases known : rest.any (·.same path) = true
    · simp only [known, if_true, Bool.or_true]
    · by_cases alike : first.same path = true
      · simp [known, alike]
      · simp [known, alike]

theorem components_firstSights (paths : List Path) (components : List Component) :
    components ∈ (firstSights paths).map Path.components ↔
      components ∈ paths.map Path.components := by
  induction paths with
  | nil => rfl
  | cons first rest ih =>
    rw [firstSights, List.map_cons, List.map_cons, List.mem_cons, List.mem_cons, ← ih]
    simp only [List.mem_map, List.mem_filter]
    constructor
    · rintro (same | ⟨other, ⟨member, _⟩, same⟩)
      · exact .inl same
      · exact .inr ⟨other, member, same⟩
    · rintro (same | ⟨other, member, rfl⟩)
      · exact .inl same
      · by_cases alike : first.same other = true
        · exact .inl ((same_iff _ _).mp alike).symm
        · exact .inr ⟨other, ⟨member, by simp [Bool.eq_false_iff.mpr alike]⟩, rfl⟩

theorem firstSights_distinct (paths : List Path) :
    ((firstSights paths).map Path.components).Nodup := by
  induction paths with
  | nil => exact .nil
  | cons first rest ih =>
    rw [firstSights, List.map_cons, List.nodup_cons]
    refine ⟨?_, ih.sublist (List.filter_sublist.map _)⟩
    intro member
    obtain ⟨other, kept, alike⟩ := List.mem_map.mp member
    have apart := (List.mem_filter.mp kept).2
    simp [same, alike] at apart

private theorem length_firstSights (paths : List Path) :
    (firstSights paths).length = (paths.map Path.components).toFinset.card := by
  have listed : ((firstSights paths).map Path.components).toFinset =
      (paths.map Path.components).toFinset := by
    ext components
    rw [List.mem_toFinset, List.mem_toFinset, components_firstSights]
  rw [← listed, List.toFinset_card_of_nodup (firstSights_distinct paths), List.length_map]

theorem firstSights_inj {paths : List Path} {first second : Nat} {path other : Path}
    (found : (firstSights paths)[first]? = some path)
    (found' : (firstSights paths)[second]? = some other) :
    first = second ↔ path.components = other.components := by
  constructor
  · rintro rfl
    rw [Option.some.inj (found.symm.trans found')]
  · intro same
    have inside : first < ((firstSights paths).map Path.components).length := by
      rw [List.length_map]
      exact (List.getElem?_eq_some_iff.mp found).1
    apply (List.getElem?_inj inside (firstSights_distinct paths)).mp
    rw [List.getElem?_map, List.getElem?_map, found, found', Option.map_some, Option.map_some, same]

private theorem firstSights_prefix (paths more : List Path) :
    firstSights paths <+: firstSights (paths ++ more) := by
  induction more using List.reverseRecOn with
  | nil => simp
  | append_singleton more path ih =>
    rw [← List.append_assoc, firstSights_concat]
    split
    · exact ih
    · exact ih.trans (List.prefix_append _ _)

/-- A path keeps its place among the first sights when more paths are seen. -/
theorem firstSights_stays {paths whole : List Path} {index : Nat} {path : Path}
    (extended : paths <+: whole) (found : (firstSights paths)[index]? = some path) :
    (firstSights whole)[index]? = some path := by
  obtain ⟨more, rfl⟩ := extended
  obtain ⟨rest, same⟩ := firstSights_prefix paths more
  rw [← same, List.getElem?_append_left (List.getElem?_eq_some_iff.mp found).1, found]

end Path

namespace Registry

inductive Call where
  | intern (path : Path)
  | claim (index : Nat)
  | pathOf (index : Nat)
  deriving DecidableEq, Repr

inductive Answer where
  | index (index : Nat)
  | first (first : Bool)
  | path (path : Option Path)
  deriving DecidableEq, Repr

def serve (registry : Registry) : Call → Answer × Registry
  | .intern path => ((registry.intern path).1 |> .index, (registry.intern path).2)
  | .claim index => ((registry.claim index).1 |> .first, (registry.claim index).2)
  | .pathOf index => (.path (registry.pathOf? index), registry)

structure History where
  past : List (Call × Answer)
  registry : Registry
  deriving DecidableEq, Repr

namespace History

def next (history : History) (call : Call) : History :=
  let (answer, registry) := history.registry.serve call
  ⟨history.past ++ [(call, answer)], registry⟩

def ofCalls (calls : List Call) : History :=
  calls.foldl next ⟨[], .empty⟩

theorem ofCalls_concat (calls : List Call) (call : Call) :
    ofCalls (calls ++ [call]) = (ofCalls calls).next call := by
  simp [ofCalls]

def interned (past : List (Call × Answer)) : List Path :=
  past.filterMap fun entry =>
    match entry.1 with
    | .intern path => some path
    | _ => none

private theorem mem_interned {past : List (Call × Answer)} {path : Path} :
    path ∈ interned past ↔ ∃ answer, (.intern path, answer) ∈ past := by
  simp only [interned, List.mem_filterMap]
  constructor
  · rintro ⟨⟨call, answer⟩, member, named⟩
    cases call with
    | intern other =>
      cases named
      exact ⟨answer, member⟩
    | _ => cases named
  · rintro ⟨answer, member⟩
    exact ⟨_, member, rfl⟩

@[simp] theorem interned_concat (past : List (Call × Answer)) (call : Call) (answer : Answer) :
    interned (past ++ [(call, answer)]) =
      match call with
      | .intern path => interned past ++ [path]
      | _ => interned past := by
  cases call <;> simp [interned]

/-- The answer that a call gets after some past: a path gets its place in the order of first sights, and
a number is claimed by the first call that does so. -/
def Fits (past : List (Call × Answer)) : Call → Answer → Prop
  | .intern path, .index index =>
    ∃ sighted, (Path.firstSights (interned past ++ [path]))[index]? = some sighted ∧
      sighted.same path = true
  | .claim index, .first first => first = true ↔ ∀ answer, (.claim index, answer) ∉ past
  | .pathOf index, .path path => path = (Path.firstSights (interned past))[index]?
  | _, _ => False

/-- The registry holds what the past says: the first sights in order, and the numbers claimed. -/
structure Agrees (past : List (Call × Answer)) (registry : Registry) : Prop where
  paths : ∀ index, registry.pathOf? index = (Path.firstSights (interned past))[index]?
  claims : ∀ index, index ∈ registry.claimed ↔ ∃ answer, (.claim index, answer) ∈ past

namespace Agrees

variable {past : List (Call × Answer)} {registry : Registry}

private theorem empty : Agrees [] .empty where
  paths index := by simp [pathOf?, Registry.empty, interned, Path.firstSights]
  claims index := by simp [Registry.empty]

theorem size (agrees : Agrees past registry) :
    registry.size = (Path.firstSights (interned past)).length := by
  apply Nat.le_antisymm
  · by_contra more
    obtain ⟨path, known⟩ := exists_pathOf? (Nat.lt_of_not_le more)
    rw [agrees.paths, List.getElem?_eq_none (Nat.le_refl _)] at known
    cases known
  · by_contra more
    have known := agrees.paths registry.size
    rw [List.getElem?_eq_getElem (Nat.lt_of_not_le more)] at known
    exact Nat.lt_irrefl _ (lt_size_of_pathOf? known)

theorem numbers_iff (agrees : Agrees past registry) (index : Nat) (path : Path) :
    registry.Numbers index path ↔
      ∃ sighted, (Path.firstSights (interned past))[index]? = some sighted ∧
        sighted.same path = true := by
  simp only [Numbers, agrees.paths, Path.same_iff]

private theorem any_interned (agrees : Agrees past registry) (path : Path) :
    (interned past).any (·.same path) = true ↔ ∃ index, registry.Numbers index path := by
  have listed := Path.components_firstSights (interned past) path.components
  simp only [List.mem_map] at listed
  simp only [List.any_eq_true, Path.same_iff]
  rw [← listed]
  simp only [agrees.numbers_iff, Path.same_iff, List.mem_iff_getElem?]
  constructor
  · rintro ⟨sighted, ⟨index, found⟩, alike⟩
    exact ⟨index, sighted, found, alike⟩
  · rintro ⟨index, sighted, found, alike⟩
    exact ⟨sighted, ⟨index, found⟩, alike⟩

private theorem intern (agrees : Agrees past registry) (path : Path) :
    Fits past (.intern path) (.index (registry.intern path).1) ∧
      Agrees (past ++ [(.intern path, .index (registry.intern path).1)]) (registry.intern path).2 := by
  have grown := Path.firstSights_concat (interned past) path
  have claims (index : Nat) : index ∈ (registry.intern path).2.claimed ↔
      ∃ answer, (Call.claim index, answer) ∈
        past ++ [(.intern path, .index (registry.intern path).1)] := by
    simp [agrees.claims]
  rcases registry.intern_cases path with ⟨numbered, same⟩ | ⟨unnumbered, last, pushed⟩
  · rw [if_pos ((agrees.any_interned path).mpr ⟨_, numbered⟩)] at grown
    have paths (index : Nat) : (registry.intern path).2.pathOf? index =
        (Path.firstSights (interned past ++ [path]))[index]? := by
      rw [grown, same, agrees.paths]
    refine ⟨?_, by simpa using paths, claims⟩
    change ∃ sighted, _
    rw [grown]
    exact (agrees.numbers_iff _ path).mp numbered
  · have unseen : ¬ (interned past).any (·.same path) = true := by
      rw [agrees.any_interned]
      rintro ⟨index, numbered⟩
      exact unnumbered index numbered
    rw [if_neg unseen] at grown
    have paths (index : Nat) : (registry.intern path).2.pathOf? index =
        (Path.firstSights (interned past ++ [path]))[index]? := by
      rw [grown, pushed, pathOf?_push, agrees.size, agrees.paths, List.getElem?_append]
      rcases Nat.lt_trichotomy index (Path.firstSights (interned past)).length with old | new | beyond
      · rw [if_neg (by omega), if_pos old]
      · simp [new]
      · rw [if_neg (by omega), if_neg (by omega), List.getElem?_eq_none (by omega),
          List.getElem?_eq_none (by simp; omega)]
    refine ⟨?_, by simpa using paths, claims⟩
    change ∃ sighted, _
    rw [grown, last, agrees.size]
    exact ⟨path, by simp, by simp⟩

private theorem claim (agrees : Agrees past registry) (index : Nat) :
    Fits past (.claim index) (.first (registry.claim index).1) ∧
      Agrees (past ++ [(.claim index, .first (registry.claim index).1)])
        (registry.claim index).2 := by
  have claimed (first : Bool) (other : Nat) :
      (∃ answer, (Call.claim other, answer) ∈ past ++ [(.claim index, .first first)]) ↔
        other = index ∨ other ∈ registry.claimed := by
    rw [agrees.claims]
    simp only [List.mem_append, List.mem_singleton, Prod.mk.injEq, Call.claim.injEq]
    constructor
    · rintro ⟨answer, member | ⟨same, _⟩⟩
      · exact .inr ⟨answer, member⟩
      · exact .inl same
    · rintro (same | ⟨answer, member⟩)
      · exact ⟨_, .inr ⟨same, rfl⟩⟩
      · exact ⟨answer, .inl member⟩
  have paths (first : Bool) (other : Nat) : registry.pathOf? other =
      (Path.firstSights (interned (past ++ [(.claim index, .first first)])))[other]? := by
    simpa using agrees.paths other
  rcases registry.claim_cases index with ⟨taken, answered⟩ | ⟨free, answered⟩
  · rw [answered]
    refine ⟨?_, paths false, fun other => ?_⟩
    · change false = true ↔ _
      simpa using (agrees.claims index).mp taken
    · rw [claimed]
      exact ⟨.inr, fun either => either.elim (fun same => same ▸ taken) id⟩
  · rw [answered]
    refine ⟨?_, paths true, fun other => ?_⟩
    · change true = true ↔ _
      simpa [agrees.claims] using free
    · rw [claimed, List.mem_cons]

/-- Serving a call gives the answer that the past asks for, and the registry still agrees. -/
theorem serve (agrees : Agrees past registry) (call : Call) :
    Fits past call (registry.serve call).1 ∧
      Agrees (past ++ [(call, (registry.serve call).1)]) (registry.serve call).2 := by
  cases call with
  | intern path => exact agrees.intern path
  | claim index => exact agrees.claim index
  | pathOf index =>
    refine ⟨agrees.paths index, fun other => ?_, fun other => ?_⟩
    · simp [Registry.serve, agrees.paths]
    · simp [Registry.serve, agrees.claims]

end Agrees

theorem ofCalls_agrees (calls : List Call) :
    Agrees (ofCalls calls).past (ofCalls calls).registry := by
  induction calls using List.reverseRecOn with
  | nil => exact .empty
  | append_singleton calls call ih =>
    rw [ofCalls_concat]
    exact (ih.serve call).2

private theorem ofCalls_calls (calls : List Call) : (ofCalls calls).past.map Prod.fst = calls := by
  induction calls using List.reverseRecOn with
  | nil => rfl
  | append_singleton calls call ih =>
    rw [ofCalls_concat, next, List.map_append, ih]
    rfl

/-- Whatever happens later, each call was answered as its own past asks for. -/
theorem ofCalls_fits (calls : List Call) {earlier later : List (Call × Answer)} {call : Call}
    {answer : Answer} (split : (ofCalls calls).past = earlier ++ (call, answer) :: later) :
    Fits earlier call answer := by
  induction calls using List.reverseRecOn generalizing later with
  | nil => simp [ofCalls] at split
  | append_singleton calls last ih =>
    rw [ofCalls_concat] at split
    change (ofCalls calls).past ++ [(last, ((ofCalls calls).registry.serve last).1)] = _ at split
    rcases List.eq_nil_or_concat' later with rfl | ⟨between, final, rfl⟩
    · obtain ⟨same, entry⟩ := List.append_inj' split rfl
      obtain ⟨rfl, rfl⟩ := Prod.mk.inj (List.singleton_inj.mp entry)
      rw [← same]
      exact ((ofCalls_agrees calls).serve last).1
    · rw [← List.cons_append, ← List.append_assoc] at split
      exact ih (List.append_inj' split rfl).1

private theorem ofCalls_interned_take (calls more : List Call) :
    interned (ofCalls calls).past <+: interned (ofCalls (calls ++ more)).past := by
  induction more using List.reverseRecOn with
  | nil => simp
  | append_singleton more call ih =>
    rw [← List.append_assoc, ofCalls_concat]
    refine ih.trans ?_
    simp only [next, interned, List.filterMap_append]
    exact List.prefix_append _ _

/-- The number that a path was interned under is its place among the first sights of the whole past. -/
theorem sighted_of_interned (calls : List Call) {path : Path} {index : Nat}
    (member : (.intern path, .index index) ∈ (ofCalls calls).past) :
    ∃ sighted, (Path.firstSights (interned (ofCalls calls).past))[index]? = some sighted ∧
      sighted.components = path.components := by
  obtain ⟨earlier, later, split⟩ := List.append_of_mem member
  obtain ⟨sighted, found, alike⟩ : Fits earlier (.intern path) (.index index) :=
    ofCalls_fits calls split
  refine ⟨sighted, Path.firstSights_stays ?_ found, (Path.same_iff _ _).mp alike⟩
  exact ⟨interned later, by simp [split, interned]⟩

private theorem interned_of_lt (calls : List Call) {index : Nat}
    (inside : index < (ofCalls calls).registry.size) :
    ∃ path, (.intern path, .index index) ∈ (ofCalls calls).past := by
  rw [(ofCalls_agrees calls).size] at inside
  have found := List.getElem?_eq_getElem inside
  have listed := (Path.components_firstSights (interned (ofCalls calls).past) _).mp
    (List.mem_map_of_mem (List.getElem_mem inside))
  obtain ⟨path, member, alike⟩ := List.mem_map.mp listed
  obtain ⟨answer, answered⟩ := mem_interned.mp member
  obtain ⟨earlier, later, split⟩ := List.append_of_mem answered
  have fits := ofCalls_fits calls split
  cases answer with
  | index other =>
    obtain ⟨sighted, found', alike'⟩ := sighted_of_interned calls answered
    rw [(Path.firstSights_inj found found').mpr (alike.symm.trans alike'.symm)]
    exact ⟨path, answered⟩
  | first first => exact fits.elim
  | path other => exact fits.elim

/-- A path that is seen for the first time gets the next number and keeps it, spelled as it is. -/
theorem first_sight (calls : List Call) {earlier later : List (Call × Answer)} {path : Path}
    {index : Nat} (split : (ofCalls calls).past = earlier ++ (.intern path, .index index) :: later)
    (new : ∀ other ∈ interned earlier, other.same path = false) :
    index = (Path.firstSights (interned earlier)).length ∧
      ∀ more, (ofCalls (calls ++ more)).registry.pathOf? index = some path := by
  have unseen : ¬ (interned earlier).any (·.same path) = true := by
    rw [Bool.not_eq_true, List.any_eq_false]
    exact fun other member => Bool.not_eq_true _ ▸ new other member
  have grown := Path.firstSights_concat (interned earlier) path
  rw [if_neg unseen] at grown
  have last : (Path.firstSights (interned earlier ++ [path]))[
      (Path.firstSights (interned earlier)).length]? = some path := by
    simp [grown]
  obtain ⟨sighted, found, alike⟩ : Fits earlier (.intern path) (.index index) :=
    ofCalls_fits calls split
  have place := (Path.firstSights_inj found last).mpr ((Path.same_iff _ _).mp alike)
  refine ⟨place, fun more => ?_⟩
  rw [(ofCalls_agrees _).paths, place]
  refine Path.firstSights_stays (List.IsPrefix.trans ?_ (ofCalls_interned_take calls more)) last
  exact ⟨interned later, by simp [split, interned]⟩

/-- The answers of a registry over any history of calls. Paths get one number each, however they are
spelled, in the order of their first sights; a number keeps the spelling that was seen first, and the
first claim of a number succeeds, be it in use or not. -/
theorem ofCalls_orderly (calls : List Call) :
    (ofCalls calls).past.map Prod.fst = calls ∧
    (∀ earlier call answer later, (ofCalls calls).past = earlier ++ (call, answer) :: later →
      Fits earlier call answer) ∧
    (∀ path other index index', (.intern path, .index index) ∈ (ofCalls calls).past →
      (.intern other, .index index') ∈ (ofCalls calls).past →
        (index = index' ↔ path.same other = true)) ∧
    (∀ index, (∃ path, (.intern path, .index index) ∈ (ofCalls calls).past) ↔
      index < (ofCalls calls).registry.size) ∧
    (∀ earlier path index later,
      (ofCalls calls).past = earlier ++ (.intern path, .index index) :: later →
      (∀ other ∈ interned earlier, other.same path = false) →
        index = ((interned earlier).map Path.components).toFinset.card ∧
        ∀ more, (ofCalls (calls ++ more)).registry.pathOf? index = some path) ∧
    (∀ index, (ofCalls calls).registry.pathOf? index = none ↔
      (ofCalls calls).registry.size ≤ index) ∧
    (ofCalls calls).registry.size =
      ((interned (ofCalls calls).past).map Path.components).toFinset.card := by
  have agrees := ofCalls_agrees calls
  refine ⟨ofCalls_calls calls, fun _ _ _ _ => ofCalls_fits calls, ?_, ?_, ?_, ?_, ?_⟩
  · intro path other index index' member member'
    obtain ⟨sighted, found, alike⟩ := sighted_of_interned calls member
    obtain ⟨sighted', found', alike'⟩ := sighted_of_interned calls member'
    rw [Path.firstSights_inj found found', alike, alike', Path.same_iff]
  · intro index
    refine ⟨?_, interned_of_lt calls⟩
    rintro ⟨path, member⟩
    obtain ⟨_, found, _⟩ := sighted_of_interned calls member
    rw [agrees.size]
    exact (List.getElem?_eq_some_iff.mp found).1
  · intro earlier path index later split new
    rw [← Path.length_firstSights]
    exact first_sight calls split new
  · intro index
    rw [agrees.paths, agrees.size, List.getElem?_eq_none_iff]
  · rw [agrees.size, Path.length_firstSights]

example : (ofCalls [.intern "a//b", .claim 7, .intern "./a", .intern "a/b/", .claim 0, .claim 7,
      .pathOf 0, .pathOf 2]).past.map Prod.snd =
    [.index 0, .first true, .index 1, .index 0, .first true, .first false, .path (some (.ofText "a//b")),
      .path none] := by
  decide +kernel

end History

end Registry

end CrateAtlas
