import CrateAtlas.Proofs.BuildOutcome

/-!
Discovery from left to right comes to an end. A file is claimed before it is entered, and only a file
that can be parsed leads on to others, so the files that can be parsed and are not claimed yet bound
how deeply imports are followed.
-/

namespace CrateAtlas

open Discovery Job

def Registry.isClaimed (registry : Registry) (path : Path) : Bool :=
  registry.claimed.any fun index => (registry.pathOf? index).any fun known => known.same path

theorem Registry.isClaimed_iff {registry : Registry} {path : Path} :
    registry.isClaimed path = true ↔ ∃ index ∈ registry.claimed, registry.Numbers index path := by
  simp [isClaimed, Numbers, Option.any_eq_true]

def Registry.unclaimed (registry : Registry) (files : List Path) : Nat :=
  files.countP fun file => !registry.isClaimed file

theorem Registry.Extends.unclaimed_le {earlier later : Registry} (extended : earlier.Extends later)
    (files : List Path) : later.unclaimed files ≤ earlier.unclaimed files := by
  apply List.countP_mono_left
  intro file _ free
  rw [Bool.not_eq_true', Bool.eq_false_iff] at free ⊢
  intro taken
  obtain ⟨index, claimed, numbered⟩ := isClaimed_iff.mp taken
  exact free (isClaimed_iff.mpr ⟨index, extended.claims claimed, numbered.extend extended⟩)

private theorem Registry.unclaimed_lt {registry : Registry} (sound : registry.Sound) {files : List Path}
    {index : Nat} {file : Path} (member : file ∈ files) (numbered : registry.Numbers index file)
    (fresh : index ∉ registry.claimed) :
    ({ registry with claimed := index :: registry.claimed } : Registry).unclaimed files <
      registry.unclaimed files := by
  have extended := registry.claim_extends index
  have free : registry.isClaimed file = false := by
    rw [Bool.eq_false_iff]
    intro taken
    obtain ⟨other, claimed, same⟩ := isClaimed_iff.mp taken
    exact fresh (sound.distinct numbered same ▸ claimed)
  have taken : ({ registry with claimed := index :: registry.claimed } : Registry).isClaimed file = true :=
    isClaimed_iff.mpr ⟨index, List.mem_cons_self, numbered.extend extended⟩
  obtain ⟨before, after, rfl⟩ := List.append_of_mem member
  have less := extended.unclaimed_le before
  have lessAfter := extended.unclaimed_le after
  simp only [unclaimed] at less lessAfter ⊢
  rw [List.countP_append, List.countP_append, List.countP_cons, List.countP_cons, free, taken]
  simp only [Bool.not_false, Bool.not_true, if_true, Bool.false_eq_true, if_false]
  omega

section

variable {around : Surroundings} {entry : Path} {files : List Path} {fuel : Nat}

/-- Some files are all that can be parsed of those that imports lead to, in whatever spelling. -/
def Covers (around : Surroundings) (entry : Path) (files : List Path) : Prop :=
  ∀ path outline, Reached around entry path → around.parse path = .ok outline →
    ∃ file ∈ files, file.components = path.components

def Enough (around : Surroundings) (files : List Path) (registry : Registry) (path : Path)
    (fuel : Nat) : Prop :=
  0 < fuel ∧ ∀ outline, around.parse path = .ok outline → registry.unclaimed files + 2 ≤ fuel

def Suffices (around : Surroundings) (entry : Path) (files : List Path) (fuel : Nat) : Prop :=
  ∀ index path state rest, Consistent around entry (.parse index path ::ₘ rest) state →
    Enough around files state.registry path fuel →
    ∃ answer, process around fuel index path state = some answer

private theorem visit_total (covers : Covers around entry files)
    (processes : Suffices around entry files fuel)
    {child : Nat} {state : Discovery} {rest : Multiset Job}
    (holds : Consistent around entry (.visit child ::ₘ rest) state)
    (enough : state.registry.unclaimed files + 1 ≤ fuel) :
    ∃ later, visit (process around fuel) state child = some later := by
  rcases state.registry.claim_cases child with ⟨_, taken⟩ | ⟨fresh, claimed⟩
  · exact ⟨state, by simp [Discovery.visit, taken]⟩
  · have inside : child < state.registry.size := holds.fits (.visit child) (Multiset.mem_cons_self _ _)
    obtain ⟨path, known⟩ := Registry.exists_pathOf? inside
    have first : (state.registry.claim child).1 = true := by rw [claimed]
    have started := holds.after_advance (.claim first)
    have fewer (outline : FileOutline) (parsed : around.parse path = .ok outline) :
        (state.registry.claim child).2.unclaimed files + 2 ≤ fuel := by
      -- the child is one of the files and was not claimed before, so that fewer are left now
      obtain ⟨file, member, same⟩ := covers path outline (holds.reached child path known) parsed
      have less := Registry.unclaimed_lt holds.sound member ⟨path, known, same.symm⟩ fresh
      simp only [claimed]
      omega
    have found : (state.registry.claim child).2.pathOf? child = some path := by
      rw [claimed]
      exact known
    have looked : Consistent around entry (.parse child path ::ₘ rest)
        { state with registry := (state.registry.claim child).2 } :=
      started.after_advance (Advance.lookup found)
    obtain ⟨⟨result, later⟩, processed⟩ := processes child path _ rest looked ⟨by omega, fewer⟩
    unfold Discovery.visit
    simp only [first, if_true, found, processed]
    cases result with
    | ok value => exact ⟨later, rfl⟩
    | error error => exact ⟨later.warn (.parseError path error.message), rfl⟩

private theorem visit_consistent {index child : Nat} {path : Path} {state later : Discovery}
    {rest : Multiset Job}
    (holds : Consistent around entry (.follow index path [] ::ₘ .visit child ::ₘ rest) state)
    (visited : visit (process around fuel) state child = some later) :
    Consistent around entry (.follow index path [] ::ₘ rest) later ∧
      state.registry.Extends later.registry := by
  have built := visit_build (process_build fuel) index path [] [] visited
  have before : (active (.follow index path ([] ++ .visit child :: []))) + rest =
      .follow index path [] ::ₘ .visit child ::ₘ rest := by
    simp [active, activeAll]
  have after : (active (.follow index path ([] ++ .done :: []))) + rest =
      .follow index path [] ::ₘ rest := by
    simp [active, activeAll]
  rw [← before] at holds
  rw [← after]
  exact ⟨holds.after_steps built, build_extends built⟩

private theorem visits_total (covers : Covers around entry files)
    (processes : Suffices around entry files fuel)
    {index : Nat} {path : Path} {imports : List Nat} {state : Discovery} {rest : Multiset Job}
    (holds : Consistent around entry
      (.follow index path [] ::ₘ ((imports : Multiset Nat).map .visit + rest)) state)
    (enough : state.registry.unclaimed files + 1 ≤ fuel) :
    ∃ later, imports.foldlM (visit (process around fuel)) state = some later := by
  induction imports generalizing state with
  | nil => exact ⟨state, rfl⟩
  | cons child others ih =>
    rw [← Multiset.cons_coe, Multiset.map_cons, Multiset.cons_add] at holds
    obtain ⟨middle, visited⟩ := visit_total covers processes
      (Multiset.cons_swap _ _ _ ▸ holds) enough
    obtain ⟨kept, extended⟩ := visit_consistent holds visited
    have fewer := extended.unclaimed_le files
    obtain ⟨later, others⟩ := ih kept (by omega)
    exact ⟨later, by rw [List.foldlM_cons, visited]; exact others⟩

private theorem process_total (covers : Covers around entry files) (fuel : Nat) :
    Suffices around entry files fuel := by
  induction fuel with
  | zero =>
    intro index path state rest _ enough
    exact absurd enough.1 (Nat.lt_irrefl 0)
  | succ fuel ih =>
    intro index path state rest holds enough
    rw [process]
    cases analyzed : (state.askHistory around path).analyze around index path with
    | mk answer middle =>
      cases answer with
      | error error => exact ⟨_, rfl⟩
      | ok imports =>
        have built := analyze_build analyzed
        obtain ⟨outline, parsed⟩ := analyze_ok analyzed
        have fuelled := enough.2 outline parsed
        have fewer := (build_extends built).unclaimed_le files
        rw [← Multiset.singleton_add] at holds
        have followed := holds.after_steps built
        rw [active, activeAll_visits, Multiset.cons_add] at followed
        obtain ⟨later, visited⟩ := visits_total covers ih followed (by omega)
        exact ⟨_, congrArg (Option.map _) visited⟩

/-- Discovery ends if its fuel exceeds the number of files that it reaches and that can be parsed by
two. -/
theorem run_total (covers : Covers around entry files) (enough : files.length + 2 ≤ fuel) :
    ∃ outcome, run around fuel entry = some outcome := by
  have few : (begun entry).registry.unclaimed files ≤ files.length := List.countP_le_length
  obtain ⟨answer, processed⟩ := process_total covers fuel 0 entry (begun entry) 0
    (Consistent.of_begun around entry) ⟨by omega, fun _ _ => by omega⟩
  rw [begun_eq] at processed
  unfold run
  rw [start_intern]
  exact ⟨_, congrArg (Option.map _) processed⟩

end

section

variable {around : Surroundings} {entry : Path} {fuel more : Nat}

private theorem visit_mono
    {process later : Nat → Path → Discovery → Option (Except SourceError Unit × Discovery)}
    (kept : ∀ index path state answer, process index path state = some answer →
      later index path state = some answer)
    {index : Nat} {state final : Discovery} (visited : visit process state index = some final) :
    visit later state index = some final := by
  unfold Discovery.visit at visited ⊢
  cases first : (state.registry.claim index).1 with
  | false => simpa [first] using visited
  | true =>
    simp only [first, if_true] at visited ⊢
    cases known : (state.registry.claim index).2.pathOf? index with
    | none => simpa [known] using visited
    | some path =>
      simp only [known] at visited ⊢
      cases processed : process index path
          { state with registry := (state.registry.claim index).2 } with
      | none => simp [processed] at visited
      | some answer =>
        rw [processed] at visited
        rw [kept _ _ _ _ processed]
        exact visited

private theorem visits_mono
    {process later : Nat → Path → Discovery → Option (Except SourceError Unit × Discovery)}
    (kept : ∀ index path state answer, process index path state = some answer →
      later index path state = some answer)
    {imports : List Nat} {state final : Discovery}
    (visited : imports.foldlM (visit process) state = some final) :
    imports.foldlM (visit later) state = some final := by
  induction imports generalizing state with
  | nil => exact visited
  | cons child others ih =>
    rw [List.foldlM_cons] at visited ⊢
    obtain ⟨middle, first, rest⟩ := Option.bind_eq_some_iff.mp visited
    exact Option.bind_eq_some_iff.mpr ⟨middle, visit_mono kept first, ih rest⟩

/-- More fuel changes nothing about a file that has been processed. -/
theorem process_mono (enough : fuel ≤ more) {index : Nat} {path : Path} {state : Discovery}
    {answer : Except SourceError Unit × Discovery}
    (processed : process around fuel index path state = some answer) :
    process around more index path state = some answer := by
  induction fuel generalizing more index path state answer with
  | zero => simp [process] at processed
  | succ fuel ih =>
    obtain ⟨more, rfl⟩ : ∃ fewer, more = fewer + 1 := ⟨more - 1, by omega⟩
    rw [process] at processed ⊢
    cases analyzed : (state.askHistory around path).analyze around index path with
    | mk result middle =>
      rw [analyzed] at processed
      cases result with
      | error error => exact processed
      | ok imports =>
        obtain ⟨final, visited, same⟩ := Option.map_eq_some_iff.mp processed
        have again := visits_mono (fun _ _ _ _ => ih (by omega : fuel ≤ more)) visited
        exact Option.map_eq_some_iff.mpr ⟨final, again, same⟩

theorem run_mono {outcome : Except EntryError Findings × List Question}
    (ran : run around fuel entry = some outcome) (enough : fuel ≤ more) :
    run around more entry = some outcome := by
  unfold run at ran ⊢
  obtain ⟨answer, processed, same⟩ := Option.map_eq_some_iff.mp ran
  exact Option.map_eq_some_iff.mpr ⟨answer, process_mono enough processed, same⟩

end

end CrateAtlas
