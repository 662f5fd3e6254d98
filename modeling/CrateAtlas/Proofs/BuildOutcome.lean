import CrateAtlas.Proofs.BuildInvariant

/-!
What a build gives when the job of its entry has returned: a registry from which nothing is missing,
warnings and questions that are those of its files, and an error only for an entry that cannot be read.
-/

namespace CrateAtlas

open Discovery Job

/-- A registry that holds a file for everything that is imported, and everything about its files. -/
structure Complete (around : Surroundings) (entry : Path) (registry : Registry) : Prop where
  sound : registry.Sound
  entered : registry.pathOf? 0 = some entry
  reached : ∀ index path, registry.pathOf? index = some path → Reached around entry path
  claimed : ∀ index, index < registry.size → index ∈ registry.claimed
  analysed : ∀ (index : Nat) (node : FileNode) (outline : FileOutline),
    registry.nodes[index]? = some node → around.parse node.path = .ok outline →
      node.Analysed around registry outline
  blank : ∀ (index : Nat) (node : FileNode) (error : SourceError),
    registry.nodes[index]? = some node → around.parse node.path = .error error → node.Blank
  recorded : ∀ (index : Nat) (node : FileNode), registry.nodes[index]? = some node →
    node.history = historyOf around node.path

private theorem Consistent.complete {around : Surroundings} {entry : Path} {parts : Multiset Job}
    {state : Discovery} (holds : Consistent around entry parts state)
    (idle : ∀ part ∈ parts, ∀ duty, ¬ part.Owes duty) : Complete around entry state.registry := by
  have met (duty : Duty) : duty.Met around state.registry := by
    rcases holds.duties duty with met | ⟨part, member, owes⟩
    · exact met
    · exact absurd owes (idle part member duty)
  have claimed (index : Nat) (inside : index < state.registry.size) :
      index ∈ state.registry.claimed := met (.claim index) inside
  have inside {index : Nat} {node : FileNode} (found : state.registry.nodes[index]? = some node) :
      index < state.registry.size := (Array.getElem?_eq_some_iff.mp found).1
  refine ⟨holds.sound, holds.entered, holds.reached, claimed, ?_, ?_, ?_⟩
  · intro index node outline found parsed
    exact met (.analyse index) (claimed index (inside found)) node outline found parsed
  · intro index node error found failed
    rcases holds.contents index node found with blank | ⟨outline, known⟩
    · exact blank
    · cases failed.symm.trans known.parsed
  · intro index node found
    exact met (.record index) (claimed index (inside found)) node found

def Registry.paths (registry : Registry) : List Path :=
  registry.nodes.toList.map (·.path)

theorem Registry.mem_paths {registry : Registry} {path : Path} :
    path ∈ registry.paths ↔ ∃ index, registry.pathOf? index = some path := by
  simp only [paths, List.mem_map, Array.mem_toList_iff, pathOf?_eq_some_iff, Array.mem_iff_getElem?]
  constructor
  · rintro ⟨node, ⟨index, found⟩, same⟩
    exact ⟨index, node, found, same⟩
  · rintro ⟨index, node, found, same⟩
    exact ⟨node, ⟨index, found⟩, same⟩

private theorem Registry.map_pathOf?_range (registry : Registry) :
    (List.range registry.size).map registry.pathOf? = registry.paths.map some := by
  apply List.ext_getElem
  · simp [paths, size]
  · intro index left right
    have inside : index < registry.nodes.size := by simpa [size] using left
    simp [paths, pathOf?, inside]

namespace Complete

variable {around : Surroundings} {entry : Path} {registry : Registry}

private theorem dues (complete : Complete around entry registry) :
    (registry.claimed : Multiset Nat).bind (due around registry) =
      (registry.paths : Multiset Path).bind (fileNotes around) := by
  have all : registry.claimed.Perm (List.range registry.size) := by
    refine (List.perm_ext_iff_of_nodup complete.sound.claimedOnce List.nodup_range).mpr ?_
    intro index
    rw [List.mem_range]
    exact ⟨complete.sound.claimedInside index, complete.claimed index⟩
  calc (registry.claimed : Multiset Nat).bind (due around registry)
      = (List.range registry.size : Multiset Nat).bind (due around registry) := by
        rw [Multiset.coe_eq_coe.mpr all]
    _ = (((List.range registry.size).map registry.pathOf? : List (Option Path)) :
          Multiset (Option Path)).bind fun known => known.elim 0 (fileNotes around) := by
        rw [← Multiset.map_coe, Multiset.bind_map]
        rfl
    _ = (registry.paths : Multiset Path).bind (fileNotes around) := by
        rw [registry.map_pathOf?_range, ← Multiset.map_coe, Multiset.bind_map]
        rfl

theorem paths_distinct (complete : Complete around entry registry) :
    (registry.paths.map Path.components).Nodup := by
  rw [List.nodup_iff_injective_getElem]
  rintro ⟨first, firstInside⟩ ⟨second, secondInside⟩ same
  have numbers (index : Nat) (inside : index < (registry.paths.map Path.components).length) :
      ∃ path, registry.pathOf? index = some path ∧
        path.components = (registry.paths.map Path.components)[index] := by
    have within : index < registry.nodes.size := by simpa [Registry.paths] using inside
    exact ⟨registry.nodes[index].path, by simp [Registry.pathOf?, within], by simp [Registry.paths]⟩
  obtain ⟨path, known, spelled⟩ := numbers first firstInside
  obtain ⟨other, otherKnown, otherSpelled⟩ := numbers second secondInside
  have alike : other.components = path.components := otherSpelled.trans (same.symm.trans spelled.symm)
  exact Fin.ext (complete.sound.distinct ⟨path, known, rfl⟩ ⟨other, otherKnown, alike⟩)

end Complete

namespace Job

def Serves (around : Surroundings) (entry : Path) : Job → Prop
  | visit _ => False
  | claimed _ => False
  | parse _ path => path = entry
  | resolve _ path outline _ _ => path = entry ∧ around.parse path = .ok outline
  | follow _ path _ => path = entry ∧ ∃ outline, around.parse path = .ok outline
  | conclude _ path result => path = entry ∧ result = (around.parse path).map fun _ => ()
  | report _ path error => path = entry ∧ around.parse path = .error error
  | done => ∃ outline, around.parse entry = .ok outline

private theorem step_serves {around : Surroundings} {entry : Path} {job next : Job}
    {state later : Discovery} (working : ¬ job.Returned) (moved : Step around job state next later)
    (serves : job.Serves around entry) : next.Serves around entry := by
  cases moved with
  | child moved => exact serves
  | own moved =>
    cases moved with
    | skip taken => exact serves.elim
    | claim first => exact serves.elim
    | lookup known => exact serves.elim
    | lose unknown => exact serves.elim
    | read parsed => exact ⟨serves, parsed⟩
    | giveUp failed => exact ⟨serves, by rw [failed]; rfl⟩
    | resolve index path outline edges specifier rest state => exact serves
    | note index path outline edges state => exact ⟨serves.1, outline, serves.2⟩
    | join finished =>
      obtain ⟨same, outline, parsed⟩ := serves
      exact ⟨same, by rw [parsed]; rfl⟩
    | succeed index path state =>
      obtain ⟨rfl, result⟩ := serves
      cases parsed : around.parse path with
      | ok outline => exact ⟨outline, parsed⟩
      | error error =>
        rw [parsed] at result
        cases result
    | fail index path error state =>
      obtain ⟨rfl, result⟩ := serves
      cases parsed : around.parse path with
      | ok outline =>
        rw [parsed] at result
        cases result
      | error cause =>
        rw [parsed] at result
        cases result
        exact ⟨rfl, parsed⟩
    | report index path error state => exact absurd trivial working

variable {around : Surroundings} {entry : Path} {root : Job} {state : Discovery}

private theorem interleaves_serves (built : Interleaves around entry root state) :
    root.Serves around entry := by
  exact build_induction (fun job _ => job.Serves around entry)
    (fun _ _ _ _ working moved serves => step_serves working moved serves) built rfl

theorem interleaves_consistent (built : Interleaves around entry root state) :
    Consistent around entry root.active state := by
  have opened := Consistent.of_begun around entry
  rw [← add_zero (active _)] at opened
  simpa using opened.after_steps built

theorem interleaves_complete (built : Interleaves around entry root state)
    (returned : root.Returned) : Complete around entry state.registry := by
  refine (interleaves_consistent built).complete ?_
  intro part member duty owes
  cases root with
  | report index path error =>
    rw [active, Multiset.mem_singleton] at member
    subst member
    cases duty <;> exact owes
  | done => simp [active] at member
  | _ => exact returned

/-- When the job of the entry has returned, the warnings and questions are those of the files, but
that an entry that has been given up is not reported yet. -/
theorem interleaves_notes (built : Interleaves around entry root state) (returned : root.Returned) :
    state.notes + root.active.bind (owed around state.registry) =
      (state.registry.paths : Multiset Path).bind (fileNotes around) :=
  (interleaves_consistent built).balance.trans (interleaves_complete built returned).dues

/-- A build fails just if its entry cannot be read. Else it gives all files and their warnings. -/
theorem outcome_cases (built : Interleaves around entry root state) (returned : root.Returned) :
    (∃ cause, around.parse entry = .error cause ∧ cause.isUnreadable = true ∧
      root.outcome entry state = .error ⟨entry, cause⟩) ∨
    ((∀ cause, around.parse entry = .error cause → cause.isUnreadable = false) ∧
      ∃ warnings, root.outcome entry state = .ok ⟨state.registry.nodes, warnings⟩ ∧
        ((warnings.map .inl : List Note) : Multiset Note) + (state.trace.map .inr : List Note) =
          (state.registry.paths : Multiset Path).bind (fileNotes around)) := by
  have serves := interleaves_serves built
  have noted := interleaves_notes built returned
  cases root with
  | report index path error =>
    obtain ⟨rfl, failed⟩ := serves
    cases unreadable : error.isUnreadable with
    | true => exact .inl ⟨error, failed, unreadable, by simp [outcome, unreadable]⟩
    | false =>
      refine .inr ⟨?_, (state.warn (.parseError path error.message)).warnings, ?_, ?_⟩
      · intro cause same
        cases failed.symm.trans same
        exact unreadable
      · simp [outcome, unreadable]
      · rw [← noted, active, Multiset.singleton_bind]
        change (state.warn (.parseError path error.message)).notes = state.notes + _
        rw [notes_warn, owed, ← Multiset.singleton_add, add_comm]
  | done =>
    obtain ⟨outline, parsed⟩ := serves
    refine .inr ⟨?_, state.warnings, rfl, ?_⟩
    · intro cause failed
      cases parsed.symm.trans failed
    · rw [← noted, active, Multiset.zero_bind, add_zero]
      rfl
  | _ => exact returned.elim

end Job

/-- A build from an entry can end so, be it from left to right or in some other order of its steps. -/
inductive Discovery.Yields (around : Surroundings) (entry : Path) :
    Except EntryError Findings → Prop where
  | inOrder {fuel : Nat} {result : Except EntryError Findings} {trace : List Question}
      (ran : run around fuel entry = some (result, trace)) : Yields around entry result
  | interleaved {root : Job} {state : Discovery} (built : Interleaves around entry root state)
      (returned : root.Returned) : Yields around entry (root.outcome entry state)

/-- What `outcome_cases` says, of a build in any order. -/
theorem Discovery.Yields.outcome_cases {around : Surroundings} {entry : Path}
    {result : Except EntryError Findings} (yields : Yields around entry result) :
    (∃ cause, around.parse entry = .error cause ∧ cause.isUnreadable = true ∧
      result = .error ⟨entry, cause⟩) ∨
    ((∀ cause, around.parse entry = .error cause → cause.isUnreadable = false) ∧
      ∃ (registry : Registry) (warnings : List Warning) (trace : List Question),
        Complete around entry registry ∧
        result = .ok ⟨registry.nodes, warnings⟩ ∧
        ((warnings.map .inl : List Note) : Multiset Note) + (trace.map .inr : List Note) =
          (registry.paths : Multiset Path).bind (fileNotes around)) := by
  obtain ⟨root, state, built, returned, rfl⟩ :
      ∃ root state, Interleaves around entry root state ∧ root.Returned ∧
        root.outcome entry state = result := by
    cases yields with
    | inOrder ran =>
      obtain ⟨root, state, built, returned, same, _⟩ := run_interleaves ran
      exact ⟨root, state, built, returned, same⟩
    | @interleaved root state built returned => exact ⟨root, state, built, returned, rfl⟩
  rcases Job.outcome_cases built returned with failed | ⟨readable, warnings, found, noted⟩
  · exact .inl failed
  · exact .inr ⟨readable, state.registry, warnings, state.trace,
      interleaves_complete built returned, found, noted⟩

end CrateAtlas
