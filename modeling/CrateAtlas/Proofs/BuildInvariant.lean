import CrateAtlas.Proofs.FileFacts
import CrateAtlas.Proofs.Jobs

/-!
What holds at every moment of a build, whatever the order of its steps. The registry only ever holds
right answers; what is still missing from it is owed by some job at work; and what has been noted,
with what the jobs at work will note, is what the claimed files give rise to.
-/

namespace CrateAtlas

open Discovery

structure FileNode.Blank (node : FileNode) : Prop where
  lineCount : node.lineCount = none
  complexity : node.complexity = none
  maxDepth : node.maxDepth = none
  imports : node.imports = []
  external : node.external = []

structure FileNode.Analysed (around : Surroundings) (registry : Registry) (node : FileNode)
    (outline : FileOutline) : Prop where
  parsed : around.parse node.path = .ok outline
  lineCount : node.lineCount = some outline.lineCount
  complexity : node.complexity = some (outline.root.score around.depthMode 0).complexity
  maxDepth : node.maxDepth = some (outline.root.score around.depthMode 0).maxDepth
  imports : List.Forall₂ registry.Numbers node.imports (targets around node.path outline)
  external : node.external = externals around node.path outline

theorem FileNode.Analysed.extend {around : Surroundings} {earlier later : Registry}
    {node : FileNode} {outline : FileOutline} (known : node.Analysed around earlier outline)
    (extended : earlier.Extends later) : node.Analysed around later outline :=
  { known with imports := known.imports.imp fun _ _ numbered => numbered.extend extended }

/-- A node says nothing of its file, or the truth. -/
def FileNode.Known (around : Surroundings) (registry : Registry) (node : FileNode) : Prop :=
  node.Blank ∨ ∃ outline, node.Analysed around registry outline

theorem FileNode.Known.extend {around : Surroundings} {earlier later : Registry} {node : FileNode}
    (known : node.Known around earlier) (extended : earlier.Extends later) :
    node.Known around later := by
  rcases known with blank | ⟨outline, analysed⟩
  · exact .inl blank
  · exact .inr ⟨outline, analysed.extend extended⟩

/-- The files that imports lead to from an entry, spelled as they are imported. -/
inductive Discovery.Reached (around : Surroundings) (entry : Path) : Path → Prop where
  | entry : Reached around entry entry
  | imported {path target : Path} {outline : FileOutline} (importer : Reached around entry path)
      (parsed : around.parse path = .ok outline) (member : target ∈ targets around path outline) :
      Reached around entry target

inductive Duty where
  | claim (index : Nat)
  | analyse (index : Nat)
  | record (index : Nat)

def Duty.Met (around : Surroundings) (registry : Registry) : Duty → Prop
  | claim index => index < registry.size → index ∈ registry.claimed
  | analyse index => index ∈ registry.claimed → ∀ node outline, registry.nodes[index]? = some node →
      around.parse node.path = .ok outline → node.Analysed around registry outline
  | record index => index ∈ registry.claimed → ∀ node, registry.nodes[index]? = some node →
      node.history = historyOf around node.path

namespace Job

def Owes : Job → Duty → Prop
  | visit index, .claim other => other = index
  | resolve _ _ _ edges _, .claim other => other ∈ edges.imports
  | claimed index, .analyse other => other = index
  | parse index _, .analyse other => other = index
  | resolve index _ _ _ _, .analyse other => other = index
  | claimed index, .record other => other = index
  | parse index _, .record other => other = index
  | resolve index _ _ _ _, .record other => other = index
  | follow index _ _, .record other => other = index
  | conclude index _ _, .record other => other = index
  | _, _ => False

def due (around : Surroundings) (registry : Registry) (index : Nat) : Multiset Note :=
  (registry.pathOf? index).elim 0 (fileNotes around)

/-- Everything that a job will note itself, without the jobs that it starts. -/
def owed (around : Surroundings) (registry : Registry) : Job → Multiset Note
  | visit _ => 0
  | claimed index => due around registry index
  | parse _ path => fileNotes around path
  | resolve _ path _ _ rest => specifiersNotes around path rest + historyNotes around path
  | follow _ path _ => historyNotes around path
  | conclude _ path (.ok ()) => historyNotes around path
  | conclude _ path (.error error) =>
    historyNotes around path + {.inl (.parseError path error.message)}
  | report _ path error => {.inl (.parseError path error.message)}
  | done => 0

def Truthful (around : Surroundings) : Job → Prop
  | resolve _ path outline _ _ => around.parse path = .ok outline
  | follow _ path _ => ∃ outline, around.parse path = .ok outline
  | conclude _ path result => result = (around.parse path).map fun _ => ()
  | report _ path error => around.parse path = .error error
  | _ => True

def Fits (around : Surroundings) (registry : Registry) : Job → Prop
  | visit index => index < registry.size
  | claimed index => index < registry.size
  | parse index path => registry.pathOf? index = some path
  | resolve index path outline edges rest =>
    registry.pathOf? index = some path ∧ ∃ past, followed outline = past ++ rest ∧
      List.Forall₂ registry.Numbers edges.imports (past.filterMap (target? around path)) ∧
      edges.external = past.filterMap (external? around path)
  | follow index path _ => registry.pathOf? index = some path
  | conclude index path _ => registry.pathOf? index = some path
  | report index path _ => registry.pathOf? index = some path
  | done => True

theorem Fits.extend {around : Surroundings} {earlier later : Registry} {job : Job}
    (fits : job.Fits around earlier) (extended : earlier.Extends later) :
    job.Fits around later := by
  cases job with
  | visit index => exact Nat.lt_of_lt_of_le fits extended.size
  | claimed index => exact Nat.lt_of_lt_of_le fits extended.size
  | parse index path => exact extended.paths index path fits
  | resolve index path outline edges rest =>
    obtain ⟨known, past, split, imports, external⟩ := fits
    exact ⟨extended.paths index path known, past, split,
      imports.imp fun _ _ numbered => numbered.extend extended, external⟩
  | follow index path children => exact extended.paths index path fits
  | conclude index path result => exact extended.paths index path fits
  | report index path error => exact extended.paths index path fits
  | done => trivial

theorem due_extend (around : Surroundings) {earlier later : Registry}
    (extended : earlier.Extends later) {index : Nat} (inside : index < earlier.size) :
    due around later index = due around earlier index := by
  obtain ⟨path, known⟩ := Registry.exists_pathOf? inside
  rw [due, due, known, extended.paths index path known]

theorem owed_extend (around : Surroundings) {earlier later : Registry}
    (extended : earlier.Extends later) {job : Job} (fits : job.Fits around earlier) :
    job.owed around later = job.owed around earlier := by
  cases job with
  | claimed index => exact due_extend around extended fits
  | conclude index path result => cases result <;> rfl
  | _ => rfl

end Job

open Job

namespace Duty.Met

variable {around : Surroundings} {registry : Registry} {duty : Duty}

/-- A duty that is met stays met when a number is claimed, unless it is one that the claim brings. -/
private theorem claim (met : duty.Met around registry) (index : Nat) :
    duty.Met around { registry with claimed := index :: registry.claimed } ∨
      (Job.claimed index).Owes duty := by
  cases duty with
  | claim other => exact .inl fun within => List.mem_cons_of_mem index (met within)
  | analyse other =>
    by_cases same : other = index
    · exact .inr same
    · refine .inl fun claimed node outline found parsed => ?_
      have before := (List.mem_cons.mp claimed).resolve_left same
      exact (met before node outline found parsed).extend (registry.claim_extends index)
  | record other =>
    by_cases same : other = index
    · exact .inr same
    · exact .inl fun claimed => met ((List.mem_cons.mp claimed).resolve_left same)

/-- So it does when a path is interned, but that its number may have to be claimed. -/
private theorem intern (met : duty.Met around registry) (sound : registry.Sound) (target : Path) :
    duty.Met around (registry.intern target).2 ∨ (Job.visit (registry.intern target).1).Owes duty := by
  cases duty with
  | claim index =>
    by_cases new : index = (registry.intern target).1
    · exact .inr new
    · refine .inl fun within => ?_
      rw [Registry.intern_claimed]
      rcases Registry.intern_node (Array.getElem?_eq_getElem within) with old | ⟨last, _⟩
      · exact met (Array.getElem?_eq_some_iff.mp old).1
      · exact absurd last new
  | analyse index =>
    refine .inl fun claimed node outline found parsed => ?_
    rw [Registry.intern_claimed] at claimed
    rcases Registry.intern_node found with old | ⟨_, beyond, _⟩
    · exact (met claimed node outline old parsed).extend (registry.intern_extends target)
    · exact absurd (sound.claimedInside index claimed) (Nat.not_lt.mpr beyond)
  | record index =>
    refine .inl fun claimed node found => ?_
    rw [Registry.intern_claimed] at claimed
    rcases Registry.intern_node found with old | ⟨_, beyond, _⟩
    · exact met claimed node old
    · exact absurd (sound.claimedInside index claimed) (Nat.not_lt.mpr beyond)

private theorem update (met : duty.Met around registry) {index : Nat} {change : FileNode → FileNode}
    (path : ∀ node, (change node).path = node.path)
    (analysed : ∀ node outline, registry.nodes[index]? = some node →
      node.Analysed around registry outline → (change node).Analysed around registry outline)
    (recorded : ∀ node, registry.nodes[index]? = some node →
      node.history = historyOf around node.path → (change node).history = historyOf around node.path) :
    duty.Met around (registry.update index change) := by
  have extended := registry.update_extends index path
  cases duty with
  | claim other =>
    intro within
    obtain ⟨file, known⟩ := Registry.exists_pathOf? within
    rw [registry.update_pathOf? index path] at known
    exact met (Registry.lt_size_of_pathOf? known)
  | analyse other =>
    intro claimed node outline found parsed
    rcases Registry.update_node_cases found with same | ⟨earlier, present, rfl, rfl⟩
    · exact (met claimed node outline same parsed).extend extended
    · rw [path] at parsed
      exact (analysed earlier outline present
        (met claimed earlier outline present parsed)).extend extended
  | record other =>
    intro claimed node found
    rcases Registry.update_node_cases found with same | ⟨earlier, present, rfl, rfl⟩
    · exact met claimed node same
    · rw [path]
      exact recorded earlier present (met claimed earlier present)

end Duty.Met

structure Consistent (around : Surroundings) (entry : Path) (parts : Multiset Job)
    (state : Discovery) : Prop where
  sound : state.registry.Sound
  entered : state.registry.pathOf? 0 = some entry
  reached : ∀ index path, state.registry.pathOf? index = some path → Reached around entry path
  truthful : ∀ part ∈ parts, part.Truthful around
  fits : ∀ part ∈ parts, part.Fits around state.registry
  contents : ∀ (index : Nat) (node : FileNode), state.registry.nodes[index]? = some node →
    node.Known around state.registry
  histories : ∀ (index : Nat) (node : FileNode), state.registry.nodes[index]? = some node →
    node.history = none ∨ node.history = historyOf around node.path
  duties : ∀ duty : Duty, duty.Met around state.registry ∨ ∃ part ∈ parts, part.Owes duty
  balance : state.notes + parts.bind (owed around state.registry) =
    (state.registry.claimed : Multiset Nat).bind (due around state.registry)

namespace Consistent

variable {around : Surroundings} {entry : Path} {parts old new rest : Multiset Job}
  {state later : Discovery}

/-- Jobs may be replaced by others that see to their duties, if what these leave out is noted. -/
theorem replace_parts (holds : Consistent around entry (old + rest) state)
    (unchanged : later.registry = state.registry)
    (truthful : ∀ part ∈ new, part.Truthful around)
    (fits : ∀ part ∈ new, part.Fits around state.registry)
    (kept : ∀ part ∈ old, ∀ duty, part.Owes duty →
      duty.Met around state.registry ∨ ∃ other ∈ new, other.Owes duty)
    (noted : later.notes + new.bind (owed around state.registry) =
      state.notes + old.bind (owed around state.registry)) :
    Consistent around entry (new + rest) later where
  sound := unchanged ▸ holds.sound
  entered := unchanged ▸ holds.entered
  reached := unchanged ▸ holds.reached
  truthful := by
    intro part member
    rcases Multiset.mem_add.mp member with fresh | other
    · exact truthful part fresh
    · exact holds.truthful part (Multiset.mem_add.mpr (.inr other))
  fits := by
    intro part member
    rw [unchanged]
    rcases Multiset.mem_add.mp member with fresh | other
    · exact fits part fresh
    · exact holds.fits part (Multiset.mem_add.mpr (.inr other))
  contents := unchanged ▸ holds.contents
  histories := unchanged ▸ holds.histories
  duties := by
    intro duty
    rw [unchanged]
    rcases holds.duties duty with met | ⟨part, member, owes⟩
    · exact .inl met
    · rcases Multiset.mem_add.mp member with replaced | other
      · rcases kept part replaced duty owes with met | ⟨successor, fresh, owes⟩
        · exact .inl met
        · exact .inr ⟨successor, Multiset.mem_add.mpr (.inl fresh), owes⟩
      · exact .inr ⟨part, Multiset.mem_add.mpr (.inr other), owes⟩
  balance := by
    rw [unchanged, ← holds.balance, Multiset.add_bind, Multiset.add_bind, ← add_assoc, noted,
      add_assoc]

private theorem after_claim (holds : Consistent around entry parts state) {index : Nat}
    (inside : index < state.registry.size) (fresh : index ∉ state.registry.claimed) :
    Consistent around entry (.claimed index ::ₘ parts)
      { state with
        registry := { state.registry with claimed := index :: state.registry.claimed } } where
  sound := Registry.claim_sound holds.sound inside fresh
  entered := holds.entered
  reached := holds.reached
  truthful := Multiset.forall_mem_cons.mpr ⟨trivial, holds.truthful⟩
  fits := Multiset.forall_mem_cons.mpr ⟨inside, fun part member =>
    (holds.fits part member).extend (state.registry.claim_extends index)⟩
  contents := by
    intro other node found
    exact (holds.contents other node found).extend (state.registry.claim_extends index)
  histories := holds.histories
  duties := by
    intro duty
    rcases holds.duties duty with met | ⟨part, member, owes⟩
    · exact (met.claim index).imp_right fun owes => ⟨_, Multiset.mem_cons_self _ _, owes⟩
    · exact .inr ⟨part, Multiset.mem_cons_of_mem member, owes⟩
  balance := by
    have before := holds.balance
    rw [← Multiset.cons_coe, Multiset.cons_bind, Multiset.cons_bind]
    change state.notes + (due around state.registry index + parts.bind (owed around _)) =
      due around state.registry index +
        (state.registry.claimed : Multiset Nat).bind (due around state.registry)
    rw [← before, Multiset.bind_congr fun part member => owed_extend around
      (state.registry.claim_extends index) (holds.fits part member)]
    abel

private theorem after_intern (holds : Consistent around entry parts state) {target : Path}
    (reached : Reached around entry target) :
    Consistent around entry (.visit (state.registry.intern target).1 ::ₘ parts)
      { state with registry := (state.registry.intern target).2 } where
  sound := Registry.intern_sound holds.sound target
  entered := (state.registry.intern_extends target).paths 0 entry holds.entered
  reached := by
    intro index path known
    obtain ⟨node, found, rfl⟩ := Registry.pathOf?_eq_some_iff.mp known
    rcases Registry.intern_node found with old | ⟨_, _, rfl⟩
    · exact holds.reached index node.path (Registry.pathOf?_eq_some_iff.mpr ⟨node, old, rfl⟩)
    · exact reached
  truthful := Multiset.forall_mem_cons.mpr ⟨trivial, holds.truthful⟩
  fits := by
    refine Multiset.forall_mem_cons.mpr ⟨?_, fun part member =>
      (holds.fits part member).extend (state.registry.intern_extends target)⟩
    obtain ⟨known, found, _⟩ := state.registry.intern_numbers target
    exact Registry.lt_size_of_pathOf? found
  contents := by
    intro index node found
    rcases Registry.intern_node found with old | ⟨_, _, rfl⟩
    · exact (holds.contents index node old).extend (state.registry.intern_extends target)
    · exact .inl ⟨rfl, rfl, rfl, rfl, rfl⟩
  histories := by
    intro index node found
    rcases Registry.intern_node found with old | ⟨_, _, rfl⟩
    · exact holds.histories index node old
    · exact .inl rfl
  duties := by
    intro duty
    rcases holds.duties duty with met | ⟨part, member, owes⟩
    · exact (met.intern holds.sound target).imp_right fun owes =>
        ⟨_, Multiset.mem_cons_self _ _, owes⟩
    · exact .inr ⟨part, Multiset.mem_cons_of_mem member, owes⟩
  balance := by
    have extended := state.registry.intern_extends target
    rw [Multiset.cons_bind, Registry.intern_claimed,
      Multiset.bind_congr fun part member => owed_extend around extended (holds.fits part member),
      Multiset.bind_congr fun index member =>
        due_extend around extended (holds.sound.claimedInside index member), ← holds.balance]
    change state.notes + (0 + _) = _
    rw [zero_add]

/-- A node may be changed if what it says stays right and what it says already is kept. -/
theorem after_update (holds : Consistent around entry parts state) {index : Nat}
    {change : FileNode → FileNode} (path : ∀ node, (change node).path = node.path)
    (contents : ∀ node, state.registry.nodes[index]? = some node →
      (change node).Known around state.registry)
    (histories : ∀ node, state.registry.nodes[index]? = some node →
      (change node).history = none ∨ (change node).history = historyOf around node.path)
    (analysed : ∀ node outline, state.registry.nodes[index]? = some node →
      node.Analysed around state.registry outline →
      (change node).Analysed around state.registry outline)
    (recorded : ∀ node, state.registry.nodes[index]? = some node →
      node.history = historyOf around node.path →
      (change node).history = historyOf around node.path) :
    Consistent around entry parts (state.update index change) := by
  have extended := state.registry.update_extends index path
  have paths := state.registry.update_pathOf? index path
  constructor
  case sound => exact Registry.update_sound holds.sound index path
  case entered => exact extended.paths 0 entry holds.entered
  case reached =>
    intro other file known
    exact holds.reached other file ((paths other).symm.trans known)
  case truthful => exact holds.truthful
  case fits =>
    intro part member
    exact (holds.fits part member).extend extended
  case contents =>
    intro other node found
    rcases Registry.update_node_cases found with same | ⟨earlier, present, rfl, rfl⟩
    · exact (holds.contents other node same).extend extended
    · exact (contents earlier present).extend extended
  case histories =>
    intro other node found
    rcases Registry.update_node_cases found with same | ⟨earlier, present, rfl, rfl⟩
    · exact holds.histories other node same
    · rw [path]
      exact histories earlier present
  case duties =>
    intro duty
    rcases holds.duties duty with met | owes
    · exact .inl (met.update path analysed recorded)
    · exact .inr owes
  case balance =>
    have owing : parts.bind (owed around (state.registry.update index change)) =
        parts.bind (owed around state.registry) :=
      Multiset.bind_congr fun part member => owed_extend around extended (holds.fits part member)
    have dues : due around (state.registry.update index change) = due around state.registry := by
      funext other
      rw [due, due, paths]
    change state.notes + parts.bind (owed around (state.registry.update index change)) =
      (state.registry.claimed : Multiset Nat).bind (due around (state.registry.update index change))
    rw [owing, dues, holds.balance]

private theorem after_note (holds : Consistent around entry parts state) {index : Nat} {path : Path}
    {outline : FileOutline} {edges : Edges} (known : state.registry.pathOf? index = some path)
    (parsed : around.parse path = .ok outline)
    (imports : List.Forall₂ state.registry.Numbers edges.imports (targets around path outline))
    (external : edges.external = externals around path outline) :
    Consistent around entry parts (state.note around index outline edges) ∧
      (Duty.analyse index).Met around (state.note around index outline edges).registry := by
  generalize changes : (fun node : FileNode =>
    { node with
      lineCount := some outline.lineCount
      complexity := some (outline.root.score around.depthMode 0).complexity
      maxDepth := some (outline.root.score around.depthMode 0).maxDepth
      imports := edges.imports
      external := edges.external }) = change
  have updated : state.note around index outline edges = state.update index change := changes ▸ rfl
  have path_eq (node : FileNode) : (change node).path = node.path := changes ▸ rfl
  have history_eq (node : FileNode) : (change node).history = node.history := changes ▸ rfl
  have right (node : FileNode) (found : state.registry.nodes[index]? = some node) :
      (change node).Analysed around state.registry outline := by
    have same := Registry.path_of_pathOf? known found
    subst changes
    exact ⟨same ▸ parsed, rfl, rfl, rfl, same ▸ imports, same ▸ external⟩
  rw [updated]
  constructor
  · refine holds.after_update path_eq (fun node found => .inr ⟨outline, right node found⟩) ?_ ?_ ?_
    · intro node found
      rw [history_eq]
      exact holds.histories index node found
    · intro node other found analysed
      have agree := (Registry.path_of_pathOf? known found ▸ analysed.parsed).symm.trans parsed
      exact Except.ok.inj agree ▸ right node found
    · intro node found recorded
      rw [history_eq, recorded]
  · intro claimed node other found again
    rw [Discovery.update, Registry.update_node, if_pos rfl] at found
    obtain ⟨before, present, rfl⟩ := Option.map_eq_some_iff.mp found
    have agree := (Registry.path_of_pathOf? known present ▸ path_eq before ▸ again).symm.trans parsed
    exact Except.ok.inj agree ▸
      (right before present).extend (state.registry.update_extends index path_eq)

theorem after_recordHistory (holds : Consistent around entry parts state) {index : Nat} {path : Path}
    (known : state.registry.pathOf? index = some path) :
    Consistent around entry parts
        { state with registry := (state.recordHistory around index path).registry } ∧
      (Duty.record index).Met around (state.recordHistory around index path).registry := by
  rw [recordHistory_registry]
  cases commits : historyOf around path with
  | none =>
    refine ⟨holds, fun _ node found => ?_⟩
    have absent : historyOf around node.path = none := Registry.path_of_pathOf? known found ▸ commits
    rcases holds.histories index node found with none | same
    · exact none.trans absent.symm
    · exact same
  | some commits' =>
    have right (node : FileNode) (found : state.registry.nodes[index]? = some node) :
        some commits' = historyOf around node.path := Registry.path_of_pathOf? known found ▸ commits.symm
    constructor
    · refine holds.after_update (fun _ => rfl) ?_ (fun node found => .inr (right node found)) ?_
        (fun node found _ => right node found)
      · intro node found
        rcases holds.contents index node found with blank | ⟨outline, analysed⟩
        · exact .inl ⟨blank.1, blank.2, blank.3, blank.4, blank.5⟩
        · exact .inr ⟨outline, analysed.1, analysed.2, analysed.3, analysed.4, analysed.5, analysed.6⟩
      · intro node outline found analysed
        exact ⟨analysed.1, analysed.2, analysed.3, analysed.4, analysed.5, analysed.6⟩
    · intro claimed node found
      rw [Registry.update_node, if_pos rfl] at found
      obtain ⟨before, present, rfl⟩ := Option.map_eq_some_iff.mp found
      exact right before present

theorem replace_part {part next : Job} (holds : Consistent around entry ({part} + rest) state)
    (unchanged : later.registry = state.registry) (truthful : next.Truthful around)
    (fits : next.Fits around state.registry)
    (kept : ∀ duty, part.Owes duty → duty.Met around state.registry ∨ next.Owes duty)
    (noted : later.notes + next.owed around state.registry =
      state.notes + part.owed around state.registry) :
    Consistent around entry ({next} + rest) later := by
  refine holds.replace_parts unchanged ?_ ?_ ?_ (by simpa using noted)
  · simpa using truthful
  · simpa using fits
  · simpa using kept

theorem remove_part {part : Job} (holds : Consistent around entry ({part} + rest) state)
    (unchanged : later.registry = state.registry)
    (kept : ∀ duty, part.Owes duty → duty.Met around state.registry)
    (noted : later.notes = state.notes + part.owed around state.registry) :
    Consistent around entry (0 + rest) later := by
  refine holds.replace_parts unchanged ?_ ?_ ?_ (by simpa using noted)
  · simp
  · simp
  · simpa using kept

private theorem after_resolve {index : Nat} {path : Path} {outline : FileOutline} {edges : Edges}
    {specifier : String} {remaining : List String}
    (holds : Consistent around entry
      ({.resolve index path outline edges (specifier :: remaining)} + rest) state) :
    Consistent around entry
      ({.resolve index path outline (resolveOne around path (edges, state) specifier).1 remaining} +
        rest) (resolveOne around path (edges, state) specifier).2 := by
  have member : .resolve index path outline edges (specifier :: remaining) ∈
      {.resolve index path outline edges (specifier :: remaining)} + rest := by simp
  obtain ⟨known, past, split, imports, external⟩ := holds.fits _ member
  have parsed : around.parse path = .ok outline := holds.truthful _ member
  have noted := notes_resolveOne around path edges state specifier
  have splitLater : followed outline = (past ++ [specifier]) ++ remaining := by simp [split]
  have externalLater : edges.external ++ (external? around path specifier).toList =
      (past ++ [specifier]).filterMap (external? around path) := by
    rw [List.filterMap_append, ← external]
    cases found : external? around path specifier <;> simp [found]
  have owedLater : specifiersNotes around path (specifier :: remaining) =
      specifierNotes around path specifier + specifiersNotes around path remaining := by
    simp [specifiersNotes, ← Multiset.cons_coe]
  rw [resolveOne_eq] at noted ⊢
  cases found : target? around path specifier with
  | none =>
    simp only [found, Option.map_none, Option.toList_none, List.append_nil, Option.getD_none] at noted ⊢
    refine holds.replace_part rfl parsed ⟨known, past ++ [specifier], splitLater, ?_, externalLater⟩ ?_ ?_
    · simpa [found] using imports
    · intro duty owes
      exact .inr (by cases duty <;> exact owes)
    · rw [noted, owed, owed, owedLater]
      abel
  | some target =>
    simp only [found, Option.map_some, Option.toList_some, Option.getD_some] at noted ⊢
    have extended := state.registry.intern_extends target
    have member : target ∈ targets around path outline :=
      List.mem_filterMap.mpr ⟨specifier, by simp [split], found⟩
    -- interning calls for a visit, which becomes one of the imports that this job will hand on
    have met := holds.after_intern (.imported (holds.reached index path known) parsed member)
    rw [← Multiset.cons_add] at met
    refine met.replace_parts rfl ?_ ?_ ?_ ?_
    · simpa [Truthful] using parsed
    · simp only [Multiset.mem_singleton, forall_eq]
      refine ⟨extended.paths index path known, past ++ [specifier], splitLater, ?_, externalLater⟩
      rw [List.filterMap_append]
      refine List.rel_append (imports.imp fun _ _ numbered => numbered.extend extended) ?_
      simpa [found] using state.registry.intern_numbers target
    · intro part is duty owes
      refine .inr ⟨_, Multiset.mem_singleton_self _, ?_⟩
      rcases Multiset.mem_cons.mp is with rfl | was
      · cases duty with
        | claim other => exact List.mem_append.mpr (.inr (List.mem_singleton.mpr owes))
        | _ => exact owes.elim
      · rw [Multiset.mem_singleton.mp was] at owes
        cases duty with
        | claim other => exact List.mem_append.mpr (.inl owes)
        | _ => exact owes
    · simp only [Multiset.singleton_bind, Multiset.cons_bind, owed, owedLater] at noted ⊢
      rw [noted]
      change _ = state.notes + _
      abel

/-- When a file is analysed, its job hands what it imports on to the visits that it starts. -/
theorem after_follow {index : Nat} {path : Path} {outline : FileOutline} {edges : Edges}
    (holds : Consistent around entry ({.resolve index path outline edges []} + rest) state) :
    Consistent around entry (active (.follow index path (edges.imports.map .visit)) + rest)
      (state.note around index outline edges) := by
  have member : .resolve index path outline edges [] ∈
      {.resolve index path outline edges []} + rest := by simp
  obtain ⟨known, past, split, imports, external⟩ := holds.fits _ member
  have parsed : around.parse path = .ok outline := holds.truthful _ member
  rw [List.append_nil] at split
  subst split
  obtain ⟨noted, met⟩ := holds.after_note known parsed imports external
  obtain ⟨knownLater, _, _, importsLater, _⟩ := noted.fits _ member
  rw [active, activeAll_visits]
  refine noted.replace_parts rfl ?_ ?_ ?_ ?_
  · refine Multiset.forall_mem_cons.mpr ⟨⟨outline, parsed⟩, ?_⟩
    simp [Truthful]
  · refine Multiset.forall_mem_cons.mpr ⟨knownLater, ?_⟩
    simpa [Fits] using Registry.lt_size_of_numbers importsLater
  · intro part is duty owes
    rw [Multiset.mem_singleton.mp is] at owes
    cases duty with
    | claim other =>
      have visited : Job.visit other ∈ (edges.imports : Multiset Nat).map .visit :=
        Multiset.mem_map_of_mem _ owes
      exact .inr ⟨.visit other, Multiset.mem_cons_of_mem visited, rfl⟩
    | analyse other => exact .inl (owes ▸ met)
    | record other => exact .inr ⟨_, Multiset.mem_cons_self _ _, owes⟩
  · rw [Multiset.cons_bind, Multiset.bind_map, Multiset.singleton_bind]
    simp [owed, specifiersNotes]

/-- The first visit of a file starts a job for it, and has nothing more to do itself. -/
theorem after_first_visit {index : Nat} (holds : Consistent around entry ({.visit index} + rest) state)
    (fresh : index ∉ state.registry.claimed) :
    Consistent around entry ({.claimed index} + rest)
      { state with
        registry := { state.registry with claimed := index :: state.registry.claimed } } := by
  have started := holds.after_claim (holds.fits (.visit index) (by simp)) fresh
  rw [← Multiset.singleton_add, add_left_comm] at started
  have ended := started.remove_part rfl ?_ (by simp [owed])
  · simpa using ended
  · intro duty owes
    cases duty with
    | claim other => exact fun _ => by simp [show other = index from owes]
    | _ => exact owes.elim

private theorem after_read {index : Nat} {path : Path} {outline : FileOutline}
    (holds : Consistent around entry ({.parse index path} + rest) state)
    (parsed : around.parse path = .ok outline) :
    Consistent around entry ({.resolve index path outline ⟨[], []⟩ (followed outline)} + rest)
      ((state.askHistory around path).ask (.parse path)) := by
  have fits := holds.fits (.parse index path) (by simp)
  refine holds.replace_part (by simp) parsed ⟨fits, [], rfl, .nil, rfl⟩ ?_ ?_
  · intro duty owes
    cases duty with
    | claim other => exact owes.elim
    | _ => exact .inr owes
  · rw [notes_opening]
    simp only [owed, fileNotes, parseNotes, parsed]
    abel

private theorem after_giveUp {index : Nat} {path : Path} {error : SourceError}
    (holds : Consistent around entry ({.parse index path} + rest) state)
    (failed : around.parse path = .error error) :
    Consistent around entry ({.conclude index path (.error error)} + rest)
      ((state.askHistory around path).ask (.parse path)) := by
  have fits := holds.fits (.parse index path) (by simp)
  refine holds.replace_part (by simp) (by simp [Truthful, failed, Except.map]) fits ?_ ?_
  · intro duty owes
    cases duty with
    | claim other => exact owes.elim
    | analyse other =>
      -- nothing is due for a file that cannot be parsed
      refine .inl fun _ node outline found parsed => ?_
      cases show other = index from owes
      rw [Registry.path_of_pathOf? fits found, failed] at parsed
      cases parsed
    | record other => exact .inr owes
  · rw [notes_opening]
    simp only [owed, fileNotes, parseNotes, failed]
    abel

private theorem after_succeed {index : Nat} {path : Path}
    (holds : Consistent around entry ({.conclude index path (.ok ())} + rest) state) :
    Consistent around entry (0 + rest) (state.recordHistory around index path) := by
  obtain ⟨recorded, met⟩ :=
    holds.after_recordHistory (holds.fits (.conclude index path (.ok ())) (by simp))
  refine recorded.remove_part rfl ?_ ?_
  · intro duty owes
    cases duty with
    | record other => exact owes ▸ met
    | _ => exact owes.elim
  · rw [notes_recordHistory, owed, add_comm]
    rfl

private theorem after_fail {index : Nat} {path : Path} {error : SourceError}
    (holds : Consistent around entry ({.conclude index path (.error error)} + rest) state) :
    Consistent around entry ({.report index path error} + rest)
      (state.recordHistory around index path) := by
  have truthful := holds.truthful (.conclude index path (.error error)) (by simp)
  obtain ⟨recorded, met⟩ :=
    holds.after_recordHistory (holds.fits (.conclude index path (.error error)) (by simp))
  have fits := recorded.fits (.conclude index path (.error error)) (by simp)
  refine recorded.replace_part rfl ?_ fits ?_ ?_
  · cases parsed : around.parse path with
    | ok outline => simp [Truthful, parsed, Except.map] at truthful
    | error cause =>
      have same : error = cause := by simpa [Truthful, parsed, Except.map] using truthful
      exact same ▸ parsed
  · intro duty owes
    cases duty with
    | record other => exact .inl (owes ▸ met)
    | _ => exact owes.elim
  · rw [notes_recordHistory]
    simp only [owed]
    change _ = state.notes + _
    abel

/-- Whatever a job does next, what holds of a build goes on to hold. -/
theorem after_advance {part result : Job} (moved : Advance around part state result later)
    (holds : Consistent around entry (part ::ₘ rest) state) :
    Consistent around entry (result.active + rest) later := by
  rw [← Multiset.singleton_add] at holds
  have fits := holds.fits part (by simp)
  have truthful := holds.truthful part (by simp)
  cases moved with
  | @skip index state taken =>
    rcases state.registry.claim_cases index with ⟨member, same⟩ | ⟨_, first⟩
    · rw [same]
      refine holds.remove_part rfl ?_ (by simp [owed])
      intro duty owes
      cases duty with
      | claim other => exact fun _ => owes ▸ member
      | _ => exact owes.elim
    · simp [first] at taken
  | @claim index state first =>
    rcases state.registry.claim_cases index with ⟨_, taken⟩ | ⟨fresh, claimed⟩
    · simp [taken] at first
    · rw [claimed]
      exact holds.after_first_visit fresh
  | @lookup index path state known =>
    refine holds.replace_part rfl trivial known ?_ (by simp [owed, due, known])
    intro duty owes
    exact .inr (by cases duty <;> exact owes)
  | @lose index state unknown =>
    -- only numbers of the registry are claimed, so the path of this one is known
    obtain ⟨path, known⟩ := Registry.exists_pathOf? fits
    rw [unknown] at known
    cases known
  | read parsed => exact holds.after_read parsed
  | giveUp failed => exact holds.after_giveUp failed
  | resolve index path outline edges specifier remaining state => exact holds.after_resolve
  | note index path outline edges state => exact holds.after_follow
  | @join index path children state finished =>
    refine holds.replace_part rfl ?_ fits ?_ rfl
    · obtain ⟨outline, parsed⟩ := truthful
      simp [Truthful, parsed, Except.map]
    · intro duty owes
      cases duty with
      | record other => exact .inr owes
      | _ => exact owes.elim
  | succeed index path state => exact holds.after_succeed
  | fail index path error state => exact holds.after_fail
  | report index path error state =>
    refine holds.remove_part rfl ?_ ?_
    · intro duty owes
      cases duty <;> exact owes.elim
    · rw [notes_warn, owed, ← Multiset.singleton_add, add_comm]

private theorem after_step {job next : Job} (moved : Step around job state next later)
    (holds : Consistent around entry (job.active + rest) state) :
    Consistent around entry (next.active + rest) later := by
  obtain ⟨part, result, others, advanced, was, is⟩ := step_active moved
  rw [was, Multiset.cons_add] at holds
  rw [is, add_assoc]
  exact holds.after_advance advanced

theorem after_steps {job next : Job}
    (built : Relation.ReflTransGen (BuildStep around) (job, state) (next, later))
    (holds : Consistent around entry (job.active + rest) state) :
    Consistent around entry (next.active + rest) later := by
  refine build_induction (fun job state => Consistent around entry (job.active + rest) state) ?_
    built holds
  intro _ _ _ _ _ moved before
  exact before.after_step moved

theorem of_begun (around : Surroundings) (entry : Path) :
    Consistent around entry (active (.parse 0 entry)) (begun entry) := by
  rw [begun_eq]
  have only {index : Nat} {node : FileNode} (found : #[FileNode.ofPath entry][index]? = some node) :
      index = 0 ∧ node = .ofPath entry := by
    obtain ⟨inside, rfl⟩ := Array.getElem?_eq_some_iff.mp found
    have first : index = 0 := by simpa using inside
    exact ⟨first, by subst first; rfl⟩
  constructor
  case sound =>
    refine ⟨?_, by simp, by simp [Registry.size]⟩
    rintro first second path ⟨_, knownFirst, _⟩ ⟨_, knownSecond, _⟩
    obtain ⟨_, foundFirst, _⟩ := Registry.pathOf?_eq_some_iff.mp knownFirst
    obtain ⟨_, foundSecond, _⟩ := Registry.pathOf?_eq_some_iff.mp knownSecond
    exact (only foundFirst).1.trans (only foundSecond).1.symm
  case entered => rfl
  case reached =>
    intro index path known
    obtain ⟨node, found, rfl⟩ := Registry.pathOf?_eq_some_iff.mp known
    rw [(only found).2]
    exact .entry
  case truthful => simp [active, Truthful]
  case fits => simp [active, Fits, Registry.pathOf?, FileNode.ofPath]
  case contents =>
    intro index node found
    rw [(only found).2]
    exact .inl ⟨rfl, rfl, rfl, rfl, rfl⟩
  case histories =>
    intro index node found
    rw [(only found).2]
    exact .inl rfl
  case duties =>
    intro duty
    cases duty with
    | claim index =>
      refine .inl fun inside => ?_
      simpa [Registry.size] using inside
    | analyse index =>
      by_cases first : index = 0
      · exact .inr ⟨.parse 0 entry, by simp [active], first⟩
      · exact .inl fun claimed => absurd (List.mem_singleton.mp claimed) first
    | record index =>
      by_cases first : index = 0
      · exact .inr ⟨.parse 0 entry, by simp [active], first⟩
      · exact .inl fun claimed => absurd (List.mem_singleton.mp claimed) first
  case balance =>
    simp [active, notes, owed, due, Registry.pathOf?, FileNode.ofPath]

end Consistent

namespace Job

private theorem Advance.registry_extends {around : Surroundings} {part result : Job}
    {state later : Discovery} (moved : Advance around part state result later) :
    state.registry.Extends later.registry := by
  cases moved with
  | @skip index state taken =>
    rcases state.registry.claim_cases index with ⟨_, same⟩ | ⟨_, first⟩
    · rw [same]
      exact .refl _
    · simp [first] at taken
  | @claim index state first =>
    rcases state.registry.claim_cases index with ⟨_, taken⟩ | ⟨_, claimed⟩
    · simp [taken] at first
    · rw [claimed]
      exact state.registry.claim_extends index
  | read parsed =>
    rw [registry_opening]
    exact .refl _
  | giveUp failed =>
    rw [registry_opening]
    exact .refl _
  | resolve index path outline edges specifier rest state =>
    rw [resolveOne_eq]
    cases target? around path specifier with
    | none => exact .refl _
    | some target => exact state.registry.intern_extends target
  | note index path outline edges state => exact state.registry.update_extends index fun _ => rfl
  | succeed index path state => exact recordHistory_extends around index path state
  | fail index path error state => exact recordHistory_extends around index path state
  | _ => exact .refl _

theorem build_extends {around : Surroundings} {job next : Job} {state later : Discovery}
    (built : Relation.ReflTransGen (BuildStep around) (job, state) (next, later)) :
    state.registry.Extends later.registry := by
  refine build_induction (fun _ later => state.registry.Extends later.registry) ?_ built (.refl _)
  intro _ _ _ _ _ moved before
  obtain ⟨part, result, others, advanced, _⟩ := step_active moved
  exact before.trans advanced.registry_extends

end Job

end CrateAtlas
