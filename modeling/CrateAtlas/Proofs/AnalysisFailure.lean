import CrateAtlas.Proofs.Exploration

/-!
Why an analysis fails. There are five obstacles: a missing path, settings that cannot be used, a
missing layout, a bad pattern for bug fixes and an entry file that cannot be read. They are met in this
order, and the first one that there is decides on the error; all other troubles only leave warnings.
-/

namespace CrateAtlas

open CrateAtlas.Path Discovery

inductive BadConfig (files : FileSystem) (file : Path) : ConfigError → Prop where
  | unreadable {cause : FileError} (failed : files.read file = .error cause) :
      BadConfig files file (.unreadable cause)
  | malformed {text : String} (read : files.read file = .ok text)
      (refused : (Toml.read? text).bind Config.ofEntries? = none) : BadConfig files file .malformed
  /-- The first of its patterns that is none. -/
  | badPattern {text : String} {config : Config} {before after : List String} {pattern : String}
      {cause : GlobError} (read : files.read file = .ok text)
      (accepted : (Toml.read? text).bind Config.ofEntries? = some config)
      (listed : config.exclude = before ++ pattern :: after)
      (fine : ∀ other ∈ before, ∃ glob, Glob.compile other = .ok glob)
      (refused : Glob.compile pattern = .error cause) : BadConfig files file (.badPattern pattern cause)

namespace AnalysisError

/-- The first of some obstacles that there is brings about an error. -/
def FirstOf : List (AnalysisError → Prop) → AnalysisError → Prop
  | [], _ => False
  | obstacle :: rest, error => obstacle error ∨ (∀ other, ¬ obstacle other) ∧ FirstOf rest error

section

variable (files : FileSystem) (tools : Tools) (path : Path) (options : AnalysisOptions)

def MissingPath (error : AnalysisError) : Prop :=
  files.fileExists path = false ∧ error = .invalidPath path

/-- The file with settings, the one that is asked for or else the one that is found, is of no use. -/
def UnusableConfig (error : AnalysisError) : Prop :=
  ∃ file cause, (options.config <|> Config.find? files path) = some file ∧ BadConfig files file cause ∧
    error = .config cause

/-- There is no layout, and no entry is given by an option, by the settings or by the path. -/
def MissingLayout (error : AnalysisError) : Prop :=
  ∃ settings cause, Settings.load files path options.config = .ok settings ∧
    Layout.discover files tools.metadata path options.manifest = .error cause ∧
    options.entry = none ∧ settings.entry = none ∧ AnalysisPlan.isSourceFile files path = false ∧
    error = .layout cause

/-- Histories are asked for by the settings, and not switched off, with a pattern that is none. -/
def BadPattern (error : AnalysisError) : Prop :=
  ∃ settings, Settings.load files path options.config = .ok settings ∧
    settings.history.enabled = true ∧ options.noHistory = false ∧
    Regex.compile? settings.history.bugPattern = none ∧ error = .history .badPattern

def chosenFile? (settings : Settings) : Option Path :=
  options.entry <|> settings.entry <|>
    (if AnalysisPlan.isSourceFile files path then some path else none) <|>
    (Layout.discover files tools.metadata path options.manifest).toOption.map Layout.entry

/-- The entry cannot be read at all; a file that is read and holds no text is none of these. -/
def UnreadableEntry (error : AnalysisError) : Prop :=
  ∃ settings entry cause, Settings.load files path options.config = .ok settings ∧
    chosenFile? files tools path options settings = some entry ∧
    files.read (files.canonical entry) = .error cause ∧ cause ≠ .notText ∧
    error = .entry ⟨files.canonical entry, .unreadable (files.canonical entry) cause.message⟩

def obstacles : List (AnalysisError → Prop) :=
  [MissingPath files path, UnusableConfig files path options, MissingLayout files tools path options,
    BadPattern files path options, UnreadableEntry files tools path options]

end

private theorem FirstOf.exists_mem {obstacles : List (AnalysisError → Prop)} {error : AnalysisError}
    (first : FirstOf obstacles error) : ∃ obstacle ∈ obstacles, obstacle error := by
  induction obstacles with
  | nil => exact first.elim
  | cons obstacle rest ih =>
    rcases first with here | ⟨_, later⟩
    · exact ⟨obstacle, .head _, here⟩
    · obtain ⟨other, member, there⟩ := ih later
      exact ⟨other, .tail _ member, there⟩

private theorem exists_firstOf {obstacles : List (AnalysisError → Prop)} {obstacle : AnalysisError → Prop}
    {error : AnalysisError} (member : obstacle ∈ obstacles) (there : obstacle error) :
    ∃ first, FirstOf obstacles first := by
  induction obstacles with
  | nil => cases member
  | cons head rest ih =>
    by_cases here : ∃ first, head first
    · obtain ⟨first, here⟩ := here
      exact ⟨first, .inl here⟩
    · rw [not_exists] at here
      rcases List.mem_cons.mp member with rfl | later
      · exact absurd there (here error)
      · obtain ⟨first, found⟩ := ih later
        exact ⟨first, .inr ⟨here, found⟩⟩

section

variable {ε α : Type} {stage : Except ε α} {wrap : ε → AnalysisError} {obstacle : AnalysisError → Prop}
  {rest : List (AnalysisError → Prop)} {error : AnalysisError}

/-- Where a stage of an analysis fails, its obstacle hides all later ones. -/
theorem firstOf_of_error
    (fails : ∀ error, obstacle error ↔ ∃ cause, stage = .error cause ∧ error = wrap cause)
    {cause : ε} (failed : stage = .error cause) :
    FirstOf (obstacle :: rest) error ↔ error = wrap cause := by
  constructor
  · rintro (here | ⟨never, _⟩)
    · obtain ⟨_, same, rfl⟩ := (fails error).mp here
      cases failed.symm.trans same
      rfl
    · exact absurd ((fails _).mpr ⟨cause, failed, rfl⟩) (never _)
  · rintro rfl
    exact .inl ((fails _).mpr ⟨cause, failed, rfl⟩)

/-- Where a stage of an analysis does not fail, only later obstacles count. -/
theorem firstOf_of_ok
    (fails : ∀ error, obstacle error ↔ ∃ cause, stage = .error cause ∧ error = wrap cause)
    {value : α} (passed : stage = .ok value) :
    FirstOf (obstacle :: rest) error ↔ FirstOf rest error := by
  have never (other : AnalysisError) : ¬ obstacle other := by
    intro here
    obtain ⟨_, failed, _⟩ := (fails other).mp here
    cases passed.symm.trans failed
  refine ⟨?_, fun later => .inr ⟨never, later⟩⟩
  rintro (here | ⟨_, later⟩)
  · exact absurd here (never error)
  · exact later

end

end AnalysisError

open AnalysisError

/-- In whichever order its files are processed, a build fails just if its entry cannot be read. -/
theorem Discovery.Yields.error_iff {around : Surroundings} {entry : Path}
    {result : Except EntryError Findings} (yields : Yields around entry result) {error : EntryError} :
    result = .error error ↔ ∃ cause, around.parse entry = .error cause ∧ cause.isUnreadable = true ∧
      error = ⟨entry, cause⟩ := by
  rcases yields.outcome_cases with
    ⟨cause, failed, unread, rfl⟩ | ⟨readable, registry, warnings, _, _, rfl, _⟩
  · constructor
    · rintro ⟨⟩
      exact ⟨cause, failed, unread, rfl⟩
    · rintro ⟨other, again, _, rfl⟩
      cases failed.symm.trans again
      rfl
  · refine ⟨nofun, ?_⟩
    rintro ⟨cause, failed, unread, _⟩
    rw [readable cause failed] at unread
    cases unread

/-- A source file is unreadable for any fault of reading it but that it holds no text. -/
theorem FileOutline.ofFile_unreadable_iff (files : FileSystem) (excludeTests : Bool) (path : Path)
    (error : EntryError) :
    (∃ cause, ofFile files excludeTests path = .error cause ∧ cause.isUnreadable = true ∧
      error = ⟨path, cause⟩) ↔
    ∃ fault, files.read path = .error fault ∧ fault ≠ .notText ∧
      error = ⟨path, .unreadable path fault.message⟩ := by
  unfold ofFile
  cases files.read path with
  | ok text =>
    constructor
    · rintro ⟨cause, failed, unread, rfl⟩
      unfold ofText at failed
      dsimp only at failed
      split at failed
      · cases failed
        cases unread
      · cases failed
    · rintro ⟨_, same, _⟩
      cases same
  | error fault =>
    cases fault <;> simp [SourceError.isUnreadable]

namespace Settings

private theorem patterns_cons_of_error {text : String} {rest : List String} {fault : GlobError}
    (refused : Glob.compile text = .error fault) :
    patterns (text :: rest) = .error (.badPattern text fault) := by
  rw [patterns, List.mapM_cons, refused]
  rfl

private theorem patterns_cons_of_ok {text : String} {rest : List String} {glob : Glob} {cause : ConfigError}
    (compiled : Glob.compile text = .ok glob) :
    patterns (text :: rest) = .error cause ↔ patterns rest = .error cause := by
  rw [patterns, List.mapM_cons, compiled, ← patterns]
  cases patterns rest with
  | error other => rfl
  | ok globs => exact ⟨nofun, nofun⟩

/-- Patterns are refused for the first of them that is none. -/
theorem patterns_error_iff {texts : List String} {cause : ConfigError} :
    patterns texts = .error cause ↔
      ∃ before pattern after fault, texts = before ++ pattern :: after ∧
        (∀ other ∈ before, ∃ glob, Glob.compile other = .ok glob) ∧
        Glob.compile pattern = .error fault ∧ cause = .badPattern pattern fault := by
  induction texts with
  | nil =>
    refine ⟨nofun, ?_⟩
    rintro ⟨before, _, _, _, listed, _⟩
    cases before <;> cases listed
  | cons text rest ih =>
    cases compiled : Glob.compile text with
    | error fault =>
      rw [patterns_cons_of_error compiled]
      constructor
      · intro same
        cases same
        exact ⟨[], text, rest, fault, rfl, by simp, compiled, rfl⟩
      · rintro ⟨before, pattern, after, other, listed, fine, refused, rfl⟩
        cases before with
        | nil =>
          cases listed
          cases compiled.symm.trans refused
          rfl
        | cons first before =>
          cases listed
          obtain ⟨glob, accepted⟩ := fine text (.head _)
          cases compiled.symm.trans accepted
    | ok glob =>
      rw [patterns_cons_of_ok compiled, ih]
      constructor
      · rintro ⟨before, pattern, after, fault, rfl, fine, refused⟩
        exact ⟨text :: before, pattern, after, fault, rfl,
          List.forall_mem_cons.mpr ⟨⟨glob, compiled⟩, fine⟩, refused⟩
      · rintro ⟨before, pattern, after, fault, listed, fine, refused, rfl⟩
        cases before with
        | nil =>
          cases listed
          cases compiled.symm.trans refused
        | cons first before =>
          cases listed
          exact ⟨before, pattern, after, fault, rfl, (List.forall_mem_cons.mp fine).2, refused, rfl⟩

private theorem ofConfig_error_iff {config : Config} {dir : Path} {cause : ConfigError} :
    ofConfig config dir = .error cause ↔ patterns config.exclude = .error cause := by
  unfold ofConfig
  cases patterns config.exclude with
  | error other =>
    constructor <;>
    · intro same
      cases same
      rfl
  | ok globs => exact ⟨nofun, nofun⟩

private theorem ofFile_error_iff {files : FileSystem} {file : Path} {cause : ConfigError} :
    ofFile files file = .error cause ↔ BadConfig files file cause := by
  rw [ofFile, Config.ofFile]
  cases read : files.read file with
  | error fault =>
    constructor
    · intro same
      cases same
      exact .unreadable read
    · intro bad
      cases bad with
      | unreadable failed =>
        cases read.symm.trans failed
        rfl
      | malformed other => cases read.symm.trans other
      | badPattern other => cases read.symm.trans other
  | ok text =>
    dsimp only
    rw [Config.ofText]
    cases accepted : (Toml.read? text).bind Config.ofEntries? with
    | none =>
      constructor
      · intro same
        cases same
        exact .malformed read accepted
      · intro bad
        cases bad with
        | unreadable failed => cases read.symm.trans failed
        | malformed => rfl
        | badPattern other found =>
          cases read.symm.trans other
          cases accepted.symm.trans found
    | some config =>
      change ofConfig config (file.parent?.getD ".") = .error cause ↔ _
      rw [ofConfig_error_iff, patterns_error_iff]
      constructor
      · rintro ⟨before, pattern, after, fault, listed, fine, refused, rfl⟩
        exact .badPattern read accepted listed fine refused
      · intro bad
        cases bad with
        | unreadable failed => cases read.symm.trans failed
        | malformed other refused =>
          cases read.symm.trans other
          cases accepted.symm.trans refused
        | badPattern other found listed fine refused =>
          cases read.symm.trans other
          cases accepted.symm.trans found
          exact ⟨_, _, _, _, listed, fine, refused, rfl⟩

end Settings

namespace AnalysisPlan

variable {files : FileSystem} {tools : Tools} {path : Path} {options : AnalysisOptions}

def findPath (files : FileSystem) (path : Path) : Except Path Unit :=
  if files.fileExists path then .ok () else .error path

theorem missingPath_iff (error : AnalysisError) : MissingPath files path error ↔
    ∃ cause, findPath files path = .error cause ∧ error = .invalidPath cause := by
  unfold MissingPath findPath
  cases files.fileExists path with
  | false => simp
  | true => simp

theorem unusableConfig_iff (error : AnalysisError) : UnusableConfig files path options error ↔
    ∃ cause, Settings.load files path options.config = .error cause ∧ error = .config cause := by
  unfold UnusableConfig Settings.load
  cases options.config <|> Config.find? files path with
  | none =>
    constructor
    · rintro ⟨_, _, same, _⟩
      cases same
    · rintro ⟨_, same, _⟩
      cases same
  | some file =>
    constructor
    · rintro ⟨_, cause, same, bad, rfl⟩
      cases same
      exact ⟨cause, Settings.ofFile_error_iff.mpr bad, rfl⟩
    · rintro ⟨cause, failed, rfl⟩
      exact ⟨file, cause, rfl, Settings.ofFile_error_iff.mp failed, rfl⟩

/-- The layout is missing only where no entry is asked for. -/
theorem missingLayout_iff {settings : Settings}
    (loaded : Settings.load files path options.config = .ok settings) (error : AnalysisError) :
    MissingLayout files tools path options error ↔
      ∃ cause, layoutFor files tools path options (entryFile? files path options settings) =
        .error cause ∧ error = .layout cause := by
  have implicit : (entryFile? files path options settings).isSome = false ↔
      options.entry = none ∧ settings.entry = none ∧ isSourceFile files path = false := by
    unfold entryFile?
    cases options.entry <;> cases settings.entry <;> cases isSourceFile files path <;> simp
  unfold MissingLayout layoutFor
  constructor
  · rintro ⟨other, cause, same, failed, noOption, noSetting, noSource, rfl⟩
    cases loaded.symm.trans same
    rw [failed]
    simp [implicit.mpr ⟨noOption, noSetting, noSource⟩]
  · rintro ⟨cause, failed, rfl⟩
    split at failed
    · cases failed
    · next found =>
      split at failed
      · cases failed
      · next none =>
        cases failed
        exact ⟨settings, cause, loaded, found, (implicit.mp (by simpa using none)).1,
          (implicit.mp (by simpa using none)).2.1, (implicit.mp (by simpa using none)).2.2, rfl⟩

/-- Wherever there is a layout, or none is needed, an entry is chosen. -/
theorem chosenFile?_eq {settings : Settings} {layout : Option Layout}
    (laid : layoutFor files tools path options (entryFile? files path options settings) =
      .ok layout) :
    chosenFile? files tools path options settings =
        (entryFile? files path options settings <|> layout.map Layout.entry) ∧
      (chosenFile? files tools path options settings).isSome = true := by
  have split : chosenFile? files tools path options settings =
      (entryFile? files path options settings <|>
        (Layout.discover files tools.metadata path options.manifest).toOption.map Layout.entry) := by
    unfold chosenFile? entryFile?
    cases options.entry <;> cases settings.entry <;> rfl
  rw [split]
  unfold layoutFor at laid
  cases found : Layout.discover files tools.metadata path options.manifest with
  | ok layout =>
    rw [found] at laid
    cases laid
    exact ⟨rfl, by cases entryFile? files path options settings <;> rfl⟩
  | error cause =>
    rw [found] at laid
    dsimp only at laid
    split at laid
    · next given =>
      cases laid
      exact ⟨rfl, by simpa [Except.toOption] using given⟩
    · cases laid

theorem badPattern_iff {settings : Settings}
    (loaded : Settings.load files path options.config = .ok settings) (error : AnalysisError) :
    BadPattern files path options error ↔
      ∃ cause, queryFor options settings.history = .error cause ∧ error = .history cause := by
  unfold BadPattern queryFor HistoryQuery.compile
  constructor
  · rintro ⟨other, same, enabled, wanted, refused, rfl⟩
    cases loaded.symm.trans same
    exact ⟨.badPattern, by simp [enabled, wanted, refused], rfl⟩
  · rintro ⟨cause, failed, rfl⟩
    split at failed
    · next asked =>
      rw [Bool.and_eq_true, Bool.not_eq_true'] at asked
      split at failed
      · cases failed
      · next refused =>
        cases failed
        exact ⟨settings, loaded, asked.1, asked.2, refused, rfl⟩
    · cases failed

inductive Makes (files : FileSystem) (tools : Tools) (path : Path) (options : AnalysisOptions) :
    Except AnalysisError AnalysisPlan → Prop where
  | missing (absent : findPath files path = .error path) :
      Makes files tools path options (.error (.invalidPath path))
  | unconfigured {cause : ConfigError} (there : findPath files path = .ok ())
      (failed : Settings.load files path options.config = .error cause) :
      Makes files tools path options (.error (.config cause))
  | unlaid {settings : Settings} {cause : LayoutError} (there : findPath files path = .ok ())
      (loaded : Settings.load files path options.config = .ok settings)
      (failed : layoutFor files tools path options (entryFile? files path options settings) =
        .error cause) :
      Makes files tools path options (.error (.layout cause))
  | unasked {settings : Settings} {layout : Option Layout} {cause : HistoryError}
      (there : findPath files path = .ok ())
      (loaded : Settings.load files path options.config = .ok settings)
      (laid : layoutFor files tools path options (entryFile? files path options settings) =
        .ok layout)
      (failed : queryFor options settings.history = .error cause) :
      Makes files tools path options (.error (.history cause))
  | planned {settings : Settings} {layout : Option Layout} {entry : Path}
      {query : Option HistoryQuery} {plan : AnalysisPlan} (there : findPath files path = .ok ())
      (loaded : Settings.load files path options.config = .ok settings)
      (laid : layoutFor files tools path options (entryFile? files path options settings) =
        .ok layout)
      (chosen : chosenFile? files tools path options settings = some entry)
      (asked : queryFor options settings.history = .ok query)
      (starts : plan.entry = files.canonical entry) : Makes files tools path options (.ok plan)

theorem make_makes (files : FileSystem) (tools : Tools) (path : Path) (options : AnalysisOptions) :
    Makes files tools path options (make files tools path options) := by
  unfold make
  cases there : files.fileExists path with
  | false => exact .missing (by simp [findPath, there])
  | true =>
    have there : findPath files path = .ok () := by simp [findPath, there]
    cases loaded : Settings.load files path options.config with
    | error cause => exact .unconfigured there loaded
    | ok settings =>
      simp only [Bool.not_true, Bool.false_eq_true, if_false, Except.mapError, bind, Except.bind]
      cases laid : layoutFor files tools path options
          (entryFile? files path options settings) with
      | error cause => exact .unlaid there loaded laid
      | ok layout =>
        obtain ⟨same, found⟩ := chosenFile?_eq laid
        obtain ⟨entry, chosen⟩ := Option.isSome_iff_exists.mp found
        simp only [← same, chosen]
        cases asked : queryFor options settings.history with
        | error cause => exact .unasked there loaded laid asked
        | ok query => exact .planned there loaded laid chosen asked rfl

/-- What an exploration fails for: its entry cannot be read. -/
theorem explore_error_iff {plan : AnalysisPlan} {error : EntryError} :
    (plan.explore files tools).1 = .error error ↔
      ∃ cause, (plan.surroundings files tools).parse plan.entry = .error cause ∧
        cause.isUnreadable = true ∧ error = ⟨plan.entry, cause⟩ := by
  unfold explore
  cases ran : run (plan.surroundings files tools) (files.root.ways.length + 2) plan.entry with
  | none =>
    refine ⟨nofun, ?_⟩
    -- an entry that cannot be parsed takes no more than one step
    rintro ⟨cause, failed, _⟩
    unfold run at ran
    simp [process, analyze, failed] at ran
  | some answer => exact (Yields.inOrder ran).error_iff

private theorem unreadableEntry_iff {settings : Settings} {entry : Path} {plan : AnalysisPlan}
    (loaded : Settings.load files path options.config = .ok settings)
    (chosen : chosenFile? files tools path options settings = some entry)
    (starts : plan.entry = files.canonical entry) (error : AnalysisError) :
    UnreadableEntry files tools path options error ↔
      ∃ cause, (∃ fault, (plan.surroundings files tools).parse plan.entry = .error fault ∧
        fault.isUnreadable = true ∧ cause = ⟨plan.entry, fault⟩) ∧ error = .entry cause := by
  have unread (cause : EntryError) :=
    FileOutline.ofFile_unreadable_iff files plan.excludeTests plan.entry cause
  constructor
  · rintro ⟨other, again, fault, loads, chooses, failed, read, rfl⟩
    cases loaded.symm.trans loads
    cases chosen.symm.trans chooses
    rw [← starts] at failed ⊢
    exact ⟨_, (unread _).mpr ⟨fault, failed, read, rfl⟩, rfl⟩
  · rintro ⟨cause, unreadable, rfl⟩
    obtain ⟨fault, failed, read, rfl⟩ := (unread cause).mp unreadable
    rw [starts] at failed ⊢
    exact ⟨settings, entry, fault, loaded, chosen, failed, read, rfl⟩

end AnalysisPlan

namespace AnalysisRun

open AnalysisPlan

theorem perform_outcome (files : FileSystem) (tools : Tools) (path : Path) (options : AnalysisOptions) :
    (∃ error, make files tools path options = .error error ∧
      (perform files tools path options).outcome = .error error) ∨
    ∃ plan, make files tools path options = .ok plan ∧
      ((∃ error, (plan.explore files tools).1 = .error error ∧
        (perform files tools path options).outcome = .error (.entry error)) ∨
      ∃ found atlas, (plan.explore files tools).1 = .ok found ∧
        (perform files tools path options).outcome = .ok atlas) := by
  unfold perform
  cases make files tools path options with
  | error error => exact .inl ⟨error, rfl, rfl⟩
  | ok plan =>
    refine .inr ⟨plan, rfl, ?_⟩
    dsimp only
    cases (plan.explore files tools).1 with
    | error error => exact .inl ⟨error, rfl, rfl⟩
    | ok found => exact .inr ⟨found, _, rfl, rfl⟩

/-- Once a plan is made, only an entry that cannot be read is left of the obstacles. -/
theorem firstOf_obstacles_of_make {files : FileSystem} {tools : Tools} {path : Path}
    {options : AnalysisOptions} {plan : AnalysisPlan}
    (made : make files tools path options = .ok plan) (error : AnalysisError) :
    FirstOf (obstacles files tools path options) error ↔
      ∃ cause, (∃ fault, (plan.surroundings files tools).parse plan.entry = .error fault ∧
        fault.isUnreadable = true ∧ cause = ⟨plan.entry, fault⟩) ∧ error = .entry cause := by
  have makes := make_makes files tools path options
  rw [made] at makes
  cases makes with
  | planned there loaded laid chosen asked starts =>
    unfold obstacles
    rw [firstOf_of_ok missingPath_iff there, firstOf_of_ok unusableConfig_iff loaded,
      firstOf_of_ok (missingLayout_iff loaded) laid, firstOf_of_ok (badPattern_iff loaded) asked,
      ← unreadableEntry_iff loaded chosen starts]
    simp [FirstOf]

/-- A plan that is not made fails for the first obstacle. -/
theorem firstOf_obstacles_of_make_error {files : FileSystem} {tools : Tools} {path : Path}
    {options : AnalysisOptions} {cause : AnalysisError}
    (made : make files tools path options = .error cause) (error : AnalysisError) :
    FirstOf (obstacles files tools path options) error ↔ error = cause := by
  have makes := make_makes files tools path options
  rw [made] at makes
  unfold obstacles
  cases makes with
  | missing absent => exact firstOf_of_error missingPath_iff absent
  | unconfigured there failed =>
    rw [firstOf_of_ok missingPath_iff there]
    exact firstOf_of_error unusableConfig_iff failed
  | unlaid there loaded failed =>
    rw [firstOf_of_ok missingPath_iff there, firstOf_of_ok unusableConfig_iff loaded]
    exact firstOf_of_error (missingLayout_iff loaded) failed
  | unasked there loaded laid failed =>
    rw [firstOf_of_ok missingPath_iff there, firstOf_of_ok unusableConfig_iff loaded,
      firstOf_of_ok (missingLayout_iff loaded) laid]
    exact firstOf_of_error (badPattern_iff loaded) failed

private theorem outcome_error_iff (files : FileSystem) (tools : Tools) (path : Path)
    (options : AnalysisOptions) (error : AnalysisError) :
    (perform files tools path options).outcome = .error error ↔
      FirstOf (obstacles files tools path options) error := by
  rcases perform_outcome files tools path options with ⟨cause, made, ended⟩ | ⟨plan, made, ended⟩
  · rw [firstOf_obstacles_of_make_error made, ended, Except.error.injEq, eq_comm]
  · simp only [firstOf_obstacles_of_make made, ← explore_error_iff]
    rcases ended with ⟨cause, failed, ended⟩ | ⟨found, atlas, passed, ended⟩
    · simp [ended, failed, eq_comm]
    · simp [ended, passed]

/-- An analysis fails just if there is an obstacle, with the error of the first one. This does not
depend on the order in which its files are processed, and where there is no obstacle a whole build
stands behind the outcome. -/
theorem perform_fails_iff (files : FileSystem) (tools : Tools) (path : Path)
    (options : AnalysisOptions) :
    (∀ error, (perform files tools path options).outcome = .error error ↔
      FirstOf (obstacles files tools path options) error) ∧
    ((∃ error, (perform files tools path options).outcome = .error error) ↔
      ∃ obstacle ∈ obstacles files tools path options, ∃ error, obstacle error) ∧
    (∀ plan result, make files tools path options = .ok plan →
      Yields (plan.surroundings files tools) plan.entry result → ∀ error, result = .error error ↔
        FirstOf (obstacles files tools path options) (.entry error)) ∧
    ((∀ name ∈ files.current, PlainName name) →
      (¬ ∃ obstacle ∈ obstacles files tools path options, ∃ error, obstacle error) →
      ∃ plan found atlas, make files tools path options = .ok plan ∧
        Yields (plan.surroundings files tools) plan.entry (.ok found) ∧
        (perform files tools path options).outcome = .ok atlas) := by
  have fails := outcome_error_iff files tools path options
  have some : (∃ error, (perform files tools path options).outcome = .error error) ↔
      ∃ obstacle ∈ obstacles files tools path options, ∃ error, obstacle error := by
    simp only [fails]
    constructor
    · rintro ⟨error, first⟩
      obtain ⟨obstacle, member, there⟩ := first.exists_mem
      exact ⟨obstacle, member, error, there⟩
    · rintro ⟨obstacle, member, error, there⟩
      exact exists_firstOf member there
  refine ⟨fails, some, ?_, ?_⟩
  · intro plan result made yields error
    rw [yields.error_iff, firstOf_obstacles_of_make made]
    simp [and_assoc]
  · intro current clear
    rw [← some] at clear
    rcases perform_outcome files tools path options with
      ⟨_, _, ended⟩ | ⟨plan, made, ⟨_, _, ended⟩ | ⟨found, atlas, explored, ended⟩⟩
    · exact absurd ⟨_, ended⟩ clear
    · exact absurd ⟨_, ended⟩ clear
    · exact ⟨plan, found, atlas, made, explored ▸ explore_yields current made, ended⟩

/-- A crate whose root file is no text, below settings with a bad glob and a bad pattern for bug fixes,
and beside settings that say nothing. -/
def cluttered : FileSystem where
  root := .directory [
    ("importgraph.toml", .file (some "[analysis]\nexclude = ['a/*', '[']\n[history]\nbug_pattern = '('\n")),
    ("empty.toml", .file (some "")), ("src", .directory [("lib.rs", .file none)])]
  current := []

theorem perform_fails_iff_cluttered :
    (perform cluttered ⟨none, fun _ => none⟩ "src" {}).outcome =
      .error (.config (.badPattern "[" ⟨0, .range⟩)) ∧
    FirstOf (obstacles cluttered ⟨none, fun _ => none⟩ "src" {})
      (.config (.badPattern "[" ⟨0, .range⟩)) ∧
    (∃ atlas, (perform cluttered ⟨none, fun _ => none⟩ "src/lib.rs"
      { config := some (.ofText "empty.toml"), noHistory := true }).outcome = .ok atlas) ∧
    ¬ ∃ obstacle ∈ obstacles cluttered ⟨none, fun _ => none⟩ "src/lib.rs"
      { config := some (.ofText "empty.toml"), noHistory := true }, ∃ error, obstacle error := by
  have failed : (perform cluttered ⟨none, fun _ => none⟩ "src" {}).outcome =
      .error (.config (.badPattern "[" ⟨0, .range⟩)) := by
    decide +kernel
  have passed : (perform cluttered ⟨none, fun _ => none⟩ "src/lib.rs"
      { config := some (.ofText "empty.toml"), noHistory := true }).outcome.isOk = true := by
    decide +kernel
  have first := perform_fails_iff cluttered ⟨none, fun _ => none⟩ "src" {}
  have second := perform_fails_iff cluttered ⟨none, fun _ => none⟩ "src/lib.rs"
    { config := some (.ofText "empty.toml"), noHistory := true }
  refine ⟨failed, (first.1 _).mp failed, ?_⟩
  rw [← second.2.1]
  cases ended : (perform cluttered ⟨none, fun _ => none⟩ "src/lib.rs"
      { config := some (.ofText "empty.toml"), noHistory := true }).outcome with
  | error error =>
    rw [ended] at passed
    cases passed
  | ok atlas => exact ⟨⟨atlas, rfl⟩, nofun⟩

end AnalysisRun

end CrateAtlas
