import CrateAtlas.Proofs.AtlasWellFormed

/-!
Where the coverage of a file comes from. The entries of a report name files in any spelling, from the
directory of the package or from the current directory. A file has coverage just if an entry is about it,
and then it has that of such an entry.
-/

namespace CrateAtlas

open CrateAtlas.Path FileSystem Discovery

namespace CoverageMap

private theorem get?_insert (coverage : CoverageMap) (stored path : Path) (percent : Double) :
    (coverage.insert stored percent).get? path =
      if stored.same path then some percent else coverage.get? path := by
  have alike {entry : Path × Double} (same : stored.same path = true) :
      entry.1.same path = entry.1.same stored := by
    rw [Bool.eq_iff_iff, same_iff, same_iff, (same_iff _ _).mp same]
  unfold insert get?
  split
  · next known =>
    -- only percentages change, so the entry that is found is the one that was found before
    have kept : (fun entry => entry.1.same path) ∘ (fun entry : Path × Double =>
        if entry.1.same stored then (entry.1, percent) else entry) = fun entry => entry.1.same path := by
      funext entry
      dsimp only [Function.comp]
      split <;> rfl
    rw [List.find?_map, kept, Option.map_map]
    by_cases same : stored.same path = true
    · obtain ⟨entry, member, found⟩ := List.any_eq_true.mp known
      have present : (coverage.entries.find? fun entry => entry.1.same path).isSome = true :=
        List.find?_isSome.mpr ⟨entry, member, (alike same).trans found⟩
      obtain ⟨first, earliest⟩ := Option.isSome_iff_exists.mp present
      have here : first.1.components = path.components := by simpa using List.find?_some earliest
      simp [earliest, here, (same_iff _ _).mp same]
    · rw [if_neg same]
      cases earliest : coverage.entries.find? fun entry => entry.1.same path with
      | none => rfl
      | some first =>
        have here : first.1.components = path.components := by simpa using List.find?_some earliest
        have other : first.1.components ≠ stored.components :=
          fun there => same ((same_iff _ _).mpr (there.symm.trans here))
        simp [other]
  · next unknown =>
    rw [List.find?_append, List.find?_singleton]
    by_cases same : stored.same path = true
    · have absent : coverage.entries.find? (fun entry => entry.1.same path) = none := by
        refine List.find?_eq_none.mpr fun entry member found => unknown ?_
        exact List.any_eq_true.mpr ⟨entry, member, (alike same).symm.trans found⟩
      simp [absent, same]
    · simp [same]

private theorem get?_foldl (entries : List (Path × Double)) (coverage : CoverageMap) (path : Path) :
    (entries.foldl (fun coverage entry => coverage.insert entry.1 entry.2) coverage).get? path =
      ((entries.reverse.find? (·.1.same path)).map (·.2)).or (coverage.get? path) := by
  induction entries generalizing coverage with
  | nil => rfl
  | cons entry rest ih =>
    rw [List.foldl_cons, ih, get?_insert, List.reverse_cons, List.find?_append, List.find?_singleton]
    cases rest.reverse.find? (·.1.same path) with
    | some later => rfl
    | none => by_cases same : entry.1.same path = true <;> simp [same]

/-- Of several entries for one path the last one counts. -/
theorem get?_ofList (entries : List (Path × Double)) (path : Path) :
    (ofList entries).get? path = (entries.reverse.find? (·.1.same path)).map (·.2) := by
  refine (get?_foldl entries empty path).trans ?_
  simp [empty, get?]

end CoverageMap

namespace CoverageReport

/-- The report gives a percentage for a name. What a summary says of all files together is no such entry,
nor is one without a number. -/
def Attests (report : CoverageReport) (name : String) (percent : Double) : Prop :=
  match report with
  | lines files => (name, percent) ∈ files
  | statements files => name ≠ totalName ∧ (name, some percent) ∈ files

theorem mem_percentages_iff (report : CoverageReport) (name : String) (percent : Double) :
    (name, percent) ∈ report.percentages ↔ report.Attests name percent := by
  cases report with
  | lines files => rfl
  | statements files =>
    simp only [percentages, Attests, List.mem_filterMap, List.mem_filter, bne_iff_ne]
    constructor
    · rintro ⟨⟨other, value⟩, ⟨listed, proper⟩, same⟩
      obtain ⟨number, rfl, named⟩ := Option.map_eq_some_iff.mp same
      obtain ⟨rfl, rfl⟩ := Prod.mk.inj named
      exact ⟨proper, listed⟩
    · rintro ⟨proper, listed⟩
      exact ⟨(name, some percent), ⟨listed, proper⟩, rfl⟩

/-- An entry of a report gives a path a percentage: its name, taken from a directory, comes to the path. -/
def Gives (files : FileSystem) (dir : Path) (report : CoverageReport) (path : Path) (percent : Double) :
    Prop :=
  ∃ name, report.Attests name percent ∧ (files.canonical (dir.join name)).same path = true

section

variable {files : FileSystem} {dir path : Path} {report : CoverageReport}

theorem get?_toMap_eq (files : FileSystem) (dir : Path) (report : CoverageReport) (path : Path) :
    (report.toMap files dir).get? path = (report.percentages.reverse.find? fun entry =>
      (files.canonical (dir.join entry.1)).same path).map (·.2) := by
  refine (CoverageMap.get?_ofList _ path).trans ?_
  rw [← List.map_reverse, List.find?_map, Option.map_map]
  rfl

theorem gives_of_get? {percent : Double} (found : (report.toMap files dir).get? path = some percent) :
    report.Gives files dir path percent := by
  rw [get?_toMap_eq] at found
  obtain ⟨entry, last, rfl⟩ := Option.map_eq_some_iff.mp found
  have member := List.mem_reverse.mp (List.mem_of_find?_eq_some last)
  exact ⟨entry.1, (mem_percentages_iff ..).mp member, by simpa using List.find?_some last⟩

theorem isSome_get?_iff : ((report.toMap files dir).get? path).isSome = true ↔
    ∃ percent, report.Gives files dir path percent := by
  constructor
  · intro found
    obtain ⟨percent, found⟩ := Option.isSome_iff_exists.mp found
    exact ⟨percent, gives_of_get? found⟩
  · rintro ⟨percent, name, attested, meets⟩
    rw [get?_toMap_eq, Option.isSome_map, List.find?_isSome]
    exact ⟨(name, percent), List.mem_reverse.mpr ((mem_percentages_iff ..).mpr attested), meets⟩

end

end CoverageReport

namespace FileSystem

variable {files : FileSystem}

def SamePlace (files : FileSystem) (first second : Path) : Prop :=
  ∃ place, files.locate first = .ok place ∧ files.locate second = .ok place

/-- A name that is taken from a directory is about a file: it denotes the file, or it spells its path. -/
def Meets (files : FileSystem) (dir : Path) (name : String) (file : Path) : Prop :=
  files.SamePlace (dir.join name) file ∨ ((files.canonical dir).join name).same file = true

private theorem canonical_absolute {way : List Bytes} (plain : ∀ name ∈ way, PlainName name) :
    files.canonical (absolute way) = absolute way := by
  cases located : files.locate (absolute way) with
  | error error => simp [canonical, canonical?, located]
  | ok place =>
    have same : place.way = way := by
      by_cases top : way = []
      · have steps := (locate_steps located).1
        rw [components_absolute plain, absolute_isAbsolute, top] at steps
        exact (Except.ok.inj steps).symm.trans top.symm
      · exact ((locate_absolute plain top place).mp located).1
    simp [canonical, canonical?, located, same]

/-- The canonical path of what is meant is that of a file just if the file is meant, or spelled out by a
path that denotes nothing. -/
theorem canonical_same_iff (current : ∀ name ∈ files.current, PlainName name) {path file : Path}
    (canonical : files.canonical? file = some file) :
    (files.canonical path).same file = true ↔ files.SamePlace path file ∨ path.same file = true := by
  rw [same_iff, same_iff]
  cases there : files.locate file with
  | error error => simp [canonical?, there] at canonical
  | ok place =>
    have spelled : absolute place.way = file := by simpa [canonical?, there] using canonical
    obtain ⟨plain, found⟩ := locate_way (.inr current) there
    cases located : files.locate path with
    | error error => simp [FileSystem.canonical, canonical?, located, SamePlace]
    | ok other =>
      have own : files.canonical path = absolute other.way := by
        simp [FileSystem.canonical, canonical?, located]
      obtain ⟨plain', found'⟩ := locate_way (.inr current) located
      rw [own]
      constructor
      · intro same
        refine .inl ⟨place, ?_, there⟩
        obtain ⟨way, tree⟩ := place
        obtain ⟨way', tree'⟩ := other
        rw [← spelled] at same
        obtain rfl : way' = way := absolute_inj plain' plain same
        obtain rfl : tree' = tree := Option.some.inj (found'.symm.trans found)
        exact located
      · intro met
        have same : other = place := by
          rcases met with ⟨common, first, second⟩ | same
          · exact (Except.ok.inj (located.symm.trans first)).trans
              (Except.ok.inj (there.symm.trans second)).symm
          · exact locate_same same located there
        rw [same, spelled]

private theorem meets_iff (current : ∀ name ∈ files.current, PlainName name) {file : Path}
    (canonical : files.canonical? file = some file) (dir : Path) (name : String) :
    (files.canonical ((files.canonical dir).join name)).same file = true ↔ files.Meets dir name file := by
  rw [canonical_same_iff current canonical, Meets, SamePlace, SamePlace]
  simp only [locate_canonical_join current]

end FileSystem

/-- The coverage of every file is what the report says of it, from a directory. -/
structure Atlas.CoveredBy (files : FileSystem) (dir : Path) (report : CoverageReport) (atlas : Atlas) :
    Prop where
  /-- A file has coverage just if an entry is about it. -/
  present : ∀ file ∈ atlas.files, file.coverage.isSome = true ↔
    ∃ name percent, report.Attests name percent ∧ files.Meets dir name file.path
  /-- It has the percentage of such an entry. -/
  attested : ∀ file ∈ atlas.files, ∀ percent, file.coverage = some percent →
    ∃ name, report.Attests name percent ∧ files.Meets dir name file.path

namespace CoverageReport

variable {files : FileSystem} {file : Path} {report : CoverageReport}

private theorem get?_toMap (current : ∀ name ∈ files.current, PlainName name)
    (canonical : files.canonical? file = some file) (dir : Path) :
    (((report.toMap files (files.canonical dir)).get? file).isSome = true ↔
      ∃ name percent, report.Attests name percent ∧ files.Meets dir name file) ∧
    ∀ percent, (report.toMap files (files.canonical dir)).get? file = some percent →
      ∃ name, report.Attests name percent ∧ files.Meets dir name file := by
  have meets (percent : Double) : report.Gives files (files.canonical dir) file percent ↔
      ∃ name, report.Attests name percent ∧ files.Meets dir name file :=
    exists_congr fun name => and_congr_right fun _ => meets_iff current canonical dir name
  refine ⟨?_, fun percent found => (meets percent).mp (gives_of_get? found)⟩
  rw [isSome_get?_iff, exists_comm]
  exact exists_congr meets

end CoverageReport

namespace AnalysisPlan

variable {files : FileSystem} {tools : Tools} {path : Path} {options : AnalysisOptions}
  {plan : AnalysisPlan}

/-- The directory from which the names of a report are taken: that of the package, or the current one if
there is no package. -/
def reportDir (files : FileSystem) (tools : Tools) (path : Path) (options : AnalysisOptions) : Path :=
  match Layout.discover files tools.metadata path options.manifest with
  | .ok layout => layout.projectDir
  | .error _ => absolute files.current

private theorem make_coverageDir (current : ∀ name ∈ files.current, PlainName name)
    (made : make files tools path options = .ok plan) :
    plan.coverageDir = files.canonical (reportDir files tools path options) := by
  unfold make at made
  split at made
  · cases made
  · obtain ⟨settings, _, made⟩ := bind_ok made
    obtain ⟨layout, laid, made⟩ := bind_ok made
    split at made
    · cases made
    · obtain ⟨query, _, made⟩ := bind_ok made
      cases made
      unfold layoutFor at laid
      unfold reportDir
      cases found : Layout.discover files tools.metadata path options.manifest with
      | ok package =>
        rw [found] at laid
        cases laid
        rfl
      | error error =>
        rw [found] at laid
        dsimp only at laid
        split at laid
        · cases laid
          exact (canonical_absolute current).symm
        · cases laid

private theorem chart_coveredBy (current : ∀ name ∈ files.current, PlainName name)
    (made : make files tools path options = .ok plan) {reportPath : Path} {text : String}
    {report : CoverageReport} (asked : plan.report = some reportPath)
    (read : files.read reportPath = .ok text) (understood : CoverageReport.ofText text = .ok report)
    {findings : Findings} (yields : Yields (plan.surroundings files tools) plan.entry (.ok findings)) :
    (plan.chart files findings).CoveredBy files (reportDir files tools path options) report := by
  have loaded : (plan.coverage files).1 =
      some (report.toMap files (files.canonical (reportDir files tools path options))) := by
    rw [← make_coverageDir current made]
    simp [coverage, asked, CoverageMap.ofFile, read, CoverageMap.ofText, understood, bind, Except.bind,
      pure, Except.pure]
  have covered (file : FileRecord) (member : file ∈ (plan.chart files findings).files) :
      files.canonical? file.path = some file.path ∧ file.coverage =
        (report.toMap files (files.canonical (reportDir files tools path options))).get? file.path := by
    obtain ⟨index, inside, rfl⟩ := List.mem_mapIdx.mp member
    refine ⟨(found_file current made yields (Array.mem_toList_iff.mp (List.getElem_mem inside))).2, ?_⟩
    exact congrArg (fun coverage => coverage.bind (·.get? findings.nodes.toList[index].path)) loaded
  constructor
  · intro file member
    obtain ⟨canonical, same⟩ := covered file member
    rw [same]
    exact (CoverageReport.get?_toMap current canonical _).1
  · intro file member
    obtain ⟨canonical, same⟩ := covered file member
    rw [same]
    exact (CoverageReport.get?_toMap current canonical _).2

end AnalysisPlan

namespace AnalysisRun

private theorem withUnreached_coveredBy {files : FileSystem} {dir : Path} {report : CoverageReport}
    {atlas : Atlas} (entry : Path) (covered : atlas.CoveredBy files dir report) :
    (withUnreached files entry atlas).CoveredBy files dir report := by
  unfold withUnreached
  split
  · exact covered
  · exact ⟨covered.present, covered.attested⟩

/-- Whenever an analysis succeeds and its coverage report can be read, a file has coverage just if an entry
of the report is about it, however the entry spells the file, and then it has that of such an entry. This
holds in whichever order the files are processed. -/
theorem perform_coverage_attaches (files : FileSystem) (tools : Tools) (path : Path)
    (options : AnalysisOptions) (current : ∀ name ∈ files.current, PlainName name) (plan : AnalysisPlan)
    (made : AnalysisPlan.make files tools path options = .ok plan) (reportPath : Path) (text : String)
    (report : CoverageReport) (asked : plan.report = some reportPath)
    (read : files.read reportPath = .ok text) (understood : CoverageReport.ofText text = .ok report) :
    (∀ atlas, (perform files tools path options).outcome = .ok atlas →
      atlas.CoveredBy files (AnalysisPlan.reportDir files tools path options) report) ∧
    ∀ findings, Yields (plan.surroundings files tools) plan.entry (.ok findings) →
      (plan.chart files findings).CoveredBy files (AnalysisPlan.reportDir files tools path options)
        report ∧
      (withUnreached files plan.entry (plan.chart files findings)).CoveredBy files
        (AnalysisPlan.reportDir files tools path options) report := by
  have charted (findings : Findings)
      (yields : Yields (plan.surroundings files tools) plan.entry (.ok findings)) :=
    AnalysisPlan.chart_coveredBy current made asked read understood yields
  refine ⟨?_, fun findings yields =>
    ⟨charted findings yields, withUnreached_coveredBy plan.entry (charted findings yields)⟩⟩
  intro atlas performed
  obtain ⟨other, findings, made', explored, rfl⟩ := perform_ok performed
  obtain rfl : plan = other := Except.ok.inj (made.symm.trans made')
  have covered := charted findings (explored ▸ AnalysisPlan.explore_yields current made)
  split
  · exact withUnreached_coveredBy plan.entry covered
  · exact covered

def orchard : FileSystem where
  root := .directory [("p", .directory [
    ("src", .directory [("lib.rs", .file (some "mod a;\nmod b;\n")), ("a.rs", .file (some "")),
      ("b.rs", .file (some ""))]),
    ("summary.json", .file (some ("\x7b\"total\":\x7b\"statements\":\x7b\"pct\":9\x7d\x7d," ++
      "\"src/..//src/./lib.rs\":\x7b\"statements\":\x7b\"pct\":0\x7d\x7d," ++
      "\"src/a.rs/\":\x7b\"statements\":\x7b\"pct\":8\x7d\x7d\x7d")))])]
  current := ["p", "src"]

def orchardTools : Tools where
  log := none
  metadata _ := some ⟨"/p", [(⟨"orchard", "/p/Cargo.toml", [],
    [⟨"orchard", ["lib"], "/p/src/lib.rs"⟩]⟩, true)]⟩

def orchardOptions : AnalysisOptions where
  noHistory := true
  coverage := some (.ofText "../summary.json")

theorem perform_coverage_attaches_orchard :
    (∀ name ∈ orchard.current, PlainName name) ∧
    AnalysisPlan.reportDir orchard orchardTools "/p" orchardOptions = "/p" ∧
    orchard.Meets "/p" "src/..//src/./lib.rs" "/p/src/lib.rs" ∧
    orchard.Meets "/p" "src/a.rs/" "/p/src/a.rs" ∧
    ∃ plan findings text report,
      AnalysisPlan.make orchard orchardTools "/p" orchardOptions = .ok plan ∧
      plan.report = some (.ofText "../summary.json") ∧ orchard.read "../summary.json" = .ok text ∧
      CoverageReport.ofText text = .ok report ∧
      report.percentages.map (·.1) = ["src/..//src/./lib.rs", "src/a.rs/"] ∧
      Yields (plan.surroundings orchard orchardTools) plan.entry (.ok findings) ∧
      findings.nodes.toList.map (·.path) =
        [.ofText "/p/src/lib.rs", .ofText "/p/src/a.rs", .ofText "/p/src/b.rs"] ∧
      (plan.chart orchard findings).CoveredBy orchard "/p" report := by
  have current : ∀ name ∈ orchard.current, PlainName name :=
    List.forall_mem_cons.mpr ⟨⟨by decide, by decide, by decide, by decide⟩,
      List.forall_mem_singleton.mpr ⟨by decide, by decide, by decide, by decide⟩⟩
  have based : AnalysisPlan.reportDir orchard orchardTools "/p" orchardOptions = "/p" := by
    decide +kernel
  have evaluated : (AnalysisPlan.make orchard orchardTools "/p" orchardOptions).toOption.bind
      (fun plan => (plan.explore orchard orchardTools).1.toOption.map fun findings =>
        (plan.report, findings.nodes.toList.map (·.path))) = some (some (.ofText "../summary.json"),
          [.ofText "/p/src/lib.rs", .ofText "/p/src/a.rs", .ofText "/p/src/b.rs"]) := by
    decide +kernel
  have loaded : (orchard.read "../summary.json").toOption.bind (fun text =>
      (CoverageReport.ofText text).toOption.map fun report => report.percentages.map (·.1)) =
        some ["src/..//src/./lib.rs", "src/a.rs/"] := by
    decide +kernel
  obtain ⟨plan, made, explored⟩ := Option.bind_eq_some_iff.mp evaluated
  obtain ⟨findings, explored, shown⟩ := Option.map_eq_some_iff.mp explored
  obtain ⟨asked, listed⟩ := Prod.mk.inj shown
  obtain ⟨text, read, understood⟩ := Option.bind_eq_some_iff.mp loaded
  obtain ⟨report, understood, named⟩ := Option.map_eq_some_iff.mp understood
  have made := ok_of_toOption made
  have read := ok_of_toOption read
  have understood := ok_of_toOption understood
  have yields := ok_of_toOption explored ▸ AnalysisPlan.explore_yields current made
  have covered := perform_coverage_attaches orchard orchardTools "/p" orchardOptions current plan made
    "../summary.json" text report asked read understood
  refine ⟨current, based, .inl ⟨⟨["p", "src", "lib.rs"], .file (some "mod a;\nmod b;\n")⟩, rfl, rfl⟩,
    .inr (by decide +kernel), plan, findings, text, report, made, asked, read, understood, named, yields,
    listed, ?_⟩
  rw [← based]
  exact (covered.2 findings yields).1

end AnalysisRun

end CrateAtlas
