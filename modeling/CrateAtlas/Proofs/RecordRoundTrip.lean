import CrateAtlas.CommandLine.Run
import CrateAtlas.Proofs.JsonDecode
import CrateAtlas.Proofs.WrittenPaths

/-!
Results are read back as they were written. The members of a record are written in the order of its
fields, and each of them fills a slot of the draft that is still empty; a slot that stays empty is
that of an absent value. A percentage that is not a finite number is written like one, and is lost.
-/

namespace CrateAtlas

open Json

variable {α β σ : Type}

/-- A member that may be absent is noted if it is there. -/
theorem notes_member? {step : σ → String → Node → Decode σ} {draft : σ} {key : String}
    {write : β → Value} {decoder : Node → Decode α} {f : β → α} {value : Option β}
    (decodes : ∀ x ∈ value, Decodes (write x) decoder (f x)) (put : σ → Option α → σ)
    (noted : ∀ node, step draft key node = do return put draft (← Node.once none (decoder node)))
    (absent : put draft none = draft) :
    Notes step draft (member? key (value.map write)) (put draft (value.map f)) := by
  cases value with
  | none =>
    change Notes step draft [] (put draft none)
    rw [absent]
    exact .nil step draft
  | some x => exact .cons ((decodes x rfl).once put noted) (.nil step _)

theorem join_map_some (value : Option α) : (value.map some).join = value := by
  cases value <;> rfl

private theorem join_map_filter (value : Option α) (p : α → Bool) :
    (value.map fun x => (some x).filter p).join = value.filter p := by
  cases value <;> simp

namespace CommitHistory

def counts (history : CommitHistory) : List Nat :=
  [history.commits, history.bugCommits]

private theorem decodes_toJson {history : CommitHistory}
    (fits : ∀ count ∈ history.counts, count ≤ maxNatural) :
    Decodes history.toJson ofJson history := by
  have commits : history.commits ≤ maxNatural := fits _ (by simp [counts])
  have bugCommits : history.bugCommits ≤ maxNatural := fits _ (by simp [counts])
  refine decodes_struct ⟨some history.commits, some history.bugCommits⟩ ?_ rfl
  refine .cons ((decodes_natural commits).once (fun draft commits => { draft with commits })
    fun _ => rfl) ?_
  refine .cons ((decodes_natural bugCommits).once
    (fun draft bugCommits => { draft with bugCommits }) fun _ => rfl) ?_
  exact .nil _ _

end CommitHistory

theorem Path.toJson_ofText (text : String) : (ofText text).toJson = .string text := by
  rw [toJson, text?, ofText, Bytes.text?_ofText]

theorem Path.exists_ofText {path : Path} (isText : path.bytes.IsText) : ∃ text, path = ofText text := by
  obtain ⟨text, spelled⟩ := Bytes.isText_iff_exists.mp isText
  exact ⟨text, Path.ext spelled⟩

theorem Path.decodes_toJson {path : Path} (isText : path.bytes.IsText) :
    Decodes path.toJson Path.ofJson path := by
  obtain ⟨text, rfl⟩ := exists_ofText isText
  obtain ⟨node, reads, decoded⟩ := decodes_text text
  rw [toJson_ofText]
  exact ⟨node, reads, by simp [Path.ofJson, decoded]⟩

namespace FileRecord

def counts (file : FileRecord) : List Nat :=
  file.lineCount.toList ++ file.imports ++ [file.importsDirect, file.importsDepth] ++
    file.complexity.toList ++ file.maxDepth.toList ++ file.history.toList.flatMap (·.counts)

/-- The part of a file that is written: a percentage that is not a finite number is left out. -/
def legible (file : FileRecord) : FileRecord :=
  { file with coverage := file.coverage.filter (·.isFinite) }

private theorem decodes_toJson {file : FileRecord} (isText : file.path.bytes.IsText)
    (fits : ∀ count ∈ file.counts, count ≤ maxNatural)
    (readsBack : ∀ percent ∈ file.coverage, percent.isFinite = true →
      decode Node.double percent.shortest = .ok percent) :
    Decodes file.toJson ofJson file.legible := by
  have natural {count : Nat} (member : count ∈ file.counts) :
      Decodes (.natural count) Node.natural count :=
    decodes_natural (fits count member)
  have optional {count : Nat} (member : count ∈ file.counts) :
      Decodes (.natural count) (Node.orNull Node.natural) (some count) :=
    (natural member).orNull rfl
  have percentage (percent : Double) (member : percent ∈ file.coverage) :
      Decodes (.number (.double percent)) (Node.orNull Node.double)
        ((some percent).filter (·.isFinite)) := by
    cases finite : percent.isFinite with
    | true =>
      rw [Option.filter_some_pos finite]
      exact (decodes_double finite (readsBack percent member finite)).orNull rfl
    | false =>
      rw [Option.filter_some_neg (by simp [finite])]
      exact decodes_infinite finite Node.double
  have past (history : CommitHistory) (member : history ∈ file.history) :
      Decodes history.toJson (Node.orNull CommitHistory.ofJson) (some history) := by
    refine (CommitHistory.decodes_toJson fun count counted => fits count ?_).orNull rfl
    simp_all [counts]
  refine decodes_struct
    { name := some file.name
      path := some file.path
      lineCount := file.lineCount.map some
      imports := some file.imports
      importsExternal := some file.importsExternal
      importsDirect := some file.importsDirect
      importsDepth := some file.importsDepth
      complexity := file.complexity.map some
      maxDepth := file.maxDepth.map some
      coverage := file.coverage.map fun percent => (some percent).filter (·.isFinite)
      history := file.history.map some } ?_ ?_
  · simp only [List.append_assoc, List.cons_append, List.nil_append]
    refine .cons ((decodes_text _).once (fun draft name => { draft with name }) fun _ => rfl) ?_
    refine .cons ((Path.decodes_toJson isText).once (fun draft path => { draft with path })
      fun _ => rfl) ?_
    refine .append (notes_member? (fun count member => optional (by simp_all [counts]))
      (fun draft lineCount => { draft with lineCount }) (fun _ => rfl) rfl) ?_
    refine .cons ((decodes_list_self fun count member => natural (by simp_all [counts])).once
      (fun draft imports => { draft with imports }) fun _ => rfl) ?_
    refine .cons ((decodes_list_self fun specifier member => decodes_text specifier).once
      (fun draft importsExternal => { draft with importsExternal }) fun _ => rfl) ?_
    refine .cons ((natural (by simp [counts])).once
      (fun draft importsDirect => { draft with importsDirect }) fun _ => rfl) ?_
    refine .cons ((natural (by simp [counts])).once
      (fun draft importsDepth => { draft with importsDepth }) fun _ => rfl) ?_
    refine .append (notes_member? (fun count member => optional (by simp_all [counts]))
      (fun draft complexity => { draft with complexity }) (fun _ => rfl) rfl) ?_
    refine .append (notes_member? (fun count member => optional (by simp_all [counts]))
      (fun draft maxDepth => { draft with maxDepth }) (fun _ => rfl) rfl) ?_
    refine .append (notes_member? percentage (fun draft coverage => { draft with coverage })
      (fun _ => rfl) rfl) ?_
    exact notes_member? past (fun (draft : Draft) history => { draft with history })
      (fun _ => rfl) rfl
  · simp [Draft.complete?, legible, join_map_some, join_map_filter]

private theorem legible_eq_self_iff {file : FileRecord} :
    file.legible = file ↔ ∀ percent ∈ file.coverage, percent.isFinite = true := by
  obtain ⟨_, _, _, _, _, _, _, _, _, coverage, _⟩ := file
  cases coverage <;> simp [legible, Option.filter_eq_some_iff]

end FileRecord

namespace Warning

private theorem decodes_kind {name : String} {tag : Tag} (known : Tag.ofName? name = some tag)
    (values : List (String × Value)) :
    Decodes (.string name) (noteMember (none, values) "kind") (some tag, values) := by
  obtain ⟨node, reads, decoded⟩ := decodes_text name
  refine ⟨node, reads, ?_⟩
  simp [noteMember, tagOfJson, Node.once, decoded, known, bind, Except.bind, pure, Except.pure]

private theorem decodes_field {key : String} (field : key ≠ "kind") (text : String) (tag : Option Tag)
    (values : List (String × Value)) :
    Decodes (.string text) (noteMember (tag, values) key)
      (tag, values ++ [(key, .string text)]) := by
  obtain ⟨node, reads, decoded⟩ := decodes_strict text valueDepth
  refine ⟨node, reads, ?_⟩
  simp [noteMember, field, decoded, bind, Except.bind, pure, Except.pure]

def texts (fields : List (String × String)) : List (String × Value) :=
  fields.map fun field => (field.1, .string field.2)

private theorem notes_texts {fields : List (String × String)} (named : ∀ field ∈ fields, field.1 ≠ "kind")
    (tag : Option Tag) (values : List (String × Value)) :
    Notes noteMember (tag, values) (texts fields) (tag, values ++ texts fields) := by
  induction fields generalizing values with
  | nil => simpa [texts] using Notes.nil noteMember (tag, values)
  | cons field fields ih =>
    have first := decodes_field (named field List.mem_cons_self) field.2 tag values
    have rest := ih (fun other member => named other (List.mem_cons_of_mem field member))
      (values ++ [(field.1, .string field.2)])
    simpa [texts] using Notes.cons first rest

private theorem decodes_tagged {name : String} {tag : Tag} (known : Tag.ofName? name = some tag)
    (fields : List (String × String)) (named : ∀ field ∈ fields, field.1 ≠ "kind")
    {warning : Warning} (made : ofMembers? (texts fields) tag = some warning) :
    Decodes (.object (("kind", .string name) :: texts fields)) ofJson warning := by
  have notes := Notes.cons (decodes_kind known []) (notes_texts named (some tag) [])
  obtain ⟨nodes, reads, folded⟩ := notes
  refine ⟨.object nodes true, Value.readsAs_object reads, ?_⟩
  simp [ofJson, folded, made, completed, bind, Except.bind, pure, Except.pure]

private theorem decodes_toJson {warning : Warning} (isText : ∀ path ∈ warning.paths, path.bytes.IsText) :
    Decodes warning.toJson ofJson warning := by
  cases warning with
  | parseError path message =>
    obtain ⟨text, rfl⟩ := Path.exists_ofText (isText path (by simp [paths]))
    rw [toJson, Path.toJson_ofText]
    exact decodes_tagged rfl [("path", text), ("message", message)] (by simp) rfl
  | resolutionFailure path specifier =>
    obtain ⟨text, rfl⟩ := Path.exists_ofText (isText path (by simp [paths]))
    rw [toJson, Path.toJson_ofText]
    exact decodes_tagged rfl [("path", text), ("specifier", specifier)] (by simp) rfl
  | metricUnavailable path metric message =>
    cases path with
    | none =>
      exact decodes_tagged rfl [("metric", metric.name), ("message", message)] (by simp)
        (by cases metric <;> rfl)
    | some path =>
      obtain ⟨text, rfl⟩ := Path.exists_ofText (isText path (by simp [paths]))
      rw [toJson, Option.map_some, Path.toJson_ofText]
      exact decodes_tagged rfl [("path", text), ("metric", metric.name), ("message", message)]
        (by simp) (by cases metric <;> rfl)

end Warning

namespace Atlas

def counts (atlas : Atlas) : List Nat :=
  atlas.files.flatMap (·.counts) ++ atlas.cycles.toList.flatten.flatten

/-- The part of a result that is written. -/
def legible (atlas : Atlas) : Atlas :=
  { atlas with files := atlas.files.map (·.legible) }

theorem legible_eq_self_iff {atlas : Atlas} : atlas.legible = atlas ↔
    ∀ file ∈ atlas.files, ∀ percent ∈ file.coverage, percent.isFinite = true := by
  have files : atlas.legible = atlas ↔ atlas.files.map (·.legible) = atlas.files := by
    obtain ⟨_, _, _, _⟩ := atlas
    simp [legible]
  have each : atlas.files.map (·.legible) = atlas.files ↔ ∀ file ∈ atlas.files, file.legible = file := by
    nth_rewrite 2 [← List.map_id atlas.files]
    exact List.map_inj_left
  rw [files, each]
  exact forall₂_congr fun file _ => FileRecord.legible_eq_self_iff

theorem decodes_toJson {atlas : Atlas} (isText : ∀ path ∈ atlas.paths, path.bytes.IsText)
    (fits : ∀ count ∈ atlas.counts, count ≤ maxNatural)
    (readsBack : ∀ file ∈ atlas.files, ∀ percent ∈ file.coverage, percent.isFinite = true →
      decode Node.double percent.shortest = .ok percent) :
    Decodes atlas.toJson ofJson atlas.legible := by
  simp only [paths, List.forall_mem_append, List.forall_mem_flatMap, List.forall_mem_map] at isText
  obtain ⟨⟨filePaths, unreachedPaths⟩, warningPaths⟩ := isText
  have file (file : FileRecord) (member : file ∈ atlas.files) :
      Decodes file.toJson FileRecord.ofJson file.legible := by
    refine FileRecord.decodes_toJson (filePaths file member) (fun count counted => fits count ?_)
      (readsBack file member)
    simp only [counts, List.mem_append, List.mem_flatMap]
    exact .inl ⟨file, member, counted⟩
  have natural {cycles : List (List Nat)} (found : cycles ∈ atlas.cycles) {cycle : List Nat}
      (member : cycle ∈ cycles) {index : Nat} (within : index ∈ cycle) :
      Decodes (.natural index) Node.natural index := by
    refine decodes_natural (fits index ?_)
    have written : atlas.cycles = some cycles := found
    simp only [counts, written, List.mem_append, Option.toList_some, List.flatten_singleton,
      List.mem_flatten]
    exact .inr ⟨cycle, member, within⟩
  have cycles (cycles : List (List Nat)) (found : cycles ∈ atlas.cycles) :
      Decodes (.list (.list .natural) cycles) (Node.orNull (Node.list (Node.list Node.natural)))
        (some cycles) :=
    (decodes_list_self fun cycle member => decodes_list_self fun index within =>
      natural found member within).orNull rfl
  have unreached (paths : List Path) (found : paths ∈ atlas.unreached) :
      Decodes (.list Path.toJson paths) (Node.orNull (Node.list Path.ofJson)) (some paths) := by
    have written : atlas.unreached.getD [] = paths := by rw [found, Option.getD_some]
    rw [written] at unreachedPaths
    exact (decodes_list_self fun path member =>
      Path.decodes_toJson (unreachedPaths path member)).orNull rfl
  refine decodes_struct
    { files := some (atlas.files.map (·.legible))
      cycles := atlas.cycles.map some
      unreached := atlas.unreached.map some
      warnings := if atlas.warnings.isEmpty then none else some atlas.warnings } ?_ ?_
  · simp only [List.append_assoc, List.cons_append, List.nil_append]
    refine .cons ((decodes_list file).once (fun draft files => { draft with files })
      fun _ => rfl) ?_
    refine .append (notes_member? cycles (fun draft cycles => { draft with cycles })
      (fun _ => rfl) rfl) ?_
    refine .append (notes_member? unreached
      (fun draft unreached => { draft with unreached }) (fun _ => rfl) rfl) ?_
    split
    next => exact .nil _ _
    next =>
      exact .cons ((decodes_list_self fun warning member =>
        Warning.decodes_toJson (warningPaths warning member)).once
          (fun draft warnings => { draft with warnings }) fun _ => rfl) (.nil _ _)
  · cases written : atlas.warnings <;>
      simp [Draft.complete?, legible, join_map_some, written]

/-- A result whose paths are texts is written, and read back as it was written, also from a file, where a
new line follows it. Only a percentage that is not a finite number is lost: it is written like an absent
value. -/
theorem read_write (atlas : Atlas) (isText : ∀ path ∈ atlas.paths, path.bytes.IsText)
    (fits : ∀ count ∈ atlas.counts, count ≤ maxNatural)
    (readsBack : ∀ file ∈ atlas.files, ∀ percent ∈ file.coverage, percent.isFinite = true →
      decode Node.double percent.shortest = .ok percent) :
    (∃ text, atlas.write = .ok text ∧ atlas.fileText = (text ++ "\n", none) ∧
      read text = .ok atlas.legible ∧ read (text ++ "\n") = .ok atlas.legible) ∧
    (atlas.legible = atlas ↔
      ∀ file ∈ atlas.files, ∀ percent ∈ file.coverage, percent.isFinite = true) := by
  have written := write_eq_ok isText
  refine ⟨⟨_, written, ?_, (decodes_toJson isText fits readsBack).decode_render⟩, legible_eq_self_iff⟩
  rw [fileText, written]

def motley : Atlas where
  files :=
    [{ name := "a \"b\" \\ c\n"
       path := "/src/é\u0001.rs"
       lineCount := some maxNatural
       imports := [1, 0, 1]
       importsExternal := ["serde", ""]
       importsDirect := 0
       importsDepth := maxNatural
       complexity := none
       maxDepth := some 0
       coverage := some ⟨0x4040AAAAAAAAAAAB⟩
       history := some ⟨3, 1⟩ },
     { name := ""
       path := "\t"
       lineCount := none
       imports := []
       importsExternal := []
       importsDirect := 2
       importsDepth := 1
       complexity := some 7
       maxDepth := none
       coverage := none
       history := none }]
  cycles := some [[0, 0], []]
  unreached := some []
  warnings :=
    [.parseError "/src/é\u0001.rs" "expected `\x7b`", .resolutionFailure "\t" "super::x",
     .metricUnavailable none .coverage "", .metricUnavailable (some (.ofText "\t")) .history "\r"]

private theorem motley_isText : ∀ path ∈ motley.paths, path.bytes.IsText := by
  decide +kernel

private theorem motley_fits : ∀ count ∈ motley.counts, count ≤ maxNatural := by
  decide +kernel

theorem motley_coverage {file : FileRecord} (member : file ∈ motley.files) {percent : Double}
    (covered : percent ∈ file.coverage) : percent = ⟨0x4040AAAAAAAAAAAB⟩ := by
  simp only [motley, List.mem_cons, List.not_mem_nil, or_false] at member
  rcases member with rfl | rfl
  · exact (Option.some.inj covered).symm
  · cases covered

private theorem motley_readsBack :
    ∀ file ∈ motley.files, ∀ percent ∈ file.coverage, percent.isFinite = true →
      decode Node.double percent.shortest = .ok percent := by
  intro file member percent covered _
  rw [motley_coverage member covered]
  decide +kernel

theorem read_write_motley :
    ∃ text, motley.write = .ok text ∧ read text = .ok motley ∧ read (text ++ "\n") = .ok motley := by
  obtain ⟨⟨text, written, _, alone, saved⟩, same⟩ :=
    read_write motley motley_isText motley_fits motley_readsBack
  rw [same.mpr fun file member percent covered => by
    rw [motley_coverage member covered]
    decide +kernel] at alone saved
  exact ⟨text, written, alone, saved⟩

def boundless : Atlas :=
  { (default : Atlas) with
    files := [{ (default : FileRecord) with coverage := some ⟨0x7FF0000000000000⟩ }] }

/-- It is written, and read back without the percentage. -/
theorem read_write_boundless :
    ∃ text, boundless.write = .ok text ∧ read text = .ok boundless.legible ∧
      boundless.legible ≠ boundless := by
  have isText : ∀ path ∈ boundless.paths, path.bytes.IsText := by decide +kernel
  have fits : ∀ count ∈ boundless.counts, count ≤ maxNatural := by decide +kernel
  have infinite : ¬ ∀ file ∈ boundless.files, ∀ percent ∈ file.coverage, percent.isFinite = true := by
    decide +kernel
  have absent : ∀ file ∈ boundless.files, ∀ percent ∈ file.coverage, percent.isFinite = false := by
    decide +kernel
  have decodes := decodes_toJson isText fits fun file member percent covered finite =>
    nomatch (absent file member percent covered).symm.trans finite
  exact ⟨_, write_eq_ok isText, decodes.decode_render.1, mt legible_eq_self_iff.mp infinite⟩

end Atlas

end CrateAtlas
