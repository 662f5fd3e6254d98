import CrateAtlas.Outline.FileOutline
import CrateAtlas.Proofs.ModuleFiles

/-!
The specifiers of source text. Whatever is parsed, a specifier is written as words with double colons
between them, so the names that it is split into again are those words, and names of modules.
-/

namespace CrateAtlas

open Source Resolver

namespace Text

private theorem splitColons_whole {name : List Char} (whole : ':' ∉ name) : splitColons name = [name] := by
  induction name with
  | nil => rfl
  | cons c rest ih =>
    rw [List.mem_cons, not_or] at whole
    rw [splitColons, ih whole.2]
    rintro _ rfl _
    exact whole.1 rfl

private theorem splitColons_append {name : List Char} (whole : ':' ∉ name) (rest : List Char) :
    splitColons (name ++ ':' :: ':' :: rest) = name :: splitColons rest := by
  induction name with
  | nil => rfl
  | cons c name ih =>
    rw [List.mem_cons, not_or] at whole
    rw [List.cons_append, splitColons, ih whole.2]
    rintro _ rfl _
    exact whole.1 rfl

theorem splitColons_intercalate {parts : List (List Char)} (nonempty : parts ≠ [])
    (whole : ∀ part ∈ parts, ':' ∉ part) :
    splitColons (List.intercalate [':', ':'] parts) = parts := by
  induction parts with
  | nil => exact absurd rfl nonempty
  | cons part rest ih =>
    rw [List.forall_mem_cons] at whole
    cases rest with
    | nil => simpa using splitColons_whole whole.1
    | cons next rest =>
      rw [List.intercalate_cons_cons, List.append_assoc, List.cons_append, List.cons_append,
        List.nil_append, splitColons_append whole.1, ih (by simp) whole.2]

end Text

namespace Source

namespace PathWord

theorem filled (name : PathWord) : name.text ≠ "" :=
  name.word.filled

theorem char_not_mem (name : PathWord) {c : Char} (other : isWordChar c = false) :
    c ∉ name.text.toList := by
  intro member
  have written := List.all_eq_true.mp name.word.written c member
  rw [other] at written
  cases written

private theorem text_ne_mod (name : PathWord) : name.text ≠ "mod" := by
  intro same
  have usable := name.usable
  rw [Word.isUsable, show name.word.text = "mod" from same] at usable
  exact absurd usable (by decide)

private theorem moduleName (name : PathWord) : ModuleName name.text where
  filled := name.filled
  whole := name.char_not_mem (by decide)
  undotted := name.char_not_mem (by decide)
  notMod := name.text_ne_mod

end PathWord

def Spelled (text : String) : Prop :=
  ∃ words : List PathWord, text = "::".intercalate (words.map PathWord.text)

namespace Spelled

variable {text : String}

private theorem empty : Spelled "" :=
  ⟨[], rfl⟩

theorem word (name : PathWord) : Spelled name.text :=
  ⟨[name], by simp⟩

/-- The names of a specifier are its words. -/
theorem moduleName (spelled : Spelled text) : ∀ name ∈ segments text, ModuleName name := by
  obtain ⟨words, rfl⟩ := spelled
  intro name member
  obtain ⟨listed, filled⟩ := List.mem_filter.mp member
  have filled : name ≠ "" := by simpa using filled
  rcases eq_or_ne words [] with rfl | nonempty
  · -- the empty text is split into one empty part, which is no name
    exact absurd (by simpa [Text.splitColons] using listed) filled
  · have whole : ∀ part ∈ (words.map PathWord.text).map String.toList, ':' ∉ part := by
      simp only [List.map_map, List.forall_mem_map]
      exact fun word _ => word.char_not_mem (by decide)
    have letters : "::".toList = [':', ':'] := rfl
    rw [String.toList_intercalate, letters, Text.splitColons_intercalate (by simpa using nonempty) whole]
      at listed
    simp only [List.map_map, List.mem_map, Function.comp_apply, String.ofList_toList] at listed
    obtain ⟨word, _, rfl⟩ := listed
    exact word.moduleName

theorem join (spelled : Spelled text) (last : PathWord) : Spelled (UseTree.join text last.text) := by
  unfold UseTree.join
  split
  · exact word last
  · next filled =>
    obtain ⟨words, rfl⟩ := spelled
    refine ⟨words ++ [last], String.toList_inj.mp ?_⟩
    cases words with
    | nil => exact absurd rfl filled
    | cons first words =>
      clear filled
      induction words generalizing first with
      | nil => simp
      | cons next words ih => simpa using ih next

private theorem leafPath (spelled : Spelled text) (last : PathWord) :
    Spelled (UseTree.leafPath text last.text) := by
  unfold UseTree.leafPath
  split
  · exact spelled
  · exact spelled.join last

end Spelled

mutual

/-- The paths of a tree below a path of words are made of words. -/
theorem spelled_paths {above : String} (spelled : Spelled above) :
    (tree : UseTree) → ∀ path ∈ tree.paths above, Spelled path
  | .path first tree => by
    rw [UseTree.paths]
    exact spelled_paths (spelled.join first) tree
  | .name last => by
    rw [UseTree.paths, List.forall_mem_singleton]
    exact spelled.leafPath last
  | .rename last => by
    rw [UseTree.paths, List.forall_mem_singleton]
    exact spelled.leafPath last
  | .glob => by
    rw [UseTree.paths, List.forall_mem_singleton]
    exact spelled
  | .group trees => by
    rw [UseTree.paths]
    exact fun path member => spelled_pathsAll spelled trees path (List.mem_filter.mp member).1

theorem spelled_pathsAll {above : String} (spelled : Spelled above) :
    (trees : List UseTree) → ∀ path ∈ UseTree.pathsAll above trees, Spelled path
  | [] => by simp [UseTree.pathsAll]
  | tree :: rest => by
    rw [UseTree.pathsAll, List.forall_mem_append]
    exact ⟨spelled_paths spelled tree, spelled_pathsAll spelled rest⟩

end

/-- An outline that is no specifier; if it is of an import statement, its specifiers are words. -/
structure Statement (outline : Outline) : Prop where
  whole : outline.text? = none
  imports : outline.kind.isImport = true → ∀ text ∈ outline.parts.filterMap Outline.text?, Spelled text

namespace Statement

variable {kind : Kind} {parts : List Outline}

theorem node (other : kind.isImport = false) : Statement (.node kind parts) where
  whole := rfl
  imports isImport := by
    rw [Outline.kind, other] at isImport
    cases isImport

private theorem useItem (tree : UseTree) :
    Statement (.node .useItem (tree.specifiers.map .specifier)) where
  whole := rfl
  imports _ text member := by
    have listed : text ∈ tree.specifiers := by
      simpa [Outline.parts, Outline.text?, List.filterMap_map, Function.comp_def] using member
    exact spelled_paths .empty tree text (List.mem_filter.mp listed).1

theorem texts_nil (statements : ∀ part ∈ parts, Statement part) :
    parts.filterMap Outline.text? = [] :=
  List.filterMap_eq_nil_iff.mpr fun part member => (statements part member).whole

private theorem modItem (statements : ∀ part ∈ parts, Statement part) : Statement (.node .modItem parts) where
  whole := rfl
  imports _ := by simp [Outline.parts, texts_nil statements]

private theorem modDecl (name : PathWord) (statements : ∀ part ∈ parts, Statement part) :
    Statement (.node .modItem (.specifier ("self::" ++ name.text) :: parts)) where
  whole := rfl
  imports _ := by
    have joined := Spelled.join (.word ⟨⟨"self", by decide, by decide⟩, by decide⟩) name
    simpa [Outline.parts, Outline.text?, texts_nil statements, UseTree.join, PathWord.text,
      String.append_assoc] using joined

private theorem markIf (condition : Bool) (other : kind.isImport = false) :
    ∀ part ∈ Construct.markIf condition kind, Statement part := by
  unfold Construct.markIf
  split
  · exact List.forall_mem_singleton.mpr (node other)
  · simp

end Statement

theorem Form.kind?_isImport {form : Form} {kind : Kind} (listed : form.kind? = some kind) :
    kind.isImport = false := by
  cases form <;> cases listed <;> rfl

mutual

/-- A construct leaves outlines of statements, so specifiers occur in imports only. -/
theorem statement_outline : (construct : Construct) → ∀ part ∈ construct.outline, Statement part
  | .raw => by simp [Construct.outline]
  | .plainAttribute _ _ => by simp [Construct.outline]
  | .valueAttribute _ value => by
    rw [Construct.outline]
    exact statement_outline value
  | .useItem _ tree => by
    rw [Construct.outline, List.forall_mem_singleton]
    exact .useItem tree
  | .modDecl attrs name => by
    rw [Construct.outline, List.forall_mem_singleton]
    exact .modDecl name (statement_outlineAll attrs)
  | .modItem attrs _ items => by
    rw [Construct.outline, List.forall_mem_singleton]
    exact .modItem (List.forall_mem_append.mpr
      ⟨statement_outlineAll attrs, statement_outlineAll items⟩)
  | .fnItem .. => by
    rw [Construct.outline, List.forall_mem_singleton]
    exact .node rfl
  | .implItem _ ofTrait .. => by
    rw [Construct.outline, List.forall_mem_singleton]
    exact .node (by cases ofTrait <;> rfl)
  | .ifExpr .. => by
    rw [Construct.outline, List.forall_mem_singleton]
    exact .node rfl
  | .ifElse .. => by
    rw [Construct.outline, List.forall_mem_singleton]
    exact .node rfl
  | .receiver attrs type => by
    rw [Construct.outline, List.cons_append, List.forall_mem_cons, List.forall_mem_append]
    exact ⟨.node rfl, statement_outlineAll attrs, statement_outlineAll type⟩
  | .traitObject bounds => by
    rw [Construct.outline, List.forall_mem_append]
    exact ⟨.markIf _ rfl, statement_outlineAll bounds⟩
  | .traitBound _ parts => by
    rw [Construct.outline]
    exact statement_outlineAll parts
  | .path _ attrs parts => by
    rw [Construct.outline, List.forall_mem_append]
    exact ⟨statement_outlineAll attrs, statement_outlineAll parts⟩
  | .node form attrs parts => by
    rw [Construct.outline]
    split
    · next listed => exact List.forall_mem_singleton.mpr (.node (Form.kind?_isImport listed))
    · exact List.forall_mem_append.mpr ⟨statement_outlineAll attrs, statement_outlineAll parts⟩

theorem statement_outlineAll :
    (constructs : List Construct) → ∀ part ∈ Construct.outlineAll constructs, Statement part
  | [] => by simp [Construct.outlineAll]
  | construct :: rest => by
    rw [Construct.outlineAll, List.forall_mem_append]
    exact ⟨statement_outline construct, statement_outlineAll rest⟩

end

end Source

theorem FileOutline.ofText_of_parse {text : String} {file : SourceFile}
    (parsed : SourceFile.parse? text = some file) (excludeTests : Bool) (path : Path) :
    ofText excludeTests path text =
      .ok ⟨file.outline excludeTests, Text.lineCount text, file.isDeclarationOnly⟩ := by
  rw [ofText, parsed]

/-- All names in the specifiers of a source file are names of modules. -/
theorem FileOutline.moduleName_of_ofFile {files : FileSystem} {excludeTests : Bool} {path : Path}
    {outline : FileOutline} (parsed : ofFile files excludeTests path = .ok outline) :
    ∀ specifier ∈ outline.root.topLevelSpecifiers, ∀ name ∈ segments specifier, ModuleName name := by
  unfold ofFile at parsed
  split at parsed
  · next text _ =>
    unfold ofText at parsed
    split at parsed
    · cases parsed
    · next file _ =>
      cases parsed
      intro specifier member
      obtain ⟨stmt, listed, named⟩ := List.mem_flatMap.mp member
      obtain ⟨there, isImport⟩ := List.mem_filter.mp listed
      exact ((statement_outlineAll _ stmt there).imports isImport specifier named).moduleName
  · cases parsed
  · cases parsed

end CrateAtlas
