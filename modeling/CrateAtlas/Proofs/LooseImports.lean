import CrateAtlas.Proofs.Specifiers

/-!
Imports that stand loose. Most constructs leave an outline of their own, and what is inside them is out
of sight. Of the others only the parts are outlined, so that an import deep inside such a construct
looks like one beside it.
-/

namespace CrateAtlas

open Source

namespace Outline

theorem topLevelSpecifiers_append (kind : Kind) (first second : List Outline) :
    (node kind (first ++ second)).topLevelSpecifiers =
      (node kind first).topLevelSpecifiers ++ (node kind second).topLevelSpecifiers := by
  simp [topLevelSpecifiers, parts]

private theorem topLevelSpecifiers_singleton_of_other {kind : Kind} (root : Kind) (parts : List Outline)
    (other : kind.isImport = false) : (node root [node kind parts]).topLevelSpecifiers = [] := by
  rw [topLevelSpecifiers, Outline.parts, List.filter_cons_of_neg (by simp [Outline.kind, other])]
  rfl

private theorem topLevelSpecifiers_singleton {kind : Kind} (root : Kind) (parts : List Outline)
    (isImport : kind.isImport = true) :
    (node root [node kind parts]).topLevelSpecifiers = parts.filterMap text? := by
  rw [topLevelSpecifiers, Outline.parts, List.filter_cons_of_pos (by simp [Outline.kind, isImport])]
  simp [Outline.parts]

end Outline

namespace Source

namespace Construct

/-- What an import statement names: the paths of a `use`, the file of a module declaration. -/
def imported : Construct → List String
  | useItem _ tree => (tree.paths "").filter (· != "")
  | modDecl _ name => ["self::" ++ name.text]
  | _ => []

def isImport : Construct → Bool
  | useItem _ _ | modDecl _ _ => true
  | _ => false

def specifiers (item : Construct) : List String :=
  (SourceFile.outline ⟨[item]⟩ false).topLevelSpecifiers

/-- The parts that are outlined in the place of a construct that has no outline of its own. -/
def looseParts : Construct → List Construct
  | valueAttribute _ value => [value]
  | receiver attrs type => attrs ++ type
  | traitObject bounds => bounds
  | traitBound _ parts => parts
  | path _ attrs parts => attrs ++ parts
  | node form attrs parts => if form.kind? = none then attrs ++ parts else []
  | _ => []

/-- `LooseIn inner whole`: of the constructs that `inner` is inside of, up to the whole, none leaves an
outline. -/
inductive LooseIn (inner : Construct) : Construct → Prop where
  | here : LooseIn inner inner
  | part {part whole : Construct} (among : part ∈ whole.looseParts) (deeper : LooseIn inner part) :
      LooseIn inner whole

variable {construct inner : Construct}

theorem sizeOf_lt_of_mem_append {part : Construct} {first second : List Construct}
    (among : part ∈ first ++ second) : sizeOf part < sizeOf first + sizeOf second := by
  rcases List.mem_append.mp among with there | there
  · have := List.sizeOf_lt_of_mem there
    omega
  · have := List.sizeOf_lt_of_mem there
    omega

private theorem sizeOf_lt_of_mem_looseParts {part : Construct} (among : part ∈ construct.looseParts) :
    sizeOf part < sizeOf construct := by
  cases construct with
  | valueAttribute path value =>
    cases List.mem_singleton.mp among
    simp only [valueAttribute.sizeOf_spec]
    omega
  | receiver attrs type =>
    have := sizeOf_lt_of_mem_append among
    simp only [receiver.sizeOf_spec]
    omega
  | traitObject bounds =>
    have : sizeOf part < sizeOf bounds := List.sizeOf_lt_of_mem among
    simp only [traitObject.sizeOf_spec]
    omega
  | traitBound path parts =>
    have : sizeOf part < sizeOf parts := List.sizeOf_lt_of_mem among
    simp only [traitBound.sizeOf_spec]
    omega
  | path name attrs parts =>
    have := sizeOf_lt_of_mem_append among
    simp only [path.sizeOf_spec]
    omega
  | node form attrs parts =>
    rw [looseParts] at among
    split at among
    · have := sizeOf_lt_of_mem_append among
      simp only [node.sizeOf_spec]
      omega
    · cases among
  | _ => cases among

private theorem outlineAll_append (first second : List Construct) :
    outlineAll (first ++ second) = outlineAll first ++ outlineAll second := by
  induction first with
  | nil => rfl
  | cons construct rest ih => rw [List.cons_append, outlineAll, outlineAll, ih, List.append_assoc]

theorem specifiers_eq_outline : construct.specifiers =
    (Outline.node .file construct.outline).topLevelSpecifiers := by
  simp [specifiers, SourceFile.outline, outlineAll]

theorem topLevelSpecifiers_outlineAll (constructs : List Construct) :
    (Outline.node .file (outlineAll constructs)).topLevelSpecifiers =
      constructs.flatMap specifiers := by
  induction constructs with
  | nil => rfl
  | cons construct rest ih =>
    rw [outlineAll, Outline.topLevelSpecifiers_append, ih, List.flatMap_cons, specifiers_eq_outline]

/-- A construct shows what it imports itself, and what its loose parts show. -/
theorem specifiers_eq (construct : Construct) :
    construct.specifiers = construct.imported ++ construct.looseParts.flatMap specifiers := by
  rw [specifiers_eq_outline]
  cases construct with
  | raw | plainAttribute => rfl
  | valueAttribute path value => simp [outline, imported, looseParts, specifiers_eq_outline]
  | useItem attrs tree =>
    rw [outline, Outline.topLevelSpecifiers_singleton _ _ rfl]
    simp [imported, looseParts, UseTree.specifiers, List.filterMap_map, Function.comp_def,
      Outline.text?]
  | modDecl attrs name =>
    rw [outline, Outline.topLevelSpecifiers_singleton _ _ rfl]
    simp [imported, looseParts, Outline.text?, Statement.texts_nil (statement_outlineAll attrs)]
  | modItem attrs name items =>
    rw [outline, Outline.topLevelSpecifiers_singleton _ _ rfl]
    simp [imported, looseParts, Statement.texts_nil (statement_outlineAll attrs),
      Statement.texts_nil (statement_outlineAll items)]
  | fnItem | ifExpr | ifElse =>
    rw [outline, Outline.topLevelSpecifiers_singleton_of_other _ _ rfl]
    rfl
  | implItem isUnsafe ofTrait attrs head items =>
    rw [outline, Outline.topLevelSpecifiers_singleton_of_other _ _ (by cases ofTrait <;> rfl)]
    rfl
  | receiver attrs type =>
    rw [outline, List.cons_append, ← outlineAll_append, ← List.singleton_append,
      Outline.topLevelSpecifiers_append, topLevelSpecifiers_outlineAll]
    rfl
  | traitObject bounds =>
    have mark : (Outline.node .file (markIf (bounds.any isAnyBound) .anyType)).topLevelSpecifiers =
        [] := by
      unfold markIf
      split <;> rfl
    rw [outline, Outline.topLevelSpecifiers_append, topLevelSpecifiers_outlineAll, mark]
    rfl
  | traitBound path parts =>
    rw [outline, topLevelSpecifiers_outlineAll]
    rfl
  | path name attrs parts =>
    rw [outline, ← outlineAll_append, topLevelSpecifiers_outlineAll]
    rfl
  | node form attrs parts =>
    rw [outline, looseParts]
    split
    · next kind listed =>
      rw [if_neg (by simp [listed]),
        Outline.topLevelSpecifiers_singleton_of_other _ _ (Form.kind?_isImport listed)]
      rfl
    · next unlisted =>
      rw [if_pos unlisted, ← outlineAll_append, topLevelSpecifiers_outlineAll]
      rfl

/-- What a construct shows is imported by what stands loose in it. -/
theorem mem_specifiers_iff {text : String} :
    text ∈ construct.specifiers ↔ ∃ inner, LooseIn inner construct ∧ text ∈ inner.imported := by
  constructor
  · intro shown
    induction size : sizeOf construct using Nat.strongRecOn generalizing construct with
    | _ _ ih =>
      subst size
      rw [specifiers_eq, List.mem_append, List.mem_flatMap] at shown
      rcases shown with named | ⟨part, among, shown⟩
      · exact ⟨construct, .here, named⟩
      · obtain ⟨inner, loose, named⟩ := ih _ (sizeOf_lt_of_mem_looseParts among) shown rfl
        exact ⟨inner, .part among loose, named⟩
  · rintro ⟨inner, loose, named⟩
    induction loose with
    | here =>
      rw [specifiers_eq]
      exact List.mem_append_left _ named
    | part among deeper ih =>
      rw [specifiers_eq]
      exact List.mem_append_right _ (List.mem_flatMap.mpr ⟨_, among, ih⟩)

def bareStatements : Construct → List Construct
  | node .constBlock _ stmts | node .tryBlock _ stmts => stmts
  | _ => []

/-- A construct that is no import, and in which imports stand loose only as statements of blocks. -/
inductive Tidy : Construct → Prop where
  | intro {construct : Construct} (other : construct.isImport = false)
      (parts : ∀ part ∈ construct.looseParts,
        (part.isImport = true → part ∉ construct.bareStatements) → Tidy part) :
      Tidy construct

abbrev AllTidy (parts : List Construct) : Prop :=
  ∀ part ∈ parts, Tidy part

namespace AllTidy

variable {first second : List Construct} {part : Construct}

theorem nil : AllTidy [] :=
  List.forall_mem_nil Tidy

theorem cons (tidyPart : part.Tidy) (tidy : AllTidy first) : AllTidy (part :: first) :=
  List.forall_mem_cons.mpr ⟨tidyPart, tidy⟩

theorem single (tidy : part.Tidy) : AllTidy [part] :=
  .cons tidy .nil

theorem append (tidyFirst : AllTidy first) (tidySecond : AllTidy second) : AllTidy (first ++ second) :=
  List.forall_mem_append.mpr ⟨tidyFirst, tidySecond⟩

theorem reverse (tidy : AllTidy first) : AllTidy first.reverse :=
  fun part among => tidy part (List.mem_reverse.mp among)

end AllTidy

/-- An import, or a construct in which imports stand loose only as statements of blocks. -/
def Placed (construct : Construct) : Prop :=
  construct.isImport = true ∨ construct.Tidy

theorem looseParts_of_isImport (isImport : construct.isImport = true) : construct.looseParts = [] := by
  cases construct with
  | useItem | modDecl => rfl
  | _ => cases isImport

theorem bareStatements_of_isImport (isImport : construct.isImport = true) :
    construct.bareStatements = [] := by
  cases construct with
  | useItem | modDecl => rfl
  | _ => cases isImport

namespace LooseIn

theorem trans {middle : Construct} (first : LooseIn inner middle) (second : LooseIn middle construct) :
    LooseIn inner construct := by
  induction second with
  | here => exact first
  | part among _ ih => exact .part among ih

/-- Nothing stands loose in an import. -/
theorem eq_of_isImport (loose : LooseIn inner construct) (isImport : construct.isImport = true) :
    inner = construct := by
  cases loose with
  | here => rfl
  | part among _ =>
    rw [looseParts_of_isImport isImport] at among
    cases among

theorem of_mem_bareStatements (statement : inner ∈ construct.bareStatements) :
    LooseIn inner construct := by
  refine .part ?_ .here
  unfold bareStatements at statement
  split at statement
  · exact List.mem_append_right _ statement
  · exact List.mem_append_right _ statement
  · cases statement

end LooseIn

theorem isImport_of_mem_imported {text : String} (named : text ∈ construct.imported) :
    construct.isImport = true := by
  cases construct with
  | useItem | modDecl => rfl
  | _ => cases named

namespace Tidy

/-- An import that stands loose in a tidy construct is a statement of a block. -/
theorem exists_block (tidy : construct.Tidy) (loose : LooseIn inner construct)
    (isImport : inner.isImport = true) :
    ∃ block, LooseIn block construct ∧ inner ∈ block.bareStatements := by
  induction loose with
  | here =>
    obtain ⟨other, _⟩ := tidy
    rw [isImport] at other
    cases other
  | @part part whole among deeper ih =>
    obtain ⟨_, parts⟩ := tidy
    by_cases statement : part.isImport = true ∧ part ∈ whole.bareStatements
    · cases deeper.eq_of_isImport statement.1
      exact ⟨whole, .here, statement.2⟩
    · obtain ⟨block, within, member⟩ := ih (parts part among (not_and.mp statement))
      exact ⟨block, .part among within, member⟩

theorem of_parts (other : construct.isImport = false) (parts : AllTidy construct.looseParts) :
    Tidy construct :=
  .intro other fun part among _ => parts part among

theorem of_hidden (other : construct.isImport = false) (hidden : construct.looseParts = []) :
    Tidy construct :=
  .of_parts other (hidden ▸ .nil)

variable {form : Form} {attrs parts : List Construct}

/-- What is inside a node of a listed kind is out of sight. -/
theorem listed (kind : form.kind?.isSome = true) : Tidy (node form attrs parts) :=
  .of_hidden rfl (if_neg (Option.isSome_iff_ne_none.mp kind))

theorem node (tidyAttrs : AllTidy attrs) (tidyParts : AllTidy parts) :
    Tidy (node form attrs parts) := by
  refine .of_parts rfl fun part among => ?_
  rw [looseParts] at among
  split at among
  · rcases List.mem_append.mp among with there | there
    · exact tidyAttrs part there
    · exact tidyParts part there
  · cases among

/-- In a node that is no block, the first part may be replaced by another that is tidy. -/
theorem replaceFirst {first other : Construct} (tidy : Tidy (Construct.node form attrs (first :: parts)))
    (unlisted : form.kind? = none)
    (bare : (Construct.node form attrs (first :: parts)).bareStatements = [])
    (replaced : first.Tidy → other.Tidy) : Tidy (Construct.node form attrs (other :: parts)) := by
  obtain ⟨_, tidyParts⟩ := tidy
  rw [looseParts, if_pos unlisted, bare] at tidyParts
  have all : ∀ part ∈ attrs ++ first :: parts, Tidy part := fun part among =>
    tidyParts part among (by simp)
  rw [List.forall_mem_append, List.forall_mem_cons] at all
  exact .node all.1 (List.forall_mem_cons.mpr ⟨replaced all.2.1, all.2.2⟩)

/-- In a block, the statements may be imports. -/
theorem block (bare : form = .constBlock ∨ form = .tryBlock) (tidyAttrs : AllTidy attrs)
    (placed : ∀ stmt ∈ parts, Placed stmt) : Tidy (Construct.node form attrs parts) := by
  refine .intro rfl fun part among allowed => ?_
  have statements : (Construct.node form attrs parts).bareStatements = parts := by
    rcases bare with rfl | rfl <;> rfl
  rw [looseParts] at among
  split at among
  · rcases List.mem_append.mp among with there | there
    · exact tidyAttrs part there
    · exact (placed part there).resolve_left fun isImport =>
        allowed isImport (by rwa [statements])
  · cases among

end Tidy

/-- Of a construct that is no import and no block, all loose parts are tidy. -/
theorem tidy_iff_of_whole (other : construct.isImport = false) (whole : construct.bareStatements = []) :
    construct.Tidy ↔ AllTidy construct.looseParts := by
  refine ⟨fun ⟨_, parts⟩ part among => ?_, .of_parts other⟩
  exact parts part among (by simp [whole])

section Attributes

variable {more : List Construct}

@[simp]
theorem isImport_addAttributes : (construct.addAttributes more).isImport = construct.isImport := by
  cases construct <;> rfl

private theorem bareStatements_addAttributes :
    (construct.addAttributes more).bareStatements = construct.bareStatements := by
  cases construct with
  | node form attrs parts => cases form <;> rfl
  | _ => rfl

private theorem mem_looseParts_addAttributes {part : Construct}
    (among : part ∈ (construct.addAttributes more).looseParts) :
    part ∈ more ∨ part ∈ construct.looseParts := by
  cases construct with
  | receiver | path => simpa [addAttributes, looseParts, or_assoc] using among
  | node form attrs parts =>
    simp only [addAttributes, looseParts] at among ⊢
    split at among
    · next unlisted =>
      rw [if_pos unlisted]
      simpa [or_assoc] using among
    · cases among
  | _ => exact .inr among

theorem Tidy.addAttributes (tidy : construct.Tidy) (tidyMore : AllTidy more) :
    (construct.addAttributes more).Tidy := by
  obtain ⟨other, parts⟩ := tidy
  refine .intro (isImport_addAttributes.trans other) fun part among allowed => ?_
  rw [bareStatements_addAttributes] at allowed
  rcases mem_looseParts_addAttributes among with there | there
  · exact tidyMore part there
  · exact parts part there allowed

theorem Placed.addAttributes (placed : construct.Placed) (tidyMore : AllTidy more) :
    (construct.addAttributes more).Placed :=
  placed.imp isImport_addAttributes.trans (·.addAttributes tidyMore)

theorem Tidy.addLeftmost (tidy : construct.Tidy) (tidyMore : AllTidy more) :
    (construct.addLeftmost more).Tidy := by
  fun_induction Construct.addLeftmost more construct with
  | case1 attrs left rest ih => exact tidy.replaceFirst rfl rfl ih
  | case2 attrs left rest ih => exact tidy.replaceFirst rfl rfl ih
  | case3 attrs left rest ih => exact tidy.replaceFirst rfl rfl ih
  | case4 => exact .listed rfl
  | case5 => exact tidy.addAttributes tidyMore
  | case6 => exact tidy.addAttributes tidyMore

end Attributes

end Construct

end Source

end CrateAtlas
