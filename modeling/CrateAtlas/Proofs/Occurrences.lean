import CrateAtlas.Proofs.LooseImports
import CrateAtlas.Proofs.OutlineNodes

/-!
Which nodes the outline of a file has. A construct leaves nodes of its own, few or none, and beside them
only those of the constructs inside it. So the outline has for each construct just the nodes that this
construct leaves, however deep it stands: none is lost on the way and none is made twice. Only what is
inside the attributes of an import or of a condition is passed over.
-/

namespace CrateAtlas

open Source

namespace Source

namespace Construct

/-- What is right inside a construct, its attributes apart. -/
def contents : Construct → List Construct
  | raw | plainAttribute _ _ | useItem _ _ | modDecl _ _ => []
  | valueAttribute _ value => [value]
  | modItem _ _ items => items
  | fnItem _ _ _ signature body => signature ++ body
  | implItem _ _ _ head items => head ++ items
  | ifExpr _ condition branch => condition :: branch
  | ifElse _ condition branch alternative => condition :: branch ++ [alternative]
  | receiver _ type => type
  | traitObject bounds => bounds
  | traitBound _ parts | path _ _ parts | node _ _ parts => parts

/-- Whether the attributes of a construct are passed over: those of imports and conditions are. -/
def hidesAttributes : Construct → Bool
  | useItem _ _ | ifExpr _ _ _ | ifElse _ _ _ _ => true
  | _ => false

/-- What is right inside a construct, but for attributes that are passed over. -/
def constituents (construct : Construct) : List Construct :=
  (if construct.hidesAttributes then [] else construct.attributes) ++ construct.contents

variable {construct part : Construct}

private theorem sizeOf_lt_of_mem_attributes (among : part ∈ construct.attributes) :
    sizeOf part < sizeOf construct := by
  cases construct with
  | raw | plainAttribute | valueAttribute | traitObject | traitBound => cases among
  | _ =>
    have smaller := List.sizeOf_lt_of_mem among
    simp only [attributes, useItem.sizeOf_spec, modDecl.sizeOf_spec, modItem.sizeOf_spec,
      fnItem.sizeOf_spec, implItem.sizeOf_spec, ifExpr.sizeOf_spec, ifElse.sizeOf_spec,
      receiver.sizeOf_spec, path.sizeOf_spec, node.sizeOf_spec] at smaller ⊢
    omega

private theorem sizeOf_lt_of_mem_contents (among : part ∈ construct.contents) :
    sizeOf part < sizeOf construct := by
  cases construct with
  | raw | plainAttribute | useItem | modDecl => cases among
  | valueAttribute path value =>
    cases List.mem_singleton.mp among
    simp only [valueAttribute.sizeOf_spec]
    omega
  | fnItem | implItem =>
    have smaller := sizeOf_lt_of_mem_append among
    simp only [fnItem.sizeOf_spec, implItem.sizeOf_spec]
    omega
  | ifElse attrs condition branch alternative =>
    rcases List.mem_append.mp among with before | last
    · have smaller := List.sizeOf_lt_of_mem before
      simp only [ifElse.sizeOf_spec, List.cons.sizeOf_spec] at smaller ⊢
      omega
    · cases List.mem_singleton.mp last
      simp only [ifElse.sizeOf_spec]
      omega
  | _ =>
    have smaller := List.sizeOf_lt_of_mem among
    simp only [contents, List.cons.sizeOf_spec, modItem.sizeOf_spec, ifExpr.sizeOf_spec,
      receiver.sizeOf_spec, traitObject.sizeOf_spec, traitBound.sizeOf_spec, path.sizeOf_spec,
      node.sizeOf_spec] at smaller ⊢
    omega

private theorem sizeOf_lt_of_mem_constituents (among : part ∈ construct.constituents) :
    sizeOf part < sizeOf construct := by
  rcases List.mem_append.mp among with attached | content
  · split at attached
    · cases attached
    · exact sizeOf_lt_of_mem_attributes attached
  · exact sizeOf_lt_of_mem_contents content

/-- A construct and all constructs inside it, but for what is in attributes that are passed over. -/
def occurrences (construct : Construct) : List Construct :=
  construct :: construct.constituents.attach.flatMap fun part => part.1.occurrences
termination_by sizeOf construct
decreasing_by exact sizeOf_lt_of_mem_constituents part.2

private theorem occurrences_eq (construct : Construct) :
    construct.occurrences = construct :: construct.constituents.flatMap occurrences := by
  rw [occurrences, List.flatMap_subtype (g := occurrences) fun _ _ => rfl, List.unattach_attach]

def marks : Construct → List Kind
  | useItem _ tree => .useItem :: tree.specifiers.map fun _ => .specifier
  | modDecl _ _ => [.modItem, .specifier]
  | modItem _ _ _ => [.modItem]
  | fnItem place isUnsafe _ _ _ =>
    .function :: if isUnsafe && place.marksUnsafe then [.unsafeMark] else []
  | implItem isUnsafe ofTrait _ _ _ =>
    (if ofTrait then .traitImpl else .implBlock) :: if isUnsafe then [.unsafeMark] else []
  | ifExpr _ _ _ => [.ifExpr]
  | ifElse _ _ _ _ => [.ifExpr, .elseBranch]
  | receiver _ _ => [.selfValue]
  | traitObject bounds => if bounds.any isAnyBound then [.anyType] else []
  | node form _ _ => form.kind?.toList
  | raw | plainAttribute _ _ | valueAttribute _ _ | traitBound _ _ | path _ _ _ => []

def kinds (construct : Construct) : List Kind :=
  construct.outline.flatMap Outline.kinds

@[simp]
theorem flatMap_kinds_outlineAll (constructs : List Construct) :
    (outlineAll constructs).flatMap Outline.kinds = constructs.flatMap kinds := by
  induction constructs with
  | nil => rfl
  | cons construct rest ih =>
    rw [outlineAll, List.flatMap_append, ih, List.flatMap_cons]
    rfl

@[simp]
theorem flatMap_kinds_markIf (condition : Bool) (kind : Kind) :
    (markIf condition kind).flatMap Outline.kinds = if condition then [kind] else [] := by
  cases condition <;> rfl

private theorem flatMap_kinds_specifiers (texts : List String) :
    (texts.map Outline.specifier).flatMap Outline.kinds = texts.map fun _ => .specifier := by
  rw [List.flatMap_map, List.map_eq_flatMap]
  rfl

/-- A construct leaves its own nodes, and those of what is right inside it. -/
theorem kinds_perm_marks (construct : Construct) :
    construct.kinds.Perm (construct.marks ++ construct.constituents.flatMap kinds) := by
  cases construct with
  | useItem attrs tree =>
    rw [kinds, outline, List.flatMap_singleton, Outline.kinds_node, flatMap_kinds_specifiers]
    exact .of_eq (List.append_nil _).symm
  | ifElse attrs condition branch alternative =>
    -- the node of the alternative comes only after what the branch leaves
    have left : (ifElse attrs condition branch alternative).kinds = .ifExpr ::
        (condition.kinds ++ branch.flatMap kinds ++ .elseBranch :: alternative.kinds) := by
      simp [kinds, outline]
    have right : (ifElse attrs condition branch alternative).constituents.flatMap kinds =
        condition.kinds ++ branch.flatMap kinds ++ alternative.kinds := by
      simp [constituents, hidesAttributes, contents]
    rw [left, right]
    exact List.perm_middle.cons _
  | node form attrs parts =>
    refine .of_eq ?_
    rw [kinds, outline, marks]
    split
    · next kind listed => simp [listed, constituents, hidesAttributes, attributes, contents]
    · next unlisted => simp [unlisted, constituents, hidesAttributes, attributes, contents]
  | _ =>
    refine .of_eq ?_
    simp [kinds, outline, marks, constituents, hidesAttributes, attributes, contents]

/-- The nodes that a construct leaves are those that all constructs in it leave themselves. -/
theorem kinds_perm_occurrences (construct : Construct) :
    construct.kinds.Perm (construct.occurrences.flatMap marks) := by
  induction construct using occurrences.induct with
  | case1 construct ih =>
    have inner : (construct.constituents.flatMap kinds).Perm
        (construct.constituents.flatMap fun part => part.occurrences.flatMap marks) :=
      List.Perm.flatMap_left _ fun part among => ih ⟨part, among⟩
    rw [occurrences_eq, List.flatMap_cons, List.flatMap_assoc]
    exact construct.kinds_perm_marks.trans (inner.append_left _)

private theorem count_marks_le_one (construct : Construct) {kind : Kind} (other : kind ≠ .specifier) :
    construct.marks.count kind ≤ 1 := by
  cases construct with
  | useItem attrs tree =>
    have none : (tree.specifiers.map fun _ => Kind.specifier).count kind = 0 := by
      simp [List.count_eq_zero, other]
    rw [marks, List.count_cons, none]
    split <;> decide
  | node form attrs parts =>
    rw [marks]
    cases form.kind? with
    | none => exact Nat.zero_le 1
    | some listed => exact List.count_le_length
  | _ =>
    refine List.nodup_iff_count_le_one.mp ?_ kind
    grind [marks]

private theorem count_flatMap_marks {kind : Kind} (other : kind ≠ .specifier) (constructs : List Construct) :
    (constructs.flatMap marks).count kind = constructs.countP (kind ∈ ·.marks) := by
  induction constructs with
  | nil => rfl
  | cons construct rest ih =>
    have once : construct.marks.count kind = if kind ∈ construct.marks then 1 else 0 := by
      have atMost := construct.count_marks_le_one other
      split
      · next left =>
        have some := List.count_pos_iff.mpr left
        omega
      · next absent => exact List.count_eq_zero.mpr absent
    rw [List.flatMap_cons, List.count_append, List.countP_cons, ih, once, Nat.add_comm]
    simp only [decide_eq_true_eq]

end Construct

namespace SourceFile

def occurrences (file : SourceFile) : List Construct :=
  file.items.flatMap Construct.occurrences

private theorem kinds_outline_perm (file : SourceFile) :
    (file.outline false).kinds.Perm (.file :: file.occurrences.flatMap Construct.marks) := by
  have items : (file.items.flatMap Construct.kinds).Perm
      (file.occurrences.flatMap Construct.marks) := by
    rw [occurrences, List.flatMap_assoc]
    exact List.Perm.flatMap_left _ fun item _ => item.kinds_perm_occurrences
  simpa [outline] using items

/-- Of each kind but that of the root and of specifiers, the outline of a file has as many nodes as there
are constructs that leave one. -/
theorem count_outline (file : SourceFile) {kind : Kind} (inner : kind ≠ .file)
    (other : kind ≠ .specifier) :
    (file.outline false).kinds.count kind = file.occurrences.countP (kind ∈ ·.marks) := by
  rw [file.kinds_outline_perm.count_eq, List.count_cons_of_ne inner.symm,
    Construct.count_flatMap_marks other]

end SourceFile

/-- The kinds of expressions, statements and arms, each with the one form that is listed under it. -/
def bodyForms : List (Kind × Form) :=
  [(.forLoop, .forLoop), (.whileLoop, .whileLoop), (.loop, .loop), (.matchExpr, .matchExpr),
   (.matchArm, .arm), (.letStmt, .letStmt), (.breakExpr, .breakExpr),
   (.continueExpr, .continueExpr), (.returnExpr, .returnExpr), (.tryExpr, .tryExpr),
   (.asyncBlock, .asyncBlock), (.awaitExpr, .awaitExpr), (.yieldExpr, .yieldExpr),
   (.cast, .cast), (.closure, .closure)]

private theorem Form.kind?_eq_some_iff (form : Form) :
    ∀ entry ∈ bodyForms, form.kind? = some entry.1 ↔ form = entry.2 := by
  cases form <;> decide

theorem Form.kind?_ne_branch (form : Form) :
    ∀ kind ∈ [Kind.ifExpr, .elseBranch], form.kind? ≠ some kind := by
  cases form <;> decide

namespace Construct

def isForm (form : Form) : Construct → Bool
  | node other _ _ => other == form
  | _ => false

def isConditional : Construct → Bool
  | ifExpr _ _ _ | ifElse _ _ _ _ => true
  | _ => false

def hasElse : Construct → Bool
  | ifElse _ _ _ _ => true
  | _ => false

def headKinds : List Kind :=
  [.useItem, .specifier, .modItem, .function, .unsafeMark, .traitImpl, .implBlock, .ifExpr,
   .elseBranch, .selfValue, .anyType]

private theorem mem_marks_cases {construct : Construct} {kind : Kind} (left : kind ∈ construct.marks) :
    (∃ form attrs parts, construct = node form attrs parts ∧ form.kind? = some kind) ∨
      kind ∈ headKinds := by
  cases construct with
  | node form attrs parts => exact .inl ⟨form, attrs, parts, rfl, by simpa [marks] using left⟩
  | useItem attrs tree =>
    right
    rcases List.mem_cons.mp left with rfl | specifier
    · decide
    · obtain ⟨_, _, rfl⟩ := List.mem_map.mp specifier
      decide
  | _ =>
    right
    revert kind
    simp only [marks]
    repeat' split
    all_goals decide

private theorem mem_marks_iff_isForm (construct : Construct) {entry : Kind × Form}
    (listed : entry ∈ bodyForms) : entry.1 ∈ construct.marks ↔ construct.isForm entry.2 = true := by
  have apart : ∀ entry ∈ bodyForms, entry.1 ∉ headKinds := by decide
  cases construct with
  | node form attrs parts =>
    rw [marks, Option.mem_toList, form.kind?_eq_some_iff entry listed]
    simp [isForm]
  | _ =>
    refine iff_of_false (fun left => ?_) Bool.false_ne_true
    rcases mem_marks_cases left with ⟨_, _, _, formed, _⟩ | headed
    · cases formed
    · exact apart entry listed headed

private theorem mem_marks_ifExpr (construct : Construct) :
    .ifExpr ∈ construct.marks ↔ construct.isConditional = true := by
  cases construct with
  | node form attrs parts =>
    rw [marks, Option.mem_toList]
    exact iff_of_false (form.kind?_ne_branch _ (by decide)) Bool.false_ne_true
  | _ => grind [marks, isConditional]

private theorem mem_marks_elseBranch (construct : Construct) :
    .elseBranch ∈ construct.marks ↔ construct.hasElse = true := by
  cases construct with
  | node form attrs parts =>
    rw [marks, Option.mem_toList]
    exact iff_of_false (form.kind?_ne_branch _ (by decide)) Bool.false_ne_true
  | _ => grind [marks, hasElse]

end Construct

private theorem SourceFile.count_outline_of_iff (file : SourceFile) {kind : Kind} {isSuch : Construct → Bool}
    (inner : kind ≠ .file) (other : kind ≠ .specifier)
    (such : ∀ construct : Construct, kind ∈ construct.marks ↔ isSuch construct = true) :
    (file.outline false).kinds.count kind = file.occurrences.countP isSuch := by
  rw [file.count_outline inner other]
  exact List.countP_congr fun construct _ => by rw [decide_eq_true_iff, such]

end Source

namespace FileOutline

open Construct

/-- The outline of a file has as many nodes of each of these kinds as the file has such expressions,
statements and arms, and as many else branches as there are conditions with one. -/
theorem ofText_body_counts (path : Path) (text : String) (file : SourceFile)
    (parsed : SourceFile.parse? text = some file) :
    ∃ outline, ofText false path text = .ok outline ∧
      (∀ entry ∈ bodyForms,
        outline.root.kinds.count entry.1 = file.occurrences.countP (isForm entry.2)) ∧
      outline.root.kinds.count .ifExpr = file.occurrences.countP isConditional ∧
      outline.root.kinds.count .elseBranch = file.occurrences.countP hasElse := by
  refine ⟨_, ofText_of_parse parsed false path, ?_, ?_, ?_⟩
  · intro entry listed
    have inner : ∀ entry ∈ bodyForms, entry.1 ≠ .file ∧ entry.1 ≠ .specifier := by decide
    obtain ⟨notFile, notSpecifier⟩ := inner entry listed
    exact file.count_outline_of_iff notFile notSpecifier fun construct =>
      construct.mem_marks_iff_isForm listed
  · exact file.count_outline_of_iff (by decide) (by decide) mem_marks_ifExpr
  · exact file.count_outline_of_iff (by decide) (by decide) mem_marks_elseBranch

def questions : String :=
  "#[a = b?] use c;\nfn f() \x7b #[a = b?] if g!(d?) \x7b e? \x7d else \x7b loop \x7b \x7d \x7d \x7d"

theorem ofText_body_counts_questions :
    ∃ outline file, SourceFile.parse? questions = some file ∧
      ofText false "lib.rs" questions = .ok outline ∧
      (∀ entry ∈ bodyForms,
        outline.root.kinds.count entry.1 = file.occurrences.countP (isForm entry.2)) ∧
      outline.root.kinds.count .tryExpr = 1 ∧ outline.root.kinds.count .ifExpr = 1 ∧
      outline.root.kinds.count .elseBranch = 1 := by
  have evaluated : (SourceFile.parse? questions).map (fun file =>
      (file.occurrences.countP (isForm .tryExpr), file.occurrences.countP isConditional,
        file.occurrences.countP hasElse)) = some (1, 1, 1) := by
    decide +kernel
  obtain ⟨file, parsed, told⟩ := Option.map_eq_some_iff.mp evaluated
  obtain ⟨tries, conditions, alternatives⟩ : file.occurrences.countP (isForm .tryExpr) = 1 ∧
      file.occurrences.countP isConditional = 1 ∧ file.occurrences.countP hasElse = 1 := by
    simpa using told
  obtain ⟨outline, read, bodies, ifs, elses⟩ :=
    ofText_body_counts "lib.rs" questions file parsed
  refine ⟨outline, file, parsed, read, bodies, ?_, ifs.trans conditions, elses.trans alternatives⟩
  exact (bodies (.tryExpr, .tryExpr) (by decide)).trans tries

end FileOutline

end CrateAtlas
