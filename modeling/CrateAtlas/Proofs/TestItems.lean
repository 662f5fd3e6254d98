import CrateAtlas.Graph.Discovery
import CrateAtlas.Proofs.Specifiers

/-!
Files without their test items. Leaving out the items for tests gives the outline that the file has when
these items are deleted from it. Whether a file only declares foreign functions is told by all of its
items, though, so an item for tests still has a say in that.
-/

namespace CrateAtlas

open Source

namespace Source

namespace Construct

def isForeignBlock : Construct → Bool
  | node .foreignBlock _ _ => true
  | _ => false

def isUseItem : Construct → Bool
  | useItem _ _ => true
  | _ => false

end Construct

/-- `WithoutTests items kept`: what is kept of some items when those for tests are deleted. Of raw
syntax it is not known whether it is marked as for tests. -/
inductive WithoutTests : List Construct → List Construct → Prop where
  | nil : WithoutTests [] []
  | keep {item : Construct} {items kept : List Construct} (plain : item.isTestOnly = false)
      (rest : WithoutTests items kept) : WithoutTests (item :: items) (item :: kept)
  | delete {item : Construct} {items kept : List Construct} (marked : item.isTestOnly = true)
      (rest : WithoutTests items kept) : WithoutTests (item :: items) kept
  | deleteRaw {items kept : List Construct} (rest : WithoutTests items kept) :
      WithoutTests (.raw :: items) kept

/-- The file without the items that are known to be for tests. -/
def SourceFile.withoutTests (file : SourceFile) : SourceFile :=
  ⟨file.items.filter fun item => !item.isTestOnly⟩

namespace WithoutTests

variable {items kept : List Construct} {item : Construct}

private theorem filter (items : List Construct) :
    WithoutTests items (items.filter fun item => !item.isTestOnly) := by
  induction items with
  | nil => exact .nil
  | cons item items ih =>
    cases marked : item.isTestOnly with
    | false =>
      rw [List.filter_cons_of_pos (by simp [marked])]
      exact .keep marked ih
    | true =>
      rw [List.filter_cons_of_neg (by simp [marked])]
      exact .delete marked ih

private theorem outlineAll_eq (pruned : WithoutTests items kept) :
    Construct.outlineAll (items.filter fun item => !item.isTestOnly) = Construct.outlineAll kept := by
  induction pruned with
  | nil => rfl
  | keep plain rest ih =>
    rw [List.filter_cons_of_pos (by simp [plain]), Construct.outlineAll, Construct.outlineAll, ih]
  | delete marked rest ih => rw [List.filter_cons_of_neg (by simp [marked]), ih]
  | deleteRaw rest ih =>
    rw [List.filter_cons_of_pos rfl, Construct.outlineAll, Construct.outline, List.nil_append, ih]

private theorem mem_of_mem_kept (pruned : WithoutTests items kept) (member : item ∈ kept) :
    item ∈ items ∧ item.isTestOnly = false := by
  induction pruned with
  | nil => cases member
  | keep plain rest ih =>
    rcases List.mem_cons.mp member with rfl | later
    · exact ⟨.head _, plain⟩
    · exact ⟨.tail _ (ih later).1, (ih later).2⟩
  | delete marked rest ih => exact ⟨.tail _ (ih member).1, (ih member).2⟩
  | deleteRaw rest ih => exact ⟨.tail _ (ih member).1, (ih member).2⟩

private theorem mem_kept (pruned : WithoutTests items kept) (member : item ∈ items)
    (plain : item.isTestOnly = false) (told : item.isRaw = false) : item ∈ kept := by
  induction pruned with
  | nil => cases member
  | keep _ rest ih =>
    rcases List.mem_cons.mp member with rfl | later
    · exact .head _
    · exact .tail _ (ih later)
  | delete marked rest ih =>
    rcases List.mem_cons.mp member with rfl | later
    · rw [plain] at marked
      cases marked
    · exact ih later
  | deleteRaw rest ih =>
    rcases List.mem_cons.mp member with rfl | later
    · cases told
    · exact ih later

end WithoutTests

private theorem Construct.isRaw_of_isForeignBlock {item : Construct} (foreign : item.isForeignBlock = true) :
    item.isRaw = false := by
  cases item with
  | raw => cases foreign
  | _ => rfl

namespace SourceFile

private theorem isDeclarationOnly_iff (file : SourceFile) : file.isDeclarationOnly = true ↔
    (∃ item ∈ file.items, item.isForeignBlock = true) ∧
      ∀ item ∈ file.items, item.isForeignBlock = true ∨ item.isUseItem = true := by
  unfold isDeclarationOnly
  rw [Bool.and_eq_true, List.any_eq_true, List.all_eq_true]
  simp only [Bool.or_eq_true]
  rfl

/-- All foreign functions of the file are declared for tests, and else it holds only imports. -/
def DeclaresForTests (file : SourceFile) : Prop :=
  file.isDeclarationOnly = true ∧
    ∀ item ∈ file.items, item.isForeignBlock = true → item.isTestOnly = true

/-- Some item is neither a declaration of foreign functions nor an import. -/
def HoldsOther (file : SourceFile) : Prop :=
  ∃ item ∈ file.items, item.isForeignBlock = false ∧ item.isUseItem = false

/-- Deleting the items for tests makes a file one that only declares foreign functions, or no longer
one, in just two ways. -/
theorem isDeclarationOnly_eq_iff {file kept : SourceFile}
    (pruned : WithoutTests file.items kept.items) :
    file.isDeclarationOnly = kept.isDeclarationOnly ↔
      ¬ file.DeclaresForTests ∧ ¬ (kept.isDeclarationOnly = true ∧ file.HoldsOther) := by
  have whole := file.isDeclarationOnly_iff
  have rest := kept.isDeclarationOnly_iff
  constructor
  · intro same
    refine ⟨?_, ?_⟩
    · rintro ⟨declares, forTests⟩
      obtain ⟨⟨item, member, foreign⟩, _⟩ := rest.mp (same ▸ declares)
      obtain ⟨listed, plain⟩ := pruned.mem_of_mem_kept member
      rw [forTests item listed foreign] at plain
      cases plain
    · rintro ⟨declares, item, member, noBlock, noUse⟩
      have either := (whole.mp (same ▸ declares)).2 item member
      rw [noBlock, noUse] at either
      simp at either
  · rintro ⟨notForTests, notOther⟩
    rw [Bool.eq_iff_iff]
    constructor
    · intro declares
      obtain ⟨_, only⟩ := whole.mp declares
      -- some block stays, or else all of them were for tests
      obtain ⟨item, member, foreign, plain⟩ : ∃ item ∈ file.items, item.isForeignBlock = true ∧
          item.isTestOnly = false := by
        by_contra none
        refine notForTests ⟨declares, fun item member foreign => ?_⟩
        by_contra plain
        exact none ⟨item, member, foreign, Bool.eq_false_iff.mpr plain⟩
      refine rest.mpr ⟨⟨item, ?_, foreign⟩, ?_⟩
      · exact pruned.mem_kept member plain (Construct.isRaw_of_isForeignBlock foreign)
      · exact fun other present => only other (pruned.mem_of_mem_kept present).1
    · intro declares
      obtain ⟨⟨item, member, foreign⟩, _⟩ := rest.mp declares
      refine whole.mpr ⟨⟨item, (pruned.mem_of_mem_kept member).1, foreign⟩, ?_⟩
      intro other listed
      by_contra neither
      rw [not_or, Bool.not_eq_true, Bool.not_eq_true] at neither
      exact notOther ⟨declares, other, listed, neither.1, neither.2⟩

end SourceFile

end Source

namespace FileOutline

/-- Of two files with one root, the same imports are followed unless there are some and only one of the
files is taken to declare nothing but foreign functions. -/
theorem followed_eq_iff {first second : FileOutline} (same : first.root = second.root) :
    Discovery.followed first = Discovery.followed second ↔
      first.declarationOnly = second.declarationOnly ∨ first.root.topLevelSpecifiers = [] := by
  unfold Discovery.followed
  rw [same]
  cases first.declarationOnly <;> cases second.declarationOnly <;> simp [@eq_comm _ []]

/-- Leaving out the items for tests gives the root of the file that is left when they are deleted, but
not always its flag: that differs just if the foreign functions are all declared for tests, or if only
declarations of foreign functions and imports are left of more. -/
theorem ofText_without_tests (path : Path) (text : String) (file kept : SourceFile)
    (parsed : SourceFile.parse? text = some file)
    (pruned : WithoutTests file.items kept.items) :
    ∃ outline, ofText true path text = .ok outline ∧ outline.root = kept.outline false ∧
      (outline.declarationOnly = kept.isDeclarationOnly ↔
        ¬ file.DeclaresForTests ∧ ¬ (kept.isDeclarationOnly = true ∧ file.HoldsOther)) ∧
      ∀ other, SourceFile.parse? other = some kept → ∃ outline',
        ofText false path other = .ok outline' ∧ outline.root = outline'.root ∧
        outline'.declarationOnly = kept.isDeclarationOnly ∧
        (Discovery.followed outline = Discovery.followed outline' ↔
          outline.declarationOnly = outline'.declarationOnly ∨ outline.root.topLevelSpecifiers = []) := by
  have root : file.outline true = kept.outline false := by
    rw [SourceFile.outline, SourceFile.outline]
    simpa using pruned.outlineAll_eq
  refine ⟨_, ofText_of_parse parsed true path, root, SourceFile.isDeclarationOnly_eq_iff pruned, ?_⟩
  intro other again
  exact ⟨_, ofText_of_parse again false path, root, rfl, followed_eq_iff root⟩

def bindings : String :=
  "use crate::a;\n#[cfg(test)]\nextern \"C\" \x7b fn f(); \x7d\n"

theorem ofText_without_tests_bindings :
    ∃ file outline, SourceFile.parse? bindings = some file ∧
      WithoutTests file.items file.withoutTests.items ∧
      ofText true "ffi.rs" bindings = .ok outline ∧ outline.root = file.withoutTests.outline false ∧
      (outline.declarationOnly = file.withoutTests.isDeclarationOnly ↔
        ¬ file.DeclaresForTests ∧
          ¬ (file.withoutTests.isDeclarationOnly = true ∧ file.HoldsOther)) := by
  have parses : (SourceFile.parse? bindings).isSome = true := by decide +kernel
  obtain ⟨file, parsed⟩ := Option.isSome_iff_exists.mp parses
  have pruned : WithoutTests file.items file.withoutTests.items := .filter file.items
  obtain ⟨outline, read, root, flag, _⟩ :=
    ofText_without_tests "ffi.rs" bindings file file.withoutTests parsed pruned
  exact ⟨file, outline, parsed, pruned, read, root, flag⟩

/-- The import is not followed when the items for tests are left out, though nothing but this import is
left when they are deleted. -/
theorem bindings_not_followed :
    ∃ file outline, SourceFile.parse? bindings = some file ∧
      ofText true "ffi.rs" bindings = .ok outline ∧ outline.declarationOnly = true ∧
      Discovery.followed outline = [] ∧ file.withoutTests.isDeclarationOnly = false ∧
      (file.withoutTests.outline false).topLevelSpecifiers = ["crate::a"] := by
  have evaluated : (SourceFile.parse? bindings).map (fun file =>
      (file.isDeclarationOnly, file.withoutTests.isDeclarationOnly,
        (file.withoutTests.outline false).topLevelSpecifiers)) = some (true, false, ["crate::a"]) := by
    decide +kernel
  obtain ⟨file, parsed, told⟩ := Option.map_eq_some_iff.mp evaluated
  obtain ⟨whole, rest, imports⟩ : file.isDeclarationOnly = true ∧
      file.withoutTests.isDeclarationOnly = false ∧
      (file.withoutTests.outline false).topLevelSpecifiers = ["crate::a"] := by
    simpa using told
  refine ⟨file, _, parsed, ofText_of_parse parsed true _, whole, ?_, rest, imports⟩
  rw [Discovery.followed, whole, if_pos rfl]

end FileOutline

end CrateAtlas
