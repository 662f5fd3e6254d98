import CrateAtlas.Proofs.TidyItems
import Mathlib.Algebra.Order.BigOperators.Group.List
import Mathlib.Algebra.Order.Ring.Nat

/-!
Top-level imports. The specifiers of a file are those of its items, in their order. An import statement
gives what it names; any other item gives what the statements of loose blocks in it import, which is
nothing in most files.
-/

namespace CrateAtlas

open Source Construct

private theorem flatMap_append_eq_iff {α β : Type} (f g : α → List β) (values : List α) :
    (values.flatMap fun value => f value ++ g value) = values.flatMap f ↔
      ∀ value ∈ values, g value = [] := by
  constructor
  · intro same
    have lengths := congrArg List.length same
    simp only [List.length_flatMap, List.length_append, List.sum_map_add] at lengths
    have none : (values.map fun value => (g value).length).sum = 0 := by omega
    intro value member
    have zero := List.sum_eq_zero_iff.mp none _ (List.mem_map_of_mem member)
    exact List.length_eq_zero_iff.mp zero
  · intro none
    exact List.flatMap_congr fun value member => by rw [none value member, List.append_nil]

namespace Source

namespace Construct

variable {item stmt : Construct}

/-- A statement of a block in an item, where nothing around the block has an outline. -/
def LooseStatement (stmt item : Construct) : Prop :=
  ∃ block, LooseIn block item ∧ stmt ∈ block.bareStatements

private theorem imported_of_not_isImport (other : item.isImport = false) : item.imported = [] := by
  cases item with
  | useItem | modDecl => cases other
  | _ => rfl

private theorem specifiers_of_isImport (isImport : item.isImport = true) :
    item.specifiers = item.imported := by
  rw [specifiers_eq, looseParts_of_isImport isImport, List.flatMap_nil, List.append_nil]

private theorem LooseStatement.looseIn (loose : LooseStatement stmt item) : LooseIn stmt item := by
  obtain ⟨block, within, statement⟩ := loose
  exact (LooseIn.of_mem_bareStatements statement).trans within

/-- An item that is no import shows just what is imported by loose statements in it. -/
theorem Tidy.mem_specifiers_iff (tidy : item.Tidy) {text : String} :
    text ∈ item.specifiers ↔ ∃ stmt, LooseStatement stmt item ∧ text ∈ stmt.imported := by
  rw [Construct.mem_specifiers_iff]
  constructor
  · rintro ⟨stmt, loose, named⟩
    exact ⟨stmt, tidy.exists_block loose (isImport_of_mem_imported named), named⟩
  · rintro ⟨stmt, loose, named⟩
    exact ⟨stmt, loose.looseIn, named⟩

/-- No more is shown of an item than what it imports itself just if no loose statement imports
anything. -/
theorem Placed.hidden_iff (placed : item.Placed) :
    item.looseParts.flatMap specifiers = [] ↔ ∀ stmt, LooseStatement stmt item → stmt.imported = [] := by
  rcases placed with isImport | tidy
  · rw [looseParts_of_isImport isImport]
    refine ⟨fun _ stmt loose => ?_, fun _ => rfl⟩
    obtain ⟨block, within, statement⟩ := loose
    cases within.eq_of_isImport isImport
    rw [bareStatements_of_isImport isImport] at statement
    cases statement
  · have shown : item.looseParts.flatMap specifiers = item.specifiers := by
      cases tidy with
      | intro other _ => rw [specifiers_eq, imported_of_not_isImport other, List.nil_append]
    rw [shown, List.eq_nil_iff_forall_not_mem]
    constructor
    · intro none stmt loose
      rw [List.eq_nil_iff_forall_not_mem]
      exact fun text named => none text (tidy.mem_specifiers_iff.mpr ⟨stmt, loose, named⟩)
    · intro none text listed
      obtain ⟨stmt, loose, named⟩ := tidy.mem_specifiers_iff.mp listed
      rw [none stmt loose] at named
      cases named

end Construct

end Source

namespace FileOutline

/-- The specifiers of a file are those of its items in order: what a top-level import names, and from
any other item what loose statements in it import. So they are those of the top-level imports just if
no loose statement imports anything. -/
theorem topLevelSpecifiers_ofText (path : Path) (text : String) (outline : FileOutline)
    (read : ofText false path text = .ok outline) :
    ∃ file, SourceFile.parse? text = some file ∧
      outline.root.topLevelSpecifiers = file.items.flatMap specifiers ∧
      (∀ item ∈ file.items, item.isImport = true → item.specifiers = item.imported) ∧
      (∀ item ∈ file.items, item.isImport = false → ∀ specifier, specifier ∈ item.specifiers ↔
        ∃ stmt, LooseStatement stmt item ∧ specifier ∈ stmt.imported) ∧
      (outline.root.topLevelSpecifiers = file.items.flatMap imported ↔
        ∀ item ∈ file.items, ∀ stmt, LooseStatement stmt item → stmt.imported = []) := by
  unfold ofText at read
  split at read
  · cases read
  · next file parsed =>
    cases read
    have placed := SourceFile.placed_of_parse? parsed
    have shown : (file.outline false).topLevelSpecifiers = file.items.flatMap specifiers := by
      simpa [SourceFile.outline] using topLevelSpecifiers_outlineAll file.items
    refine ⟨file, parsed, shown, ?_, ?_, ?_⟩
    · exact fun item _ isImport => specifiers_of_isImport isImport
    · intro item member other specifier
      refine Tidy.mem_specifiers_iff ((placed item member).resolve_left ?_)
      simp [other]
    · have split : specifiers =
          fun item => imported item ++ (looseParts item).flatMap specifiers := funext specifiers_eq
      rw [shown, split, flatMap_append_eq_iff]
      exact forall₂_congr fun item member => (placed item member).hidden_iff

def sizedAlias : String :=
  "type A = [u8; const \x7b use crate::x; 1 \x7d];"

theorem topLevelSpecifiers_ofText_sizedAlias :
    ∃ outline file, ofText false "lib.rs" sizedAlias = .ok outline ∧
      SourceFile.parse? sizedAlias = some file ∧
      outline.root.topLevelSpecifiers = file.items.flatMap specifiers ∧
      (∀ item ∈ file.items, item.isImport = true → item.specifiers = item.imported) ∧
      (∀ item ∈ file.items, item.isImport = false → ∀ specifier, specifier ∈ item.specifiers ↔
        ∃ stmt, LooseStatement stmt item ∧ specifier ∈ stmt.imported) ∧
      (outline.root.topLevelSpecifiers = file.items.flatMap imported ↔
        ∀ item ∈ file.items, ∀ stmt, LooseStatement stmt item → stmt.imported = []) := by
  have parses : (SourceFile.parse? sizedAlias).isSome = true := by decide +kernel
  obtain ⟨parsed, same⟩ := Option.isSome_iff_exists.mp parses
  have read := ofText_of_parse same false "lib.rs"
  obtain ⟨file, facts⟩ := topLevelSpecifiers_ofText _ _ _ read
  exact ⟨_, file, read, facts⟩

/-- The import is taken for one of the file, though the file holds nothing but the alias. -/
theorem sizedAlias_shows_import :
    ∃ outline file, ofText false "lib.rs" sizedAlias = .ok outline ∧
      SourceFile.parse? sizedAlias = some file ∧ file.items.map isImport = [false] ∧
      file.items.flatMap imported = [] ∧ outline.root.topLevelSpecifiers = ["crate::x"] := by
  have evaluated : (SourceFile.parse? sizedAlias).map (fun file =>
      (file.items.map isImport, file.items.flatMap imported,
        (file.outline false).topLevelSpecifiers)) = some ([false], [], ["crate::x"]) := by
    decide +kernel
  obtain ⟨file, parsed, told⟩ := Option.map_eq_some_iff.mp evaluated
  obtain ⟨kinds, named, shown⟩ : file.items.map isImport = [false] ∧
      file.items.flatMap imported = [] ∧ (file.outline false).topLevelSpecifiers = ["crate::x"] := by
    simpa using told
  exact ⟨_, file, ofText_of_parse parsed false _, parsed, kinds, named, shown⟩

end FileOutline

end CrateAtlas
