import CrateAtlas.Proofs.PathSpelling

/-!
Paths that are spelled with texts. A separator is a character of its own, so the bytes of a path are a text
exactly if those of its components are, and what is joined to a path or left of it behind a directory is
a text exactly if the further components are.
-/

namespace CrateAtlas.Path

open Bytes (IsText isText_iff_exists isText_ofText)

private theorem component?_bytes {first : Bool} {part : Bytes} {component : Component}
    (named : component? first part = some component) : component.bytes = part := by
  unfold component? at named
  split at named
  · cases named
  · next filled =>
    split at named
    · next dotted =>
      split at named
      · cases named
        exact dotted.symm
      · cases named
    · split at named
      · next dots =>
        cases named
        exact dots.symm
      · cases named
        rfl

private theorem isText_of_component?_eq_none {first : Bool} {part : Bytes}
    (skipped : component? first part = none) : part.IsText := by
  unfold component? at skipped
  split at skipped
  · next empty => exact empty ▸ isText_ofText ""
  · split at skipped
    · next dotted => exact dotted ▸ isText_ofText "."
    · split at skipped <;> cases skipped

private theorem splitParts_whole_append {front : Bytes} (whole : slash ∉ front) {rest part : Bytes}
    {parts : List Bytes} (split : splitParts rest = part :: parts) :
    splitParts (front ++ rest) = (front ++ part) :: parts := by
  induction front with
  | nil => exact split
  | cons byte front ih =>
    rw [List.mem_cons, not_or] at whole
    exact splitParts_byte (Ne.symm whole.1) _ _ _ (ih whole.2)

/-- The parts of a text are texts, for no separator is among the bytes of another character. -/
theorem isText_of_mem_splitParts {bytes part : Bytes} (isText : bytes.IsText)
    (member : part ∈ splitParts bytes) : part.IsText := by
  obtain ⟨text, rfl⟩ := isText_iff_exists.mp isText
  clear isText
  obtain ⟨letters, rfl⟩ : ∃ letters, text = String.ofList letters := ⟨text.toList, by simp⟩
  induction letters generalizing part with
  | nil =>
    obtain rfl : part = [] := List.mem_singleton.mp member
    exact isText_ofText ""
  | cons c letters ih =>
    have cut : String.ofList (c :: letters) = String.singleton c ++ String.ofList letters := by
      rw [← String.toList_inj]
      simp
    obtain ⟨first, parts, split⟩ :=
      List.exists_cons_of_ne_nil (splitParts_ne_nil (Bytes.ofText (String.ofList letters)))
    rw [split] at ih
    rw [cut, Bytes.ofText_append] at member
    by_cases separator : c = '/'
    · subst separator
      have same : splitParts (Bytes.ofText (String.singleton '/') ++ Bytes.ofText (String.ofList letters)) =
          [] :: first :: parts := by
        rw [← split]
        exact splitParts_slash _
      rw [same] at member
      rcases List.mem_cons.mp member with rfl | later
      · exact isText_ofText ""
      · exact ih later
    · have whole : slash ∉ Bytes.ofText (String.singleton c) := by
        rw [slash_mem_ofText]
        simpa using Ne.symm separator
      rw [splitParts_whole_append whole split] at member
      rcases List.mem_cons.mp member with rfl | later
      · exact (isText_ofText _).append (ih List.mem_cons_self)
      · exact ih (List.mem_cons_of_mem first later)

private theorem isText_intercalate {parts : List Bytes} (texts : ∀ part ∈ parts, part.IsText) :
    IsText ([slash].intercalate parts) := by
  induction parts with
  | nil => exact isText_ofText ""
  | cons part rest ih =>
    rw [List.forall_mem_cons] at texts
    cases rest with
    | nil =>
      rw [List.intercalate_singleton]
      exact texts.1
    | cons next rest =>
      rw [List.intercalate_cons_cons]
      exact (texts.1.append (isText_ofText "/")).append (ih texts.2)

theorem isText_partComponents_iff {first : Bool} {parts : List Bytes} :
    (∀ component ∈ partComponents first parts, component.bytes.IsText) ↔
      ∀ part ∈ parts, part.IsText := by
  induction parts generalizing first with
  | nil => simp [partComponents]
  | cons part rest ih =>
    rw [partComponents, List.forall_mem_append, List.forall_mem_cons, ih]
    refine and_congr_left fun _ => ?_
    cases named : component? first part with
    | none => simp [isText_of_component?_eq_none named]
    | some component => simp [component?_bytes named]

theorem isText_iff_components {path : Path} :
    path.bytes.IsText ↔ ∀ component ∈ path.components, component.bytes.IsText := by
  have parts : path.bytes.IsText ↔ ∀ part ∈ splitParts path.bytes, part.IsText := by
    refine ⟨fun text part member => isText_of_mem_splitParts text member, fun texts => ?_⟩
    rw [← intercalate_splitParts path.bytes]
    exact isText_intercalate texts
  rw [parts, components_eq]
  split
  · rw [List.forall_mem_cons, isText_partComponents_iff]
    exact (and_iff_right (isText_ofText "/")).symm
  · rw [isText_partComponents_iff]

/-- What a path has behind the components of another is all text. -/
def IsTextBelow (path base : Path) : Prop :=
  ∀ component ∈ path.components.drop base.components.length, component.bytes.IsText

instance (path base : Path) : Decidable (path.IsTextBelow base) :=
  inferInstanceAs (Decidable (∀ component ∈ _, _))

theorem isTextBelow_iff {path base : Path} {below : List Component}
    (split : path.components = base.components ++ below) :
    path.IsTextBelow base ↔ ∀ component ∈ below, component.bytes.IsText := by
  rw [IsTextBelow, split, List.drop_left]

theorem isText_below?_iff {path base relative : Path} (left : path.below? base = some relative) :
    relative.bytes.IsText ↔ path.IsTextBelow base := by
  have shape := components_below? path base
  rw [left, Option.map_some] at shape
  split at shape
  · rw [isText_iff_components, Option.some.inj shape, IsTextBelow]
  · cases shape

/-- A text that is joined to a path adds nothing but texts. -/
theorem isTextBelow_join (base : Path) {path : Path} (text : path.bytes.IsText) :
    (base.join path).IsTextBelow base := by
  by_cases replaced : path.isAbsolute = true ∨ base.bytes = []
  · have same : base.join path = path := by simp [join, replaced]
    rw [same]
    exact fun component member => isText_iff_components.mp text component (List.mem_of_mem_drop member)
  · rw [not_or, Bool.not_eq_true] at replaced
    rw [isTextBelow_iff (components_join_behind replaced.1 replaced.2), isText_partComponents_iff]
    exact fun part member => isText_of_mem_splitParts text member

end CrateAtlas.Path
