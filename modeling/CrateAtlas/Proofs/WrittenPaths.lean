import CrateAtlas.Proofs.Utf8
import CrateAtlas.Record.Encoding

/-!
What can be written of a result. A value is written in full exactly if nothing in it lacks a text, and in a
result only paths can lack one: it has a text exactly if all of its paths are texts.
-/

namespace CrateAtlas

namespace Json.Value

attribute [local simp] cutAt cutItems cutMembers

private theorem cutItems_eq_none_iff {level : Nat} {items : List Value} :
    cutItems level items = none ↔ ∀ item ∈ items, item.cutAt level = none := by
  induction items with
  | nil => simp
  | cons item items ih => simp [ih]

private theorem cutMembers_eq_none_iff {level : Nat} {members : List (String × Value)} :
    cutMembers level members = none ↔ ∀ member ∈ members, member.2.cutAt level = none := by
  induction members with
  | nil => simp
  | cons member members ih =>
    obtain ⟨key, value⟩ := member
    simp [ih]

@[simp] theorem cutAt_array {level : Nat} {items : List Value} :
    (array items).cutAt level = none ↔ ∀ item ∈ items, item.cutAt (level + 1) = none := by
  cases items with
  | nil => simp
  | cons item items => simp [cutItems_eq_none_iff]

@[simp] theorem cutAt_object {level : Nat} {members : List (String × Value)} :
    (object members).cutAt level = none ↔ ∀ member ∈ members, member.2.cutAt (level + 1) = none := by
  cases members with
  | nil => simp
  | cons member members =>
    obtain ⟨key, value⟩ := member
    simp [cutMembers_eq_none_iff]

@[simp] theorem cutAt_list {α : Type} {level : Nat} {f : α → Value} {items : List α} :
    (list f items).cutAt level = none ↔ ∀ item ∈ items, (f item).cutAt (level + 1) = none := by
  simp [list]

@[simp] theorem cutAt_string {level : Nat} {text : String} : (string text).cutAt level = none := by
  rw [cutAt] <;> simp

@[simp] theorem cutAt_number {level : Nat} {value : Number} : (number value).cutAt level = none := by
  rw [cutAt] <;> simp

@[simp] theorem cutAt_natural {level value : Nat} : (natural value).cutAt level = none :=
  cutAt_number

end Json.Value

open Json

@[simp] theorem mem_member? {key : String} {value : Option Value} {member : String × Value} :
    member ∈ member? key value ↔ ∃ given, value = some given ∧ (key, given) = member := by
  cases value <;> simp [member?, eq_comm]

@[simp] theorem Path.cutAt_toJson {level : Nat} {path : Path} :
    path.toJson.cutAt level = none ↔ path.bytes.IsText := by
  rw [toJson, text?, Bytes.IsText]
  cases path.bytes.text? with
  | none => simp [Value.cutAt]
  | some text => simp

@[simp] theorem CommitHistory.cutAt_toJson {level : Nat} {history : CommitHistory} :
    history.toJson.cutAt level = none := by
  simp [toJson]

@[simp] theorem FileRecord.cutAt_toJson {level : Nat} {file : FileRecord} :
    file.toJson.cutAt level = none ↔ file.path.bytes.IsText := by
  simp [toJson, or_imp, forall_and]

def Warning.paths : Warning → List Path
  | parseError path _ => [path]
  | resolutionFailure path _ => [path]
  | metricUnavailable path _ _ => path.toList

@[simp] theorem Warning.cutAt_toJson {level : Nat} {warning : Warning} :
    warning.toJson.cutAt level = none ↔ ∀ path ∈ warning.paths, path.bytes.IsText := by
  cases warning with
  | parseError path message => simp [toJson, paths]
  | resolutionFailure path specifier => simp [toJson, paths]
  | metricUnavailable path metric message => simp [toJson, paths, or_imp, forall_and]

namespace Atlas

def paths (atlas : Atlas) : List Path :=
  atlas.files.map (·.path) ++ atlas.unreached.getD [] ++ atlas.warnings.flatMap (·.paths)

private theorem cutAt_toJson {atlas : Atlas} :
    atlas.toJson.cutAt 0 = none ↔ ∀ path ∈ atlas.paths, path.bytes.IsText := by
  have unreached : (∀ path ∈ atlas.unreached.getD [], path.bytes.IsText) ↔
      ∀ paths ∈ atlas.unreached, ∀ path ∈ paths, path.bytes.IsText := by
    cases atlas.unreached <;> simp
  have warnings : (∀ member ∈ if atlas.warnings.isEmpty then [] else
      [("warnings", Value.list Warning.toJson atlas.warnings)], member.2.cutAt 1 = none) ↔
      ∀ warning ∈ atlas.warnings, ∀ path ∈ warning.paths, path.bytes.IsText := by
    split
    · next none => simp [List.isEmpty_iff.mp none]
    · simp
  simp only [paths, List.forall_mem_append, unreached, List.forall_mem_flatMap, List.forall_mem_map]
  rw [toJson, Value.cutAt_object]
  simp only [List.forall_mem_append, warnings]
  simp

/-- A result has a text exactly if all of its paths are texts. -/
theorem write_cases (atlas : Atlas) :
    (atlas.write = .ok atlas.toJson.render ∧ ∀ path ∈ atlas.paths, path.bytes.IsText) ∨
    ∃ part, atlas.write = .error part ∧ ∃ path ∈ atlas.paths, ¬ path.bytes.IsText := by
  unfold write Value.write
  cases cut : atlas.toJson.cutAt 0 with
  | none => exact .inl ⟨rfl, cutAt_toJson.mp cut⟩
  | some part =>
    refine .inr ⟨part, rfl, ?_⟩
    by_contra all
    push Not at all
    rw [cutAt_toJson.mpr all] at cut
    cases cut

theorem write_eq_ok {atlas : Atlas} (text : ∀ path ∈ atlas.paths, path.bytes.IsText) :
    atlas.write = .ok atlas.toJson.render := by
  rcases atlas.write_cases with ⟨written, _⟩ | ⟨_, _, path, member, broken⟩
  · exact written
  · exact absurd (text path member) broken

end Atlas

end CrateAtlas
