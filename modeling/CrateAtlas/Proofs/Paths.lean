import CrateAtlas.FileTree
import CrateAtlas.Proofs.Registry
import CrateAtlas.Proofs.Utf8
import Mathlib.Data.List.Basic

/-!
Absolute paths of names. Such a path has the names of its way as components; joining a name, taking
the parent and looking at a path from a directory above it are operations on ways.
-/

namespace CrateAtlas.Path

/-- A name that a directory can hold: not empty, without separators, and neither `.` nor `..`. -/
structure PlainName (name : Bytes) : Prop where
  filled : name ≠ []
  whole : slash ∉ name
  notCurrent : name ≠ [dot]
  notParent : name ≠ [dot, dot]

instance (name : Bytes) : Decidable (PlainName name) :=
  decidable_of_iff (name ≠ [] ∧ slash ∉ name ∧ name ≠ [dot] ∧ name ≠ [dot, dot])
    ⟨fun valid => ⟨valid.1, valid.2.1, valid.2.2.1, valid.2.2.2⟩,
      fun plain => ⟨plain.filled, plain.whole, plain.notCurrent, plain.notParent⟩⟩

theorem slash_mem_ofText {text : String} : slash ∈ Bytes.ofText text ↔ '/' ∈ text.toList :=
  @Bytes.ascii_mem_ofText text '/' (by decide) (by decide)

theorem plainName_ofText_iff {text : String} : PlainName (Bytes.ofText text) ↔
    text ≠ "" ∧ '/' ∉ text.toList ∧ text ≠ "." ∧ text ≠ ".." := by
  have current : Bytes.ofText text = [dot] ↔ text = "." := @Bytes.ofText_inj text "."
  have parent : Bytes.ofText text = [dot, dot] ↔ text = ".." := @Bytes.ofText_inj text ".."
  rw [← slash_mem_ofText, ne_eq, ne_eq, ne_eq, ← Bytes.ofText_eq_nil_iff, ← current, ← parent]
  exact ⟨fun plain => ⟨plain.filled, plain.whole, plain.notCurrent, plain.notParent⟩,
    fun ⟨filled, whole, notCurrent, notParent⟩ => ⟨filled, whole, notCurrent, notParent⟩⟩

theorem splitParts_ne_nil (bytes : Bytes) : splitParts bytes ≠ [] := by
  cases bytes with
  | nil => simp [splitParts]
  | cons byte rest =>
    rw [splitParts, List.foldr_cons]
    split
    · simp
    · split <;> simp

theorem splitParts_slash (rest : Bytes) : splitParts (slash :: rest) = [] :: splitParts rest := by
  obtain ⟨part, parts, split⟩ := List.exists_cons_of_ne_nil (splitParts_ne_nil rest)
  simp only [splitParts] at split ⊢
  rw [List.foldr_cons, split]
  simp

theorem splitParts_byte {byte : UInt8} (plain : byte ≠ slash) (rest part : Bytes)
    (parts : List Bytes) (split : splitParts rest = part :: parts) :
    splitParts (byte :: rest) = (byte :: part) :: parts := by
  simp only [splitParts] at split ⊢
  rw [List.foldr_cons, split]
  simp [plain]

theorem splitParts_whole {name : Bytes} (whole : slash ∉ name) : splitParts name = [name] := by
  induction name with
  | nil => rfl
  | cons byte rest ih =>
    rw [List.mem_cons, not_or] at whole
    exact splitParts_byte (Ne.symm whole.1) rest rest [] (ih whole.2)

private theorem splitParts_append {name : Bytes} (whole : slash ∉ name) (rest : Bytes) :
    splitParts (name ++ slash :: rest) = name :: splitParts rest := by
  induction name with
  | nil => exact splitParts_slash rest
  | cons byte name ih =>
    rw [List.mem_cons, not_or] at whole
    exact splitParts_byte (Ne.symm whole.1) _ _ _ (ih whole.2)

def rows (parts : List Bytes) : Bytes :=
  parts.flatMap (· ++ [slash])

theorem rows_intercalate {parts : List Bytes} (nonempty : parts ≠ []) :
    rows parts = [slash].intercalate parts ++ [slash] := by
  induction parts with
  | nil => exact absurd rfl nonempty
  | cons part rest ih =>
    cases rest with
    | nil => simp [rows, List.intercalate]
    | cons next rest =>
      have later := ih (by simp)
      simp only [rows, List.flatMap_cons, List.intercalate_cons_cons, List.append_assoc] at later ⊢
      rw [later]

theorem intercalate_append (front : List Bytes) {back : List Bytes} (nonempty : back ≠ []) :
    [slash].intercalate (front ++ back) = rows front ++ [slash].intercalate back := by
  induction front with
  | nil => rfl
  | cons part front ih =>
    obtain ⟨next, rest, same⟩ := List.exists_cons_of_ne_nil (by simp [nonempty] : front ++ back ≠ [])
    rw [List.cons_append, same, List.intercalate_cons_cons, ← same, ih]
    simp [rows]

theorem splitParts_intercalate {parts : List Bytes} (nonempty : parts ≠ [])
    (whole : ∀ part ∈ parts, slash ∉ part) : splitParts ([slash].intercalate parts) = parts := by
  induction parts with
  | nil => exact absurd rfl nonempty
  | cons part rest ih =>
    rw [List.forall_mem_cons] at whole
    cases rest with
    | nil => simpa [List.intercalate] using splitParts_whole whole.1
    | cons next rest =>
      rw [List.intercalate_cons_cons, List.append_assoc, List.singleton_append,
        splitParts_append whole.1, ih (by simp) whole.2]

theorem component?_plain {name : Bytes} (plain : PlainName name) (first : Bool) :
    component? first name = some (.name name) := by
  simp [component?, plain.filled, plain.notCurrent, plain.notParent]

section

variable {names front back : List Bytes}

/-- The components of names, one behind another, and where each of them stands. -/
theorem piecesFrom_cons {name : Bytes} (plain : PlainName name) (first : Bool) (start : Nat)
    (rest : List Bytes) :
    piecesFrom first start (name :: rest) =
      ⟨.name name, start, start + name.length⟩ :: piecesFrom false (start + name.length + 1) rest := by
  simp [piecesFrom, component?_plain plain]

theorem piecesFrom_components (plain : ∀ name ∈ names, PlainName name) (first : Bool) (start : Nat) :
    (piecesFrom first start names).map (·.component) = names.map .name := by
  induction names generalizing first start with
  | nil => rfl
  | cons name rest ih =>
    rw [List.forall_mem_cons] at plain
    rw [piecesFrom_cons plain.1, List.map_cons, ih plain.2, List.map_cons]

theorem piecesFrom_append (plain : ∀ name ∈ front, PlainName name) (first : Bool) (start : Nat)
    (nonempty : front ≠ []) (parts : List Bytes) :
    piecesFrom first start (front ++ parts) =
      piecesFrom first start front ++ piecesFrom false (start + (rows front).length) parts := by
  induction front generalizing first start with
  | nil => exact absurd rfl nonempty
  | cons name rest ih =>
    rw [List.forall_mem_cons] at plain
    rw [List.cons_append, piecesFrom_cons plain.1, piecesFrom_cons plain.1]
    cases rest with
    | nil => simp [rows, piecesFrom, Nat.add_assoc]
    | cons next rest =>
      rw [ih plain.2 _ _ (by simp)]
      simp [rows, Nat.add_assoc, Nat.add_left_comm, Nat.add_comm]

private theorem piecesFrom_getLast? {name : Bytes} (plain : ∀ other ∈ front ++ [name], PlainName other)
    (first : Bool) (start : Nat) :
    (piecesFrom first start (front ++ [name])).getLast? =
      some ⟨.name name, start + (rows front).length, start + (rows front).length + name.length⟩ := by
  have last : PlainName name := plain name (by simp)
  by_cases none : front = []
  · subst none
    simp [piecesFrom_cons last, piecesFrom, rows]
  · rw [piecesFrom_append (fun other member => plain other (by simp [member])) _ _ none,
      piecesFrom_cons last, List.getLast?_append]
    simp [piecesFrom]

end

open FileSystem (absolute)

variable {way base rest : List Bytes} {name : Bytes}

theorem absolute_isAbsolute (way : List Bytes) : (absolute way).isAbsolute = true := by
  simp [isAbsolute, absolute]

theorem absolute_pieces (plain : ∀ name ∈ way, PlainName name) :
    (absolute way).pieces = ⟨.root, 0, 1⟩ :: piecesFrom false 1 way := by
  have whole : ∀ part ∈ way, slash ∉ part := fun part member => (plain part member).whole
  simp only [pieces, absolute_isAbsolute, if_true]
  rw [absolute, splitParts_slash]
  by_cases none : way = []
  · subst none
    rfl
  · rw [splitParts_intercalate none whole]
    rfl

theorem components_absolute (plain : ∀ name ∈ way, PlainName name) :
    (absolute way).components = .root :: way.map .name := by
  rw [components, absolute_pieces plain, List.map_cons, piecesFrom_components plain]

theorem absolute_inj {other : List Bytes} (plain : ∀ name ∈ way, PlainName name)
    (plainOther : ∀ name ∈ other, PlainName name)
    (same : (absolute way).components = (absolute other).components) : way = other := by
  rw [components_absolute plain, components_absolute plainOther, List.cons.injEq] at same
  exact List.map_injective_iff.mpr (fun _ _ equal => Component.name.inj equal) same.2

theorem absolute_pieces_append (plain : ∀ name ∈ base ++ rest, PlainName name) :
    (absolute (base ++ rest)).pieces =
      (absolute base).pieces ++ piecesFrom false (1 + (rows base).length) rest := by
  have front : ∀ name ∈ base, PlainName name := fun name member => plain name (by simp [member])
  rw [absolute_pieces plain, absolute_pieces front, List.cons_append]
  by_cases none : base = []
  · simp [none, rows, piecesFrom]
  · rw [piecesFrom_append front _ _ none]

theorem absolute_bytes_append (nonempty : rest ≠ []) :
    (absolute (base ++ rest)).bytes = slash :: rows base ++ [slash].intercalate rest := by
  rw [absolute, intercalate_append _ nonempty, List.cons_append]

/-- The last component of the path of a way ends where the path does. -/
theorem absolute_getLast?_stop (plain : ∀ name ∈ way, PlainName name) :
    (absolute way).pieces.getLast?.map (·.stop) = some (absolute way).bytes.length := by
  rcases List.eq_nil_or_concat' way with rfl | ⟨front, name, rfl⟩
  · rfl
  · rw [absolute_bytes_append (by simp), absolute_pieces plain, List.getLast?_cons,
      piecesFrom_getLast? plain]
    simp [List.intercalate]
    omega

theorem parent?_absolute (plain : ∀ other ∈ way ++ [name], PlainName other) :
    (absolute (way ++ [name])).parent? = some (absolute way) := by
  have front : ∀ other ∈ way, PlainName other := fun other member => plain other (by simp [member])
  have last : PlainName name := plain name (by simp)
  have before := absolute_getLast?_stop front
  have spelled : (absolute way).bytes <+: (absolute (way ++ [name])).bytes := by
    rw [absolute_bytes_append (by simp), absolute]
    by_cases none : way = []
    · simp [none, rows]
    · rw [rows_intercalate none]
      simp
  rw [parent?, absolute_pieces_append plain, piecesFrom_cons last]
  simp only [piecesFrom, List.reverse_append, List.reverse_singleton, List.singleton_append,
    List.head?_reverse, before]
  simp only [reduceCtorEq, if_false, slice, Option.getD_some, List.drop_zero]
  rw [← List.prefix_iff_eq_take.mp spelled]

/-- What is left of the path of a way behind that of a directory above it. -/
theorem below?_absolute (plain : ∀ name ∈ base ++ rest, PlainName name) :
    (absolute (base ++ rest)).below? (absolute base) = some ⟨[slash].intercalate rest⟩ := by
  have front : ∀ name ∈ base, PlainName name := fun name member => plain name (by simp [member])
  have above : (absolute (base ++ rest)).startsWith (absolute base) = true := by
    rw [startsWith, components_absolute plain, components_absolute front, List.isPrefixOf_iff_prefix,
      List.map_append]
    exact ⟨_, List.cons_append⟩
  have ends := absolute_getLast?_stop plain
  rw [absolute_pieces_append plain] at ends
  simp only [below?, above, if_true, absolute_pieces_append plain, List.drop_left]
  cases rest with
  | nil => rfl
  | cons name rest =>
    have first : PlainName name := plain name (by simp)
    rw [piecesFrom_cons first] at ends ⊢
    obtain ⟨last, final⟩ := List.getLast?_isSome.mpr (List.cons_ne_nil
      (Piece.mk (.name name) (1 + (rows base).length) _) (piecesFrom false _ _))
      |> Option.isSome_iff_exists.mp
    rw [List.getLast?_append, final] at ends
    have stop : last.stop = (absolute (base ++ name :: rest)).bytes.length := by simpa using ends
    simp only [List.head?_cons, final, slice, stop, List.take_length]
    rw [absolute_bytes_append (by simp), List.drop_left' (by simp [Nat.add_comm])]

theorem PlainName.relative (plain : PlainName name) (more : Bytes) :
    (name ++ more).head? ≠ some slash := by
  obtain ⟨byte, rest, spelled⟩ := List.exists_cons_of_ne_nil plain.filled
  rw [spelled, List.cons_append, List.head?_cons, ne_eq, Option.some.injEq]
  rintro rfl
  exact plain.whole (by simp [spelled])

theorem components_intercalate (plain : ∀ name ∈ way, PlainName name) :
    (⟨[slash].intercalate way⟩ : Path).components = way.map .name := by
  cases way with
  | nil => rfl
  | cons name rest =>
    have whole : ∀ part ∈ name :: rest, slash ∉ part := fun part member => (plain part member).whole
    have relative : (⟨[slash].intercalate (name :: rest)⟩ : Path).isAbsolute = false := by
      have first := (plain name (by simp)).relative
      rw [isAbsolute, beq_eq_false_iff_ne]
      cases rest with
      | nil => simpa [List.intercalate] using first []
      | cons next rest =>
        rw [List.intercalate_cons_cons, List.append_assoc]
        exact first _
    rw [components, pieces, relative, if_neg Bool.false_ne_true,
      splitParts_intercalate (by simp) whole]
    exact piecesFrom_components plain true 0

theorem join_absolute (plain : ∀ other ∈ way, PlainName other) (last : PlainName name) :
    (absolute way).join ⟨name⟩ = absolute (way ++ [name]) := by
  have relative : (⟨name⟩ : Path).isAbsolute = false := by
    simpa [isAbsolute] using last.relative []
  have filled : (absolute way).bytes.isEmpty = false := by
    simp [absolute]
  have spelled : absolute (way ++ [name]) = ⟨slash :: rows way ++ name⟩ := by
    rw [Path.ext_iff, absolute_bytes_append (by simp), List.intercalate_singleton]
  rw [join, relative, filled, Bool.or_false, if_neg Bool.false_ne_true, spelled]
  rcases List.eq_nil_or_concat' way with rfl | ⟨front, final, rfl⟩
  · simp [absolute, rows]
  · -- the path ends with the last name, which has no separator
    have ends : ((absolute (front ++ [final])).bytes.getLast? == some slash) = false := by
      have plainFinal := plain final (by simp)
      rw [absolute_bytes_append (by simp), List.intercalate_singleton,
        List.getLast?_append_of_ne_nil _ plainFinal.filled, beq_eq_false_iff_ne]
      exact fun last => plainFinal.whole (List.mem_of_getLast? last)
    rw [ends, if_neg Bool.false_ne_true, absolute, rows_intercalate (by simp)]
    simp

end CrateAtlas.Path
