import CrateAtlas.Proofs.FileSystem
import CrateAtlas.Resolver

/-!
Spellings of a path. The components of a path are read off its parts one by one, so what is left of a
path behind a directory has the components that are left, a joined name is one more component, and paths
with the same components denote the same place wherever they denote anything.
-/

namespace CrateAtlas

namespace Path

/-- The components that parts stand for. Only a part that starts a path can stand for its directory. -/
def partComponents (first : Bool) : List Bytes → List Component
  | [] => []
  | part :: rest => (component? first part).toList ++ partComponents false rest

theorem piecesFrom_component (first : Bool) (start : Nat) (parts : List Bytes) :
    (piecesFrom first start parts).map (·.component) = partComponents first parts := by
  induction parts generalizing first start with
  | nil => rfl
  | cons part rest ih =>
    rw [piecesFrom, partComponents]
    cases component? first part with
    | none => exact ih false _
    | some component => exact congrArg (component :: ·) (ih false _)

theorem partComponents_append (first : Bool) (front back : List Bytes) :
    partComponents first (front ++ back) =
      partComponents first front ++ partComponents (first && front.isEmpty) back := by
  induction front generalizing first with
  | nil => simp [partComponents]
  | cons part front ih => simp [partComponents, ih]

theorem components_eq (path : Path) :
    path.components =
      if path.isAbsolute then .root :: partComponents false (splitParts path.bytes)
      else partComponents true (splitParts path.bytes) := by
  unfold components pieces
  dsimp only
  split
  · rw [List.map_cons, piecesFrom_component]
  · rw [piecesFrom_component]

theorem root_not_mem_partComponents (first : Bool) (parts : List Bytes) :
    .root ∉ partComponents first parts := by
  induction parts generalizing first with
  | nil => exact List.not_mem_nil
  | cons part rest ih =>
    rw [partComponents, List.mem_append, not_or]
    refine ⟨?_, ih false⟩
    rw [Option.mem_toList]
    unfold component?
    repeat' split
    all_goals simp

theorem isAbsolute_iff (path : Path) : path.isAbsolute = true ↔ Component.root ∈ path.components := by
  rw [components_eq]
  split
  · next absolute => simp [absolute]
  · next relative => simp [relative, root_not_mem_partComponents]

theorem isAbsolute_of_components {first second : Path}
    (same : first.components = second.components) : first.isAbsolute = second.isAbsolute := by
  rw [Bool.eq_iff_iff, isAbsolute_iff, isAbsolute_iff, same]

theorem intercalate_splitParts (bytes : Bytes) :
    List.intercalate [slash] (splitParts bytes) = bytes := by
  induction bytes with
  | nil => rfl
  | cons byte rest ih =>
    obtain ⟨part, parts, split⟩ := List.exists_cons_of_ne_nil (splitParts_ne_nil rest)
    by_cases separator : byte = slash
    · subst separator
      rw [splitParts_slash, split, List.intercalate_cons_cons, ← split, ih]
      rfl
    · rw [splitParts_byte separator rest part parts split]
      rw [split] at ih
      cases parts with
      | nil => simpa [List.intercalate] using ih
      | cons next parts =>
        rw [List.intercalate_cons_cons] at ih ⊢
        rw [← ih]
        rfl

/-- A piece belongs to one of the parts, and the pieces before and behind it to those around it. -/
theorem exists_part {first : Bool} {start : Nat} {parts : List Bytes} {before after : List Piece}
    {piece : Piece} (split : piecesFrom first start parts = before ++ piece :: after) :
    ∃ front part back, parts = front ++ part :: back ∧
      piece.start = start + (rows front).length ∧ piece.stop = piece.start + part.length ∧
      component? (first && front.isEmpty) part = some piece.component ∧
      piecesFrom first start front = before ∧ piecesFrom false (piece.stop + 1) back = after := by
  induction parts generalizing first start before with
  | nil => simp [piecesFrom] at split
  | cons part rest ih =>
    rw [piecesFrom] at split
    have later {before' : List Piece}
        (split' : piecesFrom false (start + part.length + 1) rest = before' ++ piece :: after) :
        ∃ front inner back, rest = front ++ inner :: back ∧
          piece.start = start + (rows (part :: front)).length ∧
          piece.stop = piece.start + inner.length ∧
          component? (first && (part :: front).isEmpty) inner = some piece.component ∧
          piecesFrom false (start + part.length + 1) front = before' ∧
          piecesFrom false (piece.stop + 1) back = after := by
      obtain ⟨front, inner, back, same, starts, stops, named, left, right⟩ := ih split'
      refine ⟨front, inner, back, same, ?_, stops, by simpa using named, left, right⟩
      rw [starts]
      simp [rows]
      omega
    cases named : component? first part with
    | none =>
      rw [named] at split
      obtain ⟨front, inner, back, same, starts, stops, found, left, right⟩ := later split
      refine ⟨part :: front, inner, back, by rw [same]; rfl, starts, stops, found, ?_, right⟩
      simp [piecesFrom, named, left]
    | some component =>
      rw [named] at split
      cases before with
      | nil =>
        obtain ⟨rfl, rest⟩ := List.cons.inj split
        exact ⟨[], part, _, rfl, by simp [rows], rfl, by simpa using named, rfl, rest⟩
      | cons other before =>
        obtain ⟨rfl, split'⟩ := List.cons.inj split
        obtain ⟨front, inner, back, same, starts, stops, found, left, right⟩ := later split'
        refine ⟨part :: front, inner, back, by rw [same]; rfl, starts, stops, found, ?_, right⟩
        simp [piecesFrom, named, left]

theorem intercalate_cons_prefix (part : Bytes) (rest : List Bytes) :
    ∃ tail, List.intercalate [slash] (part :: rest) = part ++ tail := by
  cases rest with
  | nil => exact ⟨[], by simp⟩
  | cons next rest => exact ⟨_, (List.intercalate_cons_cons).trans (List.append_assoc ..)⟩

private theorem take_drop_middle (front middle back : Bytes) :
    ((front ++ middle ++ back).take (front.length + middle.length)).drop front.length = middle := by
  rw [List.take_left' (by simp), List.drop_left]

/-- The text from a piece to the last one is that of some parts, which have the components of these
pieces. -/
theorem exists_parts_slice {first : Bool} {text : Bytes} {before after : List Piece} {piece : Piece}
    (split : piecesFrom first 0 (splitParts text) = before ++ piece :: after) :
    ∃ part kept, part :: kept ⊆ splitParts text ∧
      (text.take ((piece :: after).getLast (by simp)).stop).drop piece.start =
        List.intercalate [slash] (part :: kept) ∧
      component? true part = some piece.component ∧
      partComponents false kept = after.map (·.component) := by
  obtain ⟨front, part, back, whole, starts, stops, named, _, behind⟩ := exists_part split
  have spelled : text = rows front ++ List.intercalate [slash] (part :: back) := by
    rw [← intercalate_append front (by simp), ← whole, intercalate_splitParts]
  have named : component? true part = some piece.component := by
    revert named
    unfold component?
    repeat' split
    all_goals simp_all
  rw [Nat.zero_add] at starts
  rcases List.eq_nil_or_concat' after with rfl | ⟨between, last, rfl⟩
  · obtain ⟨tail, same⟩ := intercalate_cons_prefix part back
    refine ⟨part, [], by simp [whole], ?_, named, rfl⟩
    rw [List.getLast_singleton, stops, starts, spelled, same, ← List.append_assoc, take_drop_middle]
    simp
  · obtain ⟨inner, final, rest, shape, starts', stops', named', mid, _⟩ := exists_part behind
    obtain ⟨tail, same⟩ := intercalate_cons_prefix final rest
    have long : text = rows front ++ (rows (part :: inner) ++ final) ++ tail := by
      rw [spelled, shape, ← List.cons_append, intercalate_append _ (by simp), same]
      simp
    have length : last.stop = (rows front).length + (rows (part :: inner) ++ final).length := by
      rw [stops', starts', stops, starts]
      simp [rows]
      omega
    refine ⟨part, inner ++ [final], ?_, ?_, named, ?_⟩
    · intro other member
      rw [whole, shape]
      rw [List.mem_cons, List.mem_append, List.mem_singleton] at member
      rcases member with here | here | here <;> simp [here]
    · rw [List.getLast_cons (by simp), List.getLast_append_singleton, length, starts, long,
        take_drop_middle, ← List.cons_append, intercalate_append _ (by simp)]
      simp
    · rw [partComponents_append, ← piecesFrom_component false _ inner, mid, List.map_append]
      simp [partComponents, by simpa using named']

private theorem components_slice {path : Path} {first : Bool} {before after : List Piece} {piece : Piece}
    (split : piecesFrom first 0 (splitParts path.bytes) = before ++ piece :: after) :
    (path.slice piece.start ((piece :: after).getLast (by simp)).stop).components =
      (piece :: after).map (·.component) := by
  obtain ⟨part, kept, within, text, named, rest⟩ := exists_parts_slice split
  have whole : ∀ other ∈ part :: kept, slash ∉ other :=
    fun other member => splitParts_whole_mem (within member)
  have relative : (path.slice piece.start ((piece :: after).getLast (by simp)).stop).isAbsolute =
      false := by
    rw [isAbsolute, slice, text]
    obtain ⟨tail, same⟩ := intercalate_cons_prefix part kept
    cases part with
    | nil => cases named
    | cons c part =>
      have plain := whole (c :: part) (by simp)
      rw [same, List.cons_append, List.head?_cons, beq_eq_false_iff_ne, ne_eq, Option.some.injEq]
      rintro rfl
      exact plain (by simp)
  rw [components_eq, relative, if_neg Bool.false_ne_true, slice, text,
    splitParts_intercalate (by simp) whole, partComponents, named, rest]
  rfl

/-- The text up to the end of a piece has the components of the pieces so far. -/
theorem exists_parts_before {first : Bool} {text : Bytes} {before after : List Piece} {piece : Piece}
    (split : piecesFrom first 0 (splitParts text) = before ++ piece :: after) :
    ∃ kept tail, text = kept ++ tail ∧ kept.length = piece.stop ∧ kept ≠ [] ∧
      partComponents first (splitParts kept) = (before ++ [piece]).map (·.component) := by
  obtain ⟨inner, final, back, whole, starts, stops, named, left, _⟩ := exists_part split
  obtain ⟨tail, same⟩ := intercalate_cons_prefix final back
  have filled : final ≠ [] := by
    rintro rfl
    cases named
  have parts : splitParts (rows inner ++ final) = inner ++ [final] := by
    have joined := intercalate_append inner (List.cons_ne_nil final [])
    rw [List.intercalate_singleton] at joined
    rw [← joined]
    refine splitParts_intercalate (by simp) fun part member => ?_
    apply splitParts_whole_mem
    rw [whole]
    rw [List.mem_append, List.mem_singleton] at member
    rcases member with here | here <;> simp [here]
  refine ⟨rows inner ++ final, tail, ?_, ?_, List.append_ne_nil_of_right_ne_nil _ filled, ?_⟩
  · rw [← intercalate_splitParts text, whole, intercalate_append _ (by simp), same, List.append_assoc]
  · rw [stops, starts, List.length_append, Nat.zero_add]
  · rw [parts, partComponents_append, ← piecesFrom_component first 0 inner, left, List.map_append]
    simp [partComponents, named]

/-- A path that ends with one of the pieces of a path has the components up to this piece. -/
theorem components_slice_front {path : Path} {before after : List Piece} {piece : Piece}
    (split : path.pieces = before ++ piece :: after) :
    (path.slice 0 piece.stop).components = (before ++ [piece]).map (·.component) := by
  have cut {kept tail : Bytes} (spelled : path.bytes = kept ++ tail)
      (stop : kept.length = piece.stop) : (path.slice 0 piece.stop).bytes = kept := by
    rw [slice, List.drop_zero, spelled, ← stop, List.take_left]
  have alike {kept tail : Bytes} (spelled : path.bytes = kept ++ tail)
      (stop : kept.length = piece.stop) (filled : kept ≠ []) :
      (path.slice 0 piece.stop).isAbsolute = path.isAbsolute := by
    rw [isAbsolute, isAbsolute, cut spelled stop, spelled, List.head?_append_of_ne_nil _ filled]
  by_cases absolute : path.isAbsolute = true
  · rw [pieces, if_pos absolute] at split
    cases before with
    | nil =>
      obtain ⟨rfl, _⟩ := List.cons.inj split
      obtain ⟨rest, spelled⟩ : ∃ rest, path.bytes = slash :: rest := by
        rw [isAbsolute, beq_iff_eq] at absolute
        exact List.head?_eq_some_iff.mp absolute
      rw [slice, spelled]
      rfl
    | cons top before =>
      obtain ⟨rfl, behind⟩ := List.cons.inj split
      obtain ⟨kept, tail, spelled, stop, filled, parts⟩ := exists_parts_before behind
      rw [components_eq, alike spelled stop filled, if_pos absolute, cut spelled stop, parts]
      rfl
  · rw [pieces, if_neg absolute] at split
    obtain ⟨kept, tail, spelled, stop, filled, parts⟩ := exists_parts_before split
    rw [components_eq, alike spelled stop filled, if_neg absolute, cut spelled stop, parts]

private theorem components_slice_root {path : Path} (absolute : path.isAbsolute = true) :
    (path.slice 0 (path.pieces.getLast (by simp [pieces, absolute])).stop).components =
      path.components := by
  have nonempty : path.pieces ≠ [] := by simp [pieces, absolute]
  have split := (List.dropLast_concat_getLast nonempty).symm
  rw [components_slice_front split, List.dropLast_concat_getLast, components]

/-- What is left of a path behind a directory has the components that are left. -/
theorem components_below? (path base : Path) :
    (path.below? base).map components =
      if path.startsWith base then some (path.components.drop base.components.length) else none := by
  unfold below?
  split
  · have dropped : path.components.drop base.components.length =
        (path.pieces.drop base.pieces.length).map (·.component) := by
      rw [components, components, List.length_map, List.map_drop]
    rw [dropped]
    cases rest : path.pieces.drop base.pieces.length with
    | nil => rfl
    | cons piece after =>
      have split : path.pieces = path.pieces.take base.pieces.length ++ piece :: after := by
        rw [← rest, List.take_append_drop]
      simp only [List.head?_cons, List.getLast?_eq_some_getLast (List.cons_ne_nil piece after),
        Option.map_some, Option.some.injEq]
      by_cases absolute : path.isAbsolute = true
      · have shape : path.pieces = ⟨.root, 0, 1⟩ :: piecesFrom false 0 (splitParts path.bytes) := by
          rw [pieces, if_pos absolute]
        cases front : path.pieces.take base.pieces.length with
        | nil =>
          rw [front, List.nil_append] at split
          have root : piece.start = 0 := by
            rw [shape] at split
            rw [← (List.cons.inj split).1]
          have sliced := components_slice_root absolute
          simp only [split] at sliced
          rw [root, sliced, components, split]
        | cons top front =>
          rw [front, List.cons_append, shape] at split
          exact components_slice (List.cons.inj split).2
      · rw [pieces, if_neg absolute] at split
        exact components_slice split
  · rfl

theorem splitParts_append_slash (front back : Bytes) :
    splitParts (front ++ slash :: back) = splitParts front ++ splitParts back := by
  induction front with
  | nil => exact splitParts_slash back
  | cons byte front ih =>
    by_cases separator : byte = slash
    · subst separator
      rw [List.cons_append, splitParts_slash, splitParts_slash, ih, List.cons_append]
    · obtain ⟨part, parts, split⟩ := List.exists_cons_of_ne_nil (splitParts_ne_nil front)
      rw [split, List.cons_append] at ih
      rw [List.cons_append, splitParts_byte separator _ _ _ ih, splitParts_byte separator _ _ _ split,
        List.cons_append]

/-- A joined path stands behind a separator, unless there is nothing before it. -/
theorem join_relative (base : Path) {path : Path} (relative : path.isAbsolute = false) :
    (base.bytes = [] ∧ base.join path = path) ∨
    ∃ front, (base.join path).bytes = front ++ slash :: path.bytes ∧
      base.bytes ≠ [] ∧ (base.bytes = front ∨ base.bytes = front ++ [slash]) := by
  by_cases empty : base.bytes = []
  · exact .inl ⟨empty, by simp [join, empty]⟩
  · have filled : base.bytes.isEmpty = false := by simpa using empty
    refine .inr ?_
    rw [join, relative, filled, Bool.or_false, if_neg Bool.false_ne_true]
    split
    · next slash =>
      obtain ⟨front, spelled⟩ := List.getLast?_eq_some_iff.mp (beq_iff_eq.mp slash)
      exact ⟨front, by simp [spelled], empty, .inr spelled⟩
    · exact ⟨base.bytes, by simp, empty, .inl rfl⟩

theorem isAbsolute_join (base : Path) {path : Path} (relative : path.isAbsolute = false) :
    (base.join path).isAbsolute = base.isAbsolute := by
  rcases join_relative base relative with ⟨empty, same⟩ | ⟨front, spelled, filled, before⟩
  · rw [same, relative, isAbsolute, empty]
    rfl
  · rw [isAbsolute, isAbsolute, spelled]
    rcases before with same | same
    · rw [same] at filled ⊢
      rw [List.head?_append_of_ne_nil _ filled]
    · rw [same]
      cases front <;> rfl

private theorem partComponents_first {parts : List Bytes}
    (undotted : Component.current ∉ partComponents true parts) :
    partComponents false parts = partComponents true parts := by
  cases parts with
  | nil => rfl
  | cons part rest =>
    rw [partComponents, partComponents]
    congr 1
    by_cases dotted : part = [dot]
    · simp [dotted, partComponents, component?] at undotted
    · simp [component?, dotted]

/-- Joining a relative path adds the components of its parts, of which none starts the joined path. -/
theorem components_join_behind {base path : Path} (relative : path.isAbsolute = false)
    (filled : base.bytes ≠ []) :
    (base.join path).components = base.components ++ partComponents false (splitParts path.bytes) := by
  rcases join_relative base relative with ⟨empty, _⟩ | ⟨front, spelled, _, before⟩
  · exact absurd empty filled
  have parts (first : Bool) : partComponents first (splitParts (base.join path).bytes) =
      partComponents first (splitParts base.bytes) ++ partComponents false (splitParts path.bytes) := by
    have kept : partComponents first (splitParts base.bytes) =
        partComponents first (splitParts front) := by
      rcases before with same | same
      · rw [same]
      · rw [same, splitParts_append_slash, partComponents_append]
        simp [splitParts, partComponents, component?]
    have behind : (first && (splitParts front).isEmpty) = false := by
      simp [splitParts_ne_nil]
    rw [kept, spelled, splitParts_append_slash, partComponents_append, behind]
  rw [components_eq, components_eq base, isAbsolute_join base relative, parts, parts]
  split
  · rw [List.cons_append]
  · rfl

/-- Joining a path that starts neither at the root nor with a dot adds its components. -/
theorem components_join_relative (base : Path) {path : Path} (relative : .root ∉ path.components)
    (undotted : .current ∉ path.components) :
    (base.join path).components = base.components ++ path.components := by
  have inner : path.isAbsolute = false := by
    rwa [← Bool.not_eq_true, isAbsolute_iff]
  have own : path.components = partComponents true (splitParts path.bytes) := by
    rw [components_eq, if_neg (by simp [inner])]
  by_cases empty : base.bytes = []
  · have joined : base.join path = path := by simp [join, empty]
    have nothing : base.components = [] := by
      obtain ⟨bytes⟩ := base
      cases empty
      rfl
    rw [joined, nothing, List.nil_append]
  · rw [own] at undotted ⊢
    rw [components_join_behind inner empty, partComponents_first undotted]

section

variable {name : Bytes} (plain : PlainName name)
include plain

theorem isAbsolute_plain : (⟨name⟩ : Path).isAbsolute = false := by
  simpa [isAbsolute] using plain.relative []

theorem components_plain : (⟨name⟩ : Path).components = [.name name] := by
  rw [components_eq, isAbsolute_plain plain, if_neg Bool.false_ne_true, splitParts_whole plain.whole]
  simp [partComponents, component?_plain plain]

theorem components_join (base : Path) :
    (base.join ⟨name⟩).components = base.components ++ [.name name] := by
  have single := components_plain plain
  rw [components_join_relative base (by simp [single]) (by simp [single]), single]

/-- The last part of a path with a name joined to it is that name. -/
theorem exists_parts_join (base : Path) :
    ∃ front, splitParts (base.join ⟨name⟩).bytes = front ++ [name] := by
  rcases join_relative base (isAbsolute_plain plain) with ⟨_, same⟩ | ⟨front, spelled, _⟩
  · exact ⟨[], by rw [same, splitParts_whole plain.whole, List.nil_append]⟩
  · exact ⟨splitParts front, by rw [spelled, splitParts_append_slash, splitParts_whole plain.whole]⟩

end

end Path

def Component.step? : Component → Option Bytes
  | .name bytes => some bytes
  | .parent => some [Path.dot, Path.dot]
  | _ => none

namespace FileSystem

open CrateAtlas.Path

variable {files : FileSystem} {first second : Path}

/-- The parts of a path that are followed, other than dots, are those of its components. -/
theorem parts_steps (path : Path) :
    (parts path).filter (· != [dot]) = path.components.filterMap Component.step? := by
  have named (atStart : Bool) (pieces : List Bytes) :
      (pieces.filter (· != [])).filter (· != [dot]) =
        (partComponents atStart pieces).filterMap Component.step? := by
    induction pieces generalizing atStart with
    | nil => rfl
    | cons part rest ih =>
      rw [partComponents, List.filterMap_append, ← ih false]
      unfold component?
      split
      · next empty => simp [empty]
      · next filled =>
        split
        · next dotted => cases atStart <;> simp [Component.step?, dotted]
        · next undotted => split <;> simp_all [Component.step?]
  have kept : (parts path).filter (· != [dot]) =
      ((splitParts path.bytes).filter (· != [])).filter (· != [dot]) := by
    unfold parts
    dsimp only
    split
    · simp
    · rfl
  rw [kept, components_eq]
  split
  · rw [named false, List.filterMap_cons]
    rfl
  · exact named true _

/-- Dots change nothing where a path is followed to its end. -/
theorem steps_without_dots {parts way start : List Bytes}
    (followed : parts.foldlM files.step start = .ok way) :
    (parts.filter (· != [dot])).foldlM files.step start = .ok way := by
  induction parts generalizing start with
  | nil => exact followed
  | cons part rest ih =>
    obtain ⟨next, stepped, followed⟩ := bind_ok followed
    by_cases dotted : part = [dot]
    · have stays : next = start := by
        subst dotted
        unfold step at stepped
        split at stepped
        · cases stepped
        · cases stepped
        · rw [if_pos rfl] at stepped
          exact (Except.ok.inj stepped).symm
      rw [List.filter_cons_of_neg (by simp [dotted])]
      exact ih (stays ▸ followed)
    · rw [List.filter_cons_of_pos (by simp [dotted]), List.foldlM_cons, stepped]
      exact ih followed

theorem locate_steps {path : Path} {place : Place} (located : files.locate path = .ok place) :
    (path.components.filterMap Component.step?).foldlM files.step
        (if path.isAbsolute then [] else files.current) = .ok place.way ∧
      files.root.descend? place.way = some place.tree := by
  obtain ⟨_, followed, found⟩ := locate_ok_iff.mp located
  rw [← parts_steps]
  exact ⟨steps_without_dots followed, found⟩

/-- Spellings of a path that denote something denote the same. -/
theorem locate_same (same : first.components = second.components) {place other : Place}
    (located : files.locate first = .ok place) (located' : files.locate second = .ok other) :
    place = other := by
  obtain ⟨followed, found⟩ := locate_steps located
  obtain ⟨followed', found'⟩ := locate_steps located'
  rw [same, isAbsolute_of_components same, followed'] at followed
  obtain ⟨way, tree⟩ := place
  obtain ⟨way', tree'⟩ := other
  obtain rfl : way' = way := Except.ok.inj followed
  obtain rfl : tree = tree' := Option.some.inj (found.symm.trans found')
  rfl

theorem locate_isFile {path : Path} (isFile : files.isFile path = true) :
    ∃ place, files.locate path = .ok place := by
  unfold FileSystem.isFile at isFile
  split at isFile
  · exact ⟨_, ‹_›⟩
  · cases isFile

/-- A dot leads to where a path is, if anything leads on from there. -/
theorem step_dot {way next : List Bytes} {part : Bytes} (stepped : files.step way part = .ok next) :
    files.step way [dot] = .ok way := by
  unfold step at stepped ⊢
  split at stepped
  · cases stepped
  · cases stepped
  · rw [if_pos rfl]

/-- Dots can be put in before the last of the parts that are followed. -/
theorem steps_with_dots {parts way start : List Bytes} {last : Bytes} (named : last ≠ [dot])
    (followed : ((parts ++ [last]).filter (· != [dot])).foldlM files.step start = .ok way) :
    (parts ++ [last]).foldlM files.step start = .ok way := by
  induction parts generalizing start with
  | nil => simpa [named] using followed
  | cons part rest ih =>
    rw [List.cons_append] at followed ⊢
    by_cases dotted : part = [dot]
    · subst dotted
      rw [List.filter_cons_of_neg (by simp)] at followed
      -- a dot asks for a directory, and so does the part that is followed next
      have stays : files.step start [dot] = .ok start := by
        obtain ⟨other, others, split⟩ := List.exists_cons_of_ne_nil
          (by simp [named] : (rest ++ [last]).filter (· != [dot]) ≠ [])
        rw [split] at followed
        obtain ⟨_, stepped, _⟩ := bind_ok followed
        exact step_dot stepped
      rw [List.foldlM_cons, stays]
      exact ih followed
    · rw [List.filter_cons_of_pos (by simp [dotted])] at followed
      obtain ⟨next, stepped, followed⟩ := bind_ok followed
      rw [List.foldlM_cons, stepped]
      exact ih followed

/-- A path that ends with a name denotes what the steps of its components lead to. -/
theorem locate_of_steps {name : Bytes} (plain : PlainName name) {base : Path} {place : Place}
    (followed : ((base.join ⟨name⟩).components.filterMap Component.step?).foldlM files.step
      (if (base.join ⟨name⟩).isAbsolute then [] else files.current) = .ok place.way)
    (found : files.root.descend? place.way = some place.tree) :
    files.locate (base.join ⟨name⟩) = .ok place := by
  rw [← parts_steps] at followed
  obtain ⟨front, split⟩ := exists_parts_join plain base
  have shape : parts (base.join ⟨name⟩) = front.filter (· != []) ++ [name] := by
    unfold parts
    rw [split]
    simp [plain.filled]
  have nonempty : (base.join ⟨name⟩).bytes ≠ [] := by
    intro empty
    have last := congrArg List.getLast? split
    rw [empty, List.getLast?_concat] at last
    exact plain.filled (Option.some.inj last).symm
  rw [shape] at followed
  refine locate_ok_iff.mpr ⟨nonempty, ?_, found⟩
  rw [shape]
  exact steps_with_dots plain.notCurrent followed

theorem locate_join {name : Bytes} (plain : PlainName name) {base path : Path} {place : Place}
    (same : (base.join ⟨name⟩).components = path.components) (located : files.locate path = .ok place) :
    files.locate (base.join ⟨name⟩) = .ok place := by
  obtain ⟨followed, found⟩ := locate_steps located
  rw [← same, ← isAbsolute_of_components same] at followed
  exact locate_of_steps plain followed found

theorem isFile_join {name : Bytes} (plain : PlainName name) {base path : Path}
    (same : (base.join ⟨name⟩).components = path.components) (isFile : files.isFile path = true) :
    files.isFile (base.join ⟨name⟩) = true := by
  obtain ⟨place, located⟩ := locate_isFile isFile
  rw [FileSystem.isFile, located] at isFile
  rw [FileSystem.isFile, locate_join plain same located]
  exact isFile

private theorem read_same (same : first.components = second.components) (isFile : files.isFile first = true)
    (isFile' : files.isFile second = true) : files.read first = files.read second := by
  obtain ⟨place, located⟩ := locate_isFile isFile
  obtain ⟨other, located'⟩ := locate_isFile isFile'
  rw [read, read, located, located', locate_same same located located']

end FileSystem

theorem FileOutline.ofFile_same {files : FileSystem} {first second : Path}
    (same : first.components = second.components) (isFile : files.isFile first = true)
    (isFile' : files.isFile second = true) {excludeTests : Bool} {outline : FileOutline}
    (parsed : ofFile files excludeTests first = .ok outline) :
    ofFile files excludeTests second = .ok outline := by
  unfold ofFile at parsed ⊢
  rw [← FileSystem.read_same same isFile isFile']
  split at parsed
  · unfold ofText at parsed ⊢
    split at parsed
    · cases parsed
    · exact parsed
  · cases parsed
  · cases parsed

namespace Resolver

variable {resolver : Resolver} {first second : Path}

theorem modulePath?_components (resolver : Resolver) (file : Path) : resolver.modulePath? file =
    if file.components == resolver.rootFile.components then some []
    else ((file.below? resolver.sourceDir).map Path.components).bind fun components =>
      (components.map (·.bytes.display)).getLast?.bind fun last =>
        (Text.dropEnd? last ".rs").map fun stem =>
          if stem = "mod" then (components.map (·.bytes.display)).dropLast
          else (components.map (·.bytes.display)).dropLast ++ [stem] := by
  unfold modulePath?
  rw [Path.same]
  split
  · rfl
  · cases file.below? resolver.sourceDir with
    | none => rfl
    | some below =>
      simp only [Option.bind_eq_bind, Option.bind_some, Option.map_some, Option.pure_def]
      cases (below.components.map (·.bytes.display)).getLast? with
      | none => rfl
      | some last =>
        simp only [Option.bind_some]
        cases Text.dropEnd? last ".rs" <;> rfl

private theorem modulePath?_same (same : first.components = second.components) :
    resolver.modulePath? first = resolver.modulePath? second := by
  rw [modulePath?_components, modulePath?_components, Path.components_below?, Path.components_below?,
    Path.startsWith, Path.startsWith, same]

theorem resolve_same (files : FileSystem) (same : first.components = second.components)
    (specifier : String) :
    resolver.resolve files specifier first = resolver.resolve files specifier second := by
  rw [resolve, resolve, modulePath?_same same]

end Resolver

end CrateAtlas
