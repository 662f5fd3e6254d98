import CrateAtlas.Report.View
import Mathlib.Data.List.DropRight
import Mathlib.Data.List.Nodup
import Mathlib.Data.String.Basic

/-!
The table of the most complex files. Its rows are the first analysed files by complexity, name and place
among the files, each with its name in a column of one width. Where names tell the files apart, their
places do not matter, and the table is the same in whichever order the files are listed.
-/

namespace CrateAtlas.Report

/-- A file, with its place, comes before another one: it is more complex, or has the lesser name, or the
earlier place. -/
def Precedes (first second : FileRecord × Nat) : Prop :=
  second.1.complexity < first.1.complexity ∨
    first.1.complexity = second.1.complexity ∧
      (first.1.name < second.1.name ∨ first.1.name = second.1.name ∧ first.2 < second.2)

section

variable {first second third : FileRecord}

theorem ranksBefore_iff : ranksBefore first second = true ↔
    second.complexity.getD 0 < first.complexity.getD 0 ∨
      first.complexity.getD 0 = second.complexity.getD 0 ∧ first.name ≤ second.name := by
  simp [ranksBefore]

theorem ranksBefore_trans (before : ranksBefore first second = true)
    (after : ranksBefore second third = true) : ranksBefore first third = true := by
  rw [ranksBefore_iff] at before after ⊢
  rcases before with more | ⟨equal, named⟩
  · rcases after with further | ⟨same, _⟩ <;> omega
  · rcases after with further | ⟨same, later⟩
    · omega
    · exact .inr ⟨equal.trans same, named.trans later⟩

theorem ranksBefore_total (first second : FileRecord) :
    (ranksBefore first second || ranksBefore second first) = true := by
  rw [Bool.or_eq_true, ranksBefore_iff, ranksBefore_iff]
  rcases Nat.lt_trichotomy (first.complexity.getD 0) (second.complexity.getD 0) with less | equal | more
  · exact .inr (.inl less)
  · rcases le_total first.name second.name with named | named
    · exact .inl (.inr ⟨equal, named⟩)
    · exact .inr (.inr ⟨equal.symm, named⟩)
  · exact .inl (.inl more)

private theorem name_eq_of_ranksBefore (before : ranksBefore first second = true)
    (after : ranksBefore second first = true) : first.name = second.name := by
  rw [ranksBefore_iff] at before after
  rcases before with more | ⟨equal, named⟩ <;> rcases after with less | ⟨same, later⟩
  · omega
  · omega
  · omega
  · exact le_antisymm named later

private theorem complexity_of_isAnalyzed (analyzed : first.isAnalyzed = true) :
    first.complexity = some (first.complexity.getD 0) := by
  obtain ⟨complexity, known⟩ := Option.isSome_iff_exists.mp analyzed
  rw [known, Option.getD_some]

/-- Where places decide between files that rank equally, the ranking is the order of the table. -/
theorem precedes_of_zipIdxLE {first second : FileRecord × Nat} (analyzed : first.1.isAnalyzed = true)
    (analyzed' : second.1.isAnalyzed = true) (before : List.zipIdxLE ranksBefore first second = true)
    (apart : first.2 ≠ second.2) : Precedes first second := by
  rw [Precedes, complexity_of_isAnalyzed analyzed, complexity_of_isAnalyzed analyzed',
    Option.some_lt_some, Option.some.injEq]
  unfold List.zipIdxLE at before
  split at before
  · next ahead =>
    rcases ranksBefore_iff.mp ahead with more | ⟨equal, named⟩
    · exact .inl more
    · refine .inr ⟨equal, ?_⟩
      rcases named.lt_or_eq with less | same
      · exact .inl less
      · have back : ranksBefore second.1 first.1 = true :=
          ranksBefore_iff.mpr (.inr ⟨equal.symm, same.ge⟩)
        rw [if_pos back, decide_eq_true_eq] at before
        exact .inr ⟨same, Nat.lt_of_le_of_ne before apart⟩
  · cases before

end

def numbered (atlas : Atlas) : List (FileRecord × Nat) :=
  (atlas.files.filter FileRecord.isAnalyzed).zipIdx

private theorem isAnalyzed_of_mem_numbered {atlas : Atlas} {file : FileRecord × Nat}
    (member : file ∈ numbered atlas) : file.1.isAnalyzed = true :=
  (List.mem_filter.mp (List.fst_mem_of_mem_zipIdx member)).2

def standings (atlas : Atlas) : List (FileRecord × Nat) :=
  (numbered atlas).mergeSort (List.zipIdxLE ranksBefore)

theorem standings_perm (atlas : Atlas) : (standings atlas).Perm (numbered atlas) :=
  List.mergeSort_perm _ _

private theorem ranked_eq_map_standings (atlas : Atlas) (limit : Nat) :
    ranked atlas limit = ((standings atlas).take limit).map (·.1) := by
  rw [ranked, ← List.mergeSort_zipIdx, ← List.map_take]
  rfl

theorem standings_precedes (atlas : Atlas) : (standings atlas).Pairwise Precedes := by
  have sorted : (standings atlas).Pairwise fun first second =>
      List.zipIdxLE ranksBefore first second = true := by
    apply List.pairwise_mergeSort
    · exact List.zipIdxLE_trans fun _ _ _ => ranksBefore_trans
    · exact List.zipIdxLE_total ranksBefore_total
  have places : ((numbered atlas).map Prod.snd).Nodup := by
    rw [numbered, List.zipIdx_map_snd]
    exact List.nodup_range'
  have apart : (standings atlas).Pairwise fun first second => first.2 ≠ second.2 :=
    List.pairwise_map.mp (((standings_perm atlas).map Prod.snd).nodup_iff.mpr places)
  refine (sorted.and apart).imp_of_mem ?_
  rintro first second member member' ⟨before, unlike⟩
  exact precedes_of_zipIdxLE
    (isAnalyzed_of_mem_numbered ((standings_perm atlas).mem_iff.mp member))
    (isAnalyzed_of_mem_numbered ((standings_perm atlas).mem_iff.mp member')) before unlike

private theorem length_standings (atlas : Atlas) :
    (standings atlas).length = atlas.files.countP FileRecord.isAnalyzed := by
  rw [(standings_perm atlas).length_eq, numbered, List.length_zipIdx, List.countP_eq_length_filter]

private theorem precedes_of_omitted {atlas : Atlas} {limit : Nat} {file listed : FileRecord × Nat}
    (member : file ∈ numbered atlas) (omitted : file ∉ (standings atlas).take limit)
    (shown : listed ∈ (standings atlas).take limit) : Precedes listed file := by
  have ordered := standings_precedes atlas
  have there := (standings_perm atlas).mem_iff.mpr member
  rw [← List.take_append_drop limit (standings atlas)] at ordered there
  have later := (List.mem_append.mp there).resolve_left omitted
  exact (List.pairwise_append.mp ordered).2.2 listed shown file later

private theorem length_left {width : Nat} {text : String} (fits : text.length ≤ width) :
    (left width text).length = width := by
  rw [left, String.length_append, String.length_ofList, List.length_replicate]
  omega

theorem shorten_of_long {width : Nat} {text : String} (wide : 3 ≤ width) (long : width < text.length) :
    shorten width text = "..." ++ String.ofList (text.toList.rtake (width - 3)) := by
  rw [shorten, if_neg (by omega), List.rtake, String.length_toList]
  congr 3
  omega

private theorem length_shorten {width : Nat} (wide : 3 ≤ width) (text : String) :
    (shorten width text).length = min text.length width := by
  by_cases long : width < text.length
  · simp only [shorten_of_long wide long, String.length_append, String.length_ofList, List.rtake,
      List.length_drop, String.length_toList]
    have dots : "...".length = 3 := rfl
    omega
  · rw [shorten, if_pos (by omega)]
    omega

private theorem fileRow_eq (file : FileRecord) :
    fileRow file = left nameWidth (shorten nameWidth file.name) ++ " " ++
      " ".intercalate [right 8 (toString (file.lineCount.getD 0)),
        right 10 (toString (file.complexity.getD 0)), right 6 (toString file.importsDirect),
        right 6 (toString file.importsDepth)] := by
  rw [fileRow, row, String.intercalate_cons_cons]

/-- Files that are told apart by their names rank in one order only. -/
theorem ranked_perm {atlas other : Atlas} (reordered : other.files.Perm atlas.files)
    (distinct : (atlas.files.filter FileRecord.isAnalyzed).Pairwise
      fun first second => first.name ≠ second.name) (limit : Nat) :
    ranked other limit = ranked atlas limit := by
  have sorted (files : List FileRecord) : (files.mergeSort ranksBefore).Pairwise fun first second =>
      ranksBefore first second = true := by
    apply List.pairwise_mergeSort
    · exact fun _ _ _ => ranksBefore_trans
    · exact ranksBefore_total
  have analyzed := reordered.filter FileRecord.isAnalyzed
  have same : ((other.files.filter FileRecord.isAnalyzed).mergeSort ranksBefore).Perm
      ((atlas.files.filter FileRecord.isAnalyzed).mergeSort ranksBefore) :=
    ((List.mergeSort_perm _ _).trans analyzed).trans (List.mergeSort_perm _ _).symm
  have equal := same.eq_of_pairwise (fun first second member member' before after => ?_)
    (sorted _) (sorted _)
  · rw [ranked, ranked, equal]
  · have named : (atlas.files.filter FileRecord.isAnalyzed).map (·.name) |>.Nodup :=
      List.pairwise_map.mpr distinct
    exact List.inj_on_of_nodup_map named (analyzed.mem_iff.mp (List.mem_mergeSort.mp member))
      (List.mem_mergeSort.mp member') (name_eq_of_ranksBefore before after)

/-- The table has a row for each of the first analysed files, as many as fit below the limit. The name
of a file stands in a column of forty characters, from which only the beginning of a longer name is left
out. The table depends on the order of the files only if two of those analysed have the same name. -/
theorem topComplexity_rows (atlas : Atlas) (limit : Nat) :
    (∃ rows : List (FileRecord × Nat),
      topComplexity atlas limit =
        lines (row "File" "Lines" "Complexity" "In" "Depth" :: rows.map fun file => fileRow file.1) ∧
      rows.length = min limit (atlas.files.countP FileRecord.isAnalyzed) ∧
      (∀ file ∈ rows, file ∈ (atlas.files.filter FileRecord.isAnalyzed).zipIdx) ∧
      rows.Pairwise Precedes ∧
      ∀ file ∈ (atlas.files.filter FileRecord.isAnalyzed).zipIdx, file ∉ rows →
        ∀ listed ∈ rows, Precedes listed file) ∧
    (∀ file, ∃ cell figures, fileRow file = cell ++ " " ++ figures ∧ cell.length = 40 ∧
      (file.name.length ≤ 40 →
        cell = file.name ++ String.ofList (List.replicate (40 - file.name.length) ' ')) ∧
      (40 < file.name.length → cell = "..." ++ String.ofList (file.name.toList.rtake 37))) ∧
    ∀ other : Atlas, other.files.Perm atlas.files →
      (atlas.files.filter FileRecord.isAnalyzed).Pairwise
        (fun first second => first.name ≠ second.name) →
      topComplexity other limit = topComplexity atlas limit := by
  refine ⟨⟨(standings atlas).take limit, ?_, ?_, ?_, ?_, ?_⟩, ?_, ?_⟩
  · rw [topComplexity, ranked_eq_map_standings, List.map_map]
    rfl
  · rw [List.length_take, length_standings]
  · exact fun file member => (standings_perm atlas).mem_iff.mp (List.mem_of_mem_take member)
  · exact (standings_precedes atlas).sublist (List.take_sublist limit _)
  · exact fun file member omitted listed shown => precedes_of_omitted member omitted shown
  · intro file
    have width := length_shorten (by decide : 3 ≤ nameWidth) file.name
    refine ⟨_, _, fileRow_eq file, length_left (by omega), ?_, ?_⟩
    · intro fits
      rw [shorten, nameWidth, if_pos fits, left]
    · intro long
      rw [nameWidth] at width ⊢
      rw [left, width, Nat.min_eq_right long.le, shorten_of_long (by decide) long]
      simp
  · intro other reordered distinct
    rw [topComplexity, topComplexity, ranked_perm reordered distinct]

def entry (name : String) (complexity : Option Nat) : FileRecord :=
  { (default : FileRecord) with name, complexity }

def stall : Atlas :=
  { (default : Atlas) with files := [entry "lib.rs" (some 40), entry "broken.rs" none,
      entry "api.rs" (some 40), entry "src/größe/of/a/path/that/is/too/long/it.rs" (some 400),
      entry "a.rs" (some 20)] }

theorem topComplexity_rows_stall :
    (stall.files.filter FileRecord.isAnalyzed).Pairwise
      (fun first second => first.name ≠ second.name) ∧
    topComplexity { stall with files := stall.files.reverse } 3 = topComplexity stall 3 ∧
    (∃ rows : List (FileRecord × Nat), rows.length = 3 ∧ rows.Pairwise Precedes ∧
      topComplexity stall 3 = lines (row "File" "Lines" "Complexity" "In" "Depth" ::
        rows.map fun file => fileRow file.1)) ∧
    ∃ cell figures, fileRow (entry "src/größe/of/a/path/that/is/too/long/it.rs" (some 400)) =
        cell ++ " " ++ figures ∧ cell.length = 40 ∧
      cell = "...röße/of/a/path/that/is/too/long/it.rs" := by
  have distinct : (stall.files.filter FileRecord.isAnalyzed).Pairwise
      (fun first second => first.name ≠ second.name) := by decide +kernel
  obtain ⟨⟨rows, written, length, _, ordered, _⟩, cells, reordered⟩ := topComplexity_rows stall 3
  refine ⟨distinct, reordered _ (List.reverse_perm _) distinct, ⟨rows, length, ordered, written⟩, ?_⟩
  obtain ⟨cell, figures, split, width, _, long⟩ := cells
    (entry "src/größe/of/a/path/that/is/too/long/it.rs" (some 400))
  exact ⟨cell, figures, split, width, (long (by decide +kernel)).trans (by decide +kernel)⟩

end CrateAtlas.Report
