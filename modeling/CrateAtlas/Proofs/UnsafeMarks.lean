import CrateAtlas.Proofs.Occurrences

/-!
Unsafe code in outlines. Blocks, impls and functions that are declared unsafe each leave a mark in the
outline of their file, with one exception: a function of a trait leaves none.
-/

namespace CrateAtlas

open Source

namespace Source

private theorem Form.kind?_eq_unsafeMark_iff (form : Form) :
    form.kind? = some .unsafeMark ↔ form = .unsafeBlock := by
  cases form <;> decide

namespace Construct

def isUnsafeImpl : Construct → Bool
  | implItem isUnsafe _ _ _ _ => isUnsafe
  | _ => false

def isUnsafeFn : Construct → Bool
  | fnItem _ isUnsafe _ _ _ => isUnsafe
  | _ => false

def isUnsafeTraitFn : Construct → Bool
  | fnItem place isUnsafe _ _ _ => isUnsafe && place == .traitBody
  | _ => false

def unsafeCount (constructs : List Construct) : Nat :=
  constructs.countP (isForm .unsafeBlock) + constructs.countP isUnsafeImpl +
    constructs.countP isUnsafeFn

private theorem unsafeCount_cons (construct : Construct) (rest : List Construct) :
    unsafeCount (construct :: rest) = unsafeCount [construct] + unsafeCount rest := by
  simp only [unsafeCount, List.countP_cons, List.countP_nil]
  omega

/-- A construct that is declared unsafe leaves a mark, or else it is a function of a trait. -/
theorem balance_marks (construct : Construct) :
    [construct].countP (.unsafeMark ∈ ·.marks) + [construct].countP isUnsafeTraitFn =
      unsafeCount [construct] := by
  cases construct with
  | node form attrs parts =>
    have marked : .unsafeMark ∈ (node form attrs parts).marks ↔ form = .unsafeBlock := by
      rw [marks, Option.mem_toList, form.kind?_eq_unsafeMark_iff]
    simp [marked, unsafeCount, isForm, isUnsafeImpl, isUnsafeFn, isUnsafeTraitFn]
  | useItem | traitObject =>
    simp [marks, unsafeCount, isForm, isUnsafeImpl, isUnsafeFn, isUnsafeTraitFn]
  -- of the three places, only a trait body leaves the function without a mark
  | fnItem place isUnsafe attrs signature body => cases place <;> cases isUnsafe <;> rfl
  | implItem isUnsafe ofTrait attrs head items => cases isUnsafe <;> cases ofTrait <;> rfl
  | _ => rfl

private theorem balance_marks_all (constructs : List Construct) :
    constructs.countP (.unsafeMark ∈ ·.marks) + constructs.countP isUnsafeTraitFn =
      unsafeCount constructs := by
  induction constructs with
  | nil => rfl
  | cons construct rest ih =>
    have one := construct.balance_marks
    rw [unsafeCount_cons, ← one, ← ih]
    simp only [List.countP_cons, List.countP_nil]
    omega

end Construct

end Source

namespace FileOutline

open Construct

/-- The outline of a file has a mark for each block, impl and function that is declared unsafe, but for
the functions of traits. So there are as many marks as there is unsafe code just if no function of a
trait is unsafe. -/
theorem ofText_unsafe_counts (path : Path) (text : String) (file : SourceFile)
    (parsed : SourceFile.parse? text = some file) :
    ∃ outline, ofText false path text = .ok outline ∧
      outline.root.kinds.count .unsafeMark + file.occurrences.countP isUnsafeTraitFn =
        unsafeCount file.occurrences ∧
      (outline.root.kinds.count .unsafeMark = unsafeCount file.occurrences ↔
        ∀ construct ∈ file.occurrences, construct.isUnsafeTraitFn = false) := by
  have balance := balance_marks_all file.occurrences
  rw [← file.count_outline (by decide) (by decide)] at balance
  refine ⟨_, ofText_of_parse parsed false path, balance, ?_⟩
  rw [← balance, eq_comm, Nat.add_eq_left, List.countP_eq_zero]
  simp only [Bool.not_eq_true]

def guarded : String :=
  "trait T \x7b unsafe fn f() \x7b unsafe \x7b \x7d \x7d \x7d\nunsafe impl T for u8 \x7b \x7d"

theorem ofText_unsafe_counts_guarded :
    ∃ outline file, SourceFile.parse? guarded = some file ∧
      ofText false "lib.rs" guarded = .ok outline ∧
      outline.root.kinds.count .unsafeMark + file.occurrences.countP isUnsafeTraitFn =
        unsafeCount file.occurrences ∧
      file.occurrences.countP isUnsafeTraitFn = 1 ∧ unsafeCount file.occurrences = 3 := by
  have evaluated : (SourceFile.parse? guarded).map (fun file =>
      (file.occurrences.countP isUnsafeTraitFn, unsafeCount file.occurrences)) = some (1, 3) := by
    decide +kernel
  obtain ⟨file, parsed, told⟩ := Option.map_eq_some_iff.mp evaluated
  obtain ⟨declared, all⟩ : file.occurrences.countP isUnsafeTraitFn = 1 ∧
      unsafeCount file.occurrences = 3 := by
    simpa using told
  obtain ⟨outline, read, balance, _⟩ := ofText_unsafe_counts "lib.rs" guarded file parsed
  exact ⟨outline, file, parsed, read, balance, declared, all⟩

/-- The function of this trait is declared unsafe, yet there is no mark of that. -/
theorem trait_function_unmarked :
    ∃ outline file, SourceFile.parse? "trait T \x7b unsafe fn f(); \x7d" = some file ∧
      ofText false "lib.rs" "trait T \x7b unsafe fn f(); \x7d" = .ok outline ∧
      file.occurrences.countP isUnsafeFn = 1 ∧ unsafeCount file.occurrences = 1 ∧
      outline.root.kinds.count .unsafeMark = 0 := by
  have evaluated : (SourceFile.parse? "trait T \x7b unsafe fn f(); \x7d").map (fun file =>
      (file.occurrences.countP isUnsafeFn, unsafeCount file.occurrences,
        (file.outline false).kinds.count .unsafeMark)) = some (1, 1, 0) := by
    decide +kernel
  obtain ⟨file, parsed, told⟩ := Option.map_eq_some_iff.mp evaluated
  obtain ⟨functions, all, marked⟩ : file.occurrences.countP isUnsafeFn = 1 ∧
      unsafeCount file.occurrences = 1 ∧ (file.outline false).kinds.count .unsafeMark = 0 := by
    simpa using told
  exact ⟨_, file, parsed, ofText_of_parse parsed false _, functions, all, marked⟩

end FileOutline

end CrateAtlas
