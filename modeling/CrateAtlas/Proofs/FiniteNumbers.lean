import CrateAtlas.Json.Number
import Mathlib.Algebra.Order.Ring.Nat

/-!
JSON numbers are finite. They are integers of 64 bits that are scaled by powers of ten. What is too
large is no number at all, and divisions by powers of ten stay within the range of doubles.
-/

namespace CrateAtlas

namespace Double

theorem magnitude_ofWord (negative : Bool) {word : Nat} (small : word ≤ infinityWord) :
    (ofWord negative word).magnitude = word := by
  have unit : unit = 4503599627370496 := rfl
  have limit : Nat.pow 2 63 = 9223372036854775808 := rfl
  rw [infinityWord, unit] at small
  unfold magnitude ofWord
  rw [UInt64.toNat_ofNat', limit]
  cases negative with
  | true =>
    rw [if_pos rfl]
    omega
  | false =>
    rw [if_neg Bool.false_ne_true]
    omega

theorem isFinite_iff (x : Double) : x.isFinite = true ↔ x.magnitude < infinityWord := by
  rw [isFinite, decide_eq_true_eq]

private theorem isFinite_neg {x : Double} (finite : x.isFinite = true) : x.neg.isFinite = true := by
  rw [isFinite_iff] at finite ⊢
  rwa [neg, magnitude_ofWord _ finite.le]

theorem roundDiv_mem (num den : Nat) :
    num / den ≤ roundDiv num den ∧ roundDiv num den ≤ num / den + 1 := by
  unfold roundDiv
  dsimp only
  split
  · omega
  · split <;> omega

/-- The exponent of a quotient is that of its leading digit or one more, and leaves at most 53 digits
before it is rounded. -/
theorem exponentFor_fits (num : Nat) {den : Nat} (positive : 0 < den) :
    exponentFor num den ≤ (num * Nat.pow 2 scale).log2 - den.log2 - 53 + 1 ∧
      num * Nat.pow 2 scale / (den * Nat.pow 2 (exponentFor num den)) < 2 * unit := by
  have unit : 2 * unit = 2 ^ 53 := rfl
  have power (k : Nat) : Nat.pow 2 k = 2 ^ k := rfl
  unfold exponentFor
  dsimp only
  generalize num * Nat.pow 2 scale = scaled
  have above : 2 ^ den.log2 ≤ den := Nat.log2_self_le positive.ne'
  have enough : scaled / (den * 2 ^ (scaled.log2 - den.log2 - 53 + 1)) < 2 ^ 53 := by
    rw [Nat.div_lt_iff_lt_mul (Nat.mul_pos positive (Nat.two_pow_pos _))]
    calc scaled < 2 ^ (scaled.log2 + 1) := Nat.lt_log2_self
      _ ≤ 2 ^ (53 + (den.log2 + (scaled.log2 - den.log2 - 53 + 1))) :=
        Nat.pow_le_pow_right (by decide) (by omega)
      _ = 2 ^ 53 * (2 ^ den.log2 * 2 ^ (scaled.log2 - den.log2 - 53 + 1)) := by
        rw [Nat.pow_add, Nat.pow_add]
      _ ≤ 2 ^ 53 * (den * 2 ^ (scaled.log2 - den.log2 - 53 + 1)) :=
        Nat.mul_le_mul_left _ (Nat.mul_le_mul_right _ above)
  rw [unit]
  simp only [power]
  split
  · next fits => exact ⟨Nat.le_succ _, fits⟩
  · exact ⟨Nat.le_refl _, enough⟩

private theorem exponentFor_le {num den e : Nat} (positive : 0 < den)
    (small : num * Nat.pow 2 scale < den * 2 ^ (e + 53)) : exponentFor num den ≤ e + 1 := by
  have fits := (exponentFor_fits num positive).1
  generalize num * Nat.pow 2 scale = scaled at small fits
  by_contra beyond
  have leading : 2 ^ scaled.log2 ≤ scaled := by
    apply Nat.log2_self_le
    rintro rfl
    simp at fits
    omega
  have reached := calc den * 2 ^ (e + 53) < 2 ^ (den.log2 + 1) * 2 ^ (e + 53) :=
        Nat.mul_lt_mul_of_pos_right Nat.lt_log2_self (Nat.two_pow_pos _)
    _ = 2 ^ (den.log2 + 1 + (e + 53)) := (Nat.pow_add ..).symm
    _ ≤ 2 ^ scaled.log2 := Nat.pow_le_pow_right (by decide) (by omega)
    _ ≤ scaled := leading
  omega

/-- The number nearest to a quotient below `2 ^ (53 + e - 1074)`. -/
theorem magnitude_ofRatio_le (negative : Bool) {num den e : Nat} (positive : 0 < den)
    (small : num * Nat.pow 2 scale < den * 2 ^ (e + 53)) (range : e + 3 < 2047) :
    (ofRatio negative num den).magnitude ≤ (e + 3) * unit := by
  have low := exponentFor_le positive small
  have short := (exponentFor_fits num positive).2
  have rounded := (roundDiv_mem (num * Nat.pow 2 scale) (den * Nat.pow 2 (exponentFor num den))).2
  unfold ofRatio
  dsimp only
  generalize roundDiv (num * Nat.pow 2 scale) (den * Nat.pow 2 (exponentFor num den)) = m at rounded ⊢
  have word : (if m < unit then m else (exponentFor num den + 1) * unit + (m - unit)) ≤
      (e + 3) * unit := by
    have wide : (exponentFor num den + 2) * unit ≤ (e + 3) * unit :=
      Nat.mul_le_mul_right _ (by omega)
    rw [Nat.add_mul] at wide
    rw [Nat.add_mul]
    split
    · have : 3 * unit ≤ (e + 3) * unit := Nat.mul_le_mul_right _ (by omega)
      omega
    · omega
  have bound : (e + 3) * unit < infinityWord := Nat.mul_lt_mul_of_pos_right range (by decide)
  rw [if_pos (word.trans_lt bound), magnitude_ofWord _ (word.trans bound.le)]
  exact word

theorem magnitude_ofNat_le {n e : Nat} (small : n < 2 ^ (e + 53)) (range : scale + e + 3 < 2047) :
    (ofNat n).magnitude ≤ (scale + e + 3) * unit := by
  have scaled : n * Nat.pow 2 scale < 1 * 2 ^ (scale + e + 53) := by
    generalize scale = s
    calc n * Nat.pow 2 s < 2 ^ (e + 53) * 2 ^ s :=
          Nat.mul_lt_mul_of_pos_right small (Nat.two_pow_pos s)
      _ = 1 * 2 ^ (s + e + 53) := by rw [← Nat.pow_add, Nat.one_mul, Nat.add_comm, Nat.add_assoc]
  exact magnitude_ofRatio_le false Nat.one_pos scaled range

private theorem le_exponentFor_one {n : Nat} (positive : 0 < n) : 1022 ≤ exponentFor n 1 ∧
    unit ≤ n * Nat.pow 2 scale / (1 * Nat.pow 2 (exponentFor n 1)) := by
  have unit : unit = 2 ^ 52 := rfl
  have log : Nat.log2 1 = 0 := by decide
  have wide : scale = 1074 := rfl
  obtain ⟨low, short⟩ := exponentFor_fits n Nat.one_pos
  generalize exponentFor n 1 = e at low short ⊢
  have whole : 2 ^ scale ≤ n * Nat.pow 2 scale := by
    generalize scale = s
    exact Nat.le_mul_of_pos_left _ positive
  have power : Nat.pow 2 e = 2 ^ e := rfl
  -- the powers are too large to be worked out
  generalize scale = s at low short whole wide ⊢
  generalize n * Nat.pow 2 s = scaled at low short whole ⊢
  have nonzero : scaled ≠ 0 := ((Nat.two_pow_pos s).trans_le whole).ne'
  have size : s ≤ scaled.log2 := (Nat.le_log2 nonzero).mpr whole
  have leading : 2 ^ scaled.log2 ≤ scaled := Nat.log2_self_le nonzero
  rw [Nat.one_mul, power, unit] at short ⊢
  constructor
  · have below : 2 ^ s < 2 ^ (53 + e) := by
      rw [Nat.div_lt_iff_lt_mul (Nat.two_pow_pos e)] at short
      calc 2 ^ s ≤ scaled := whole
        _ < 2 ^ 53 * 2 ^ e := short
        _ = 2 ^ (53 + e) := (Nat.pow_add ..).symm
    have high := (Nat.pow_lt_pow_iff_right (by decide)).mp below
    omega
  · rw [Nat.le_div_iff_mul_le (Nat.two_pow_pos e), ← Nat.pow_add]
    exact (Nat.pow_le_pow_right (by decide) (by omega)).trans leading

/-- Whole numbers from one on have a place from that of one on. -/
theorem le_magnitude_ofNat {n : Nat} (positive : 0 < n) : 1023 * unit ≤ (ofNat n).magnitude := by
  obtain ⟨large, long⟩ := le_exponentFor_one positive
  have rounded := (roundDiv_mem (n * Nat.pow 2 scale) (1 * Nat.pow 2 (exponentFor n 1))).1
  unfold ofNat ofRatio
  dsimp only
  generalize roundDiv (n * Nat.pow 2 scale) (1 * Nat.pow 2 (exponentFor n 1)) = m at rounded ⊢
  rw [if_neg (Nat.not_lt.mpr (long.trans rounded))]
  split
  · next small =>
    rw [magnitude_ofWord _ small.le]
    calc 1023 * unit ≤ (exponentFor n 1 + 1) * unit := Nat.mul_le_mul_right _ (by omega)
      _ ≤ (exponentFor n 1 + 1) * unit + (m - unit) := Nat.le_add_right _ _
  · rw [infinity, magnitude_ofWord _ (Nat.le_refl _), infinityWord]
    exact Nat.mul_le_mul_right _ (by decide)

def units (x : Double) : Nat :=
  x.mantissa * Nat.pow 2 x.exponent

private theorem units_lt {x : Double} {e : Nat} (bound : x.magnitude ≤ (e + 1) * unit) :
    x.units < 2 ^ (e + 53) := by
  have short : x.mantissa < 2 ^ 53 := by
    have unit : unit = 2 ^ 52 := rfl
    have rest : x.magnitude % Double.unit < Double.unit := Nat.mod_lt _ (by decide)
    unfold mantissa
    split <;> omega
  have low : x.exponent ≤ e := by
    have quotient : x.magnitude / unit ≤ e + 1 := Nat.div_le_of_le_mul (by rwa [Nat.mul_comm])
    unfold exponent
    omega
  calc x.units < 2 ^ 53 * 2 ^ x.exponent := Nat.mul_lt_mul_of_pos_right short (Nat.two_pow_pos _)
    _ ≤ 2 ^ 53 * 2 ^ e := Nat.mul_le_mul_left _ (Nat.pow_le_pow_right (by decide) low)
    _ = 2 ^ (e + 53) := by rw [← Nat.pow_add, Nat.add_comm]

private theorem le_units {x : Double} (large : 1023 * unit ≤ x.magnitude) : Nat.pow 2 scale ≤ x.units := by
  have unit : unit = Nat.pow 2 52 := rfl
  have long : Double.unit ≤ x.mantissa := by
    unfold mantissa
    split
    · next small => exact absurd small (by omega)
    · exact Nat.le_add_right _ _
  have high : 1022 ≤ x.exponent := by
    have quotient : 1023 ≤ x.magnitude / Double.unit := (Nat.le_div_iff_mul_le (by decide)).mpr large
    unfold exponent
    omega
  have wide : scale = 52 + 1022 := rfl
  rw [units, wide]
  generalize 1022 = s at high ⊢
  calc Nat.pow 2 (52 + s) = Nat.pow 2 52 * Nat.pow 2 s := Nat.pow_add 2 52 s
    _ ≤ x.mantissa * Nat.pow 2 x.exponent :=
      Nat.mul_le_mul (unit ▸ long) (Nat.pow_le_pow_right (by decide) high)

/-- Division by a number from one on leads beyond its bound by little. -/
theorem magnitude_div_le {x y : Double} {e : Nat} (bound : x.magnitude ≤ (e + 1) * unit)
    (range : e + 3 < 2047) (finite : y.isFinite = true) (large : 1023 * unit ≤ y.magnitude) :
    (x.div y).magnitude ≤ (e + 3) * unit := by
  have finite' : x.isFinite = true := by
    rw [isFinite_iff]
    exact bound.trans_lt (Nat.mul_lt_mul_of_pos_right (by omega) (by decide))
  have nonzero : y.isZero = false := by
    rw [isZero, beq_eq_false_iff_ne]
    exact (Nat.lt_of_lt_of_le (by decide) large).ne'
  have whole := le_units large
  have small : x.units * Nat.pow 2 scale < y.units * 2 ^ (e + 53) := by
    generalize scale = s at whole ⊢
    calc x.units * Nat.pow 2 s < 2 ^ (e + 53) * Nat.pow 2 s :=
          Nat.mul_lt_mul_of_pos_right (units_lt bound) (Nat.two_pow_pos s)
      _ ≤ 2 ^ (e + 53) * y.units := Nat.mul_le_mul_left _ whole
      _ = y.units * 2 ^ (e + 53) := Nat.mul_comm _ _
  have positive : 0 < y.units := by
    generalize scale = s at whole
    exact (Nat.two_pow_pos s).trans_le whole
  rw [div, finite', finite, nonzero, if_pos (by decide)]
  exact magnitude_ofRatio_le _ positive small range

end Double

namespace Json

open Double

/-- The powers of ten that are applied in one step are finite. -/
theorem power_finite {power : Nat} (small : power ≤ maxStep) :
    (Double.ofNat (Nat.pow 10 power)).isFinite = true := by
  rcases Nat.eq_or_lt_of_le small with rfl | smaller
  · decide +kernel
  · have steps : power ≤ 307 := Nat.le_of_lt_succ smaller
    have top : Nat.pow 10 307 < 2 ^ (967 + 53) := by decide +kernel
    have bound : Nat.pow 10 power < 2 ^ (967 + 53) := by
      generalize 307 = limit at steps top
      exact (Nat.pow_le_pow_right (by decide) steps).trans_lt top
    rw [isFinite_iff]
    exact (magnitude_ofNat_le bound (by decide)).trans_lt
      (Nat.mul_lt_mul_of_pos_right (by decide) (by decide))

private theorem power_large (power : Nat) : 1023 * unit ≤ (Double.ofNat (Nat.pow 10 power)).magnitude :=
  le_magnitude_ofNat (Nat.pow_pos (by decide))

private theorem divideByPower_finite {fuel e power : Nat} {x : Double} (bound : x.magnitude ≤ (e + 1) * unit)
    (range : e + 2 * fuel + 1 < 2047) : (divideByPower fuel x power).isFinite = true := by
  induction fuel generalizing x e power with
  | zero =>
    rw [divideByPower, isFinite_iff]
    exact bound.trans_lt (Nat.mul_lt_mul_of_pos_right (by omega) (by decide))
  | succ fuel ih =>
    rw [divideByPower]
    split
    · next small =>
      have quotient := magnitude_div_le bound (by omega) (power_finite small) (power_large power)
      rw [isFinite_iff]
      exact quotient.trans_lt (Nat.mul_lt_mul_of_pos_right (by omega) (by decide))
    · split
      · rw [isFinite_iff]
        exact bound.trans_lt (Nat.mul_lt_mul_of_pos_right (by omega) (by decide))
      · have quotient := magnitude_div_le bound (by omega) (power_finite (Nat.le_refl _))
          (power_large maxStep)
        exact ih quotient (by omega)

theorem magnitude_natural_le {value : Nat} (small : value ≤ maxNatural) :
    (Double.ofNat value).magnitude ≤ (scale + 13 + 1) * unit :=
  magnitude_ofNat_le (Nat.lt_of_le_of_lt small (by decide) : value < 2 ^ (11 + 53)) (by decide)

theorem ofNat_finite {value : Nat} (small : value ≤ maxNatural) :
    (Double.ofNat value).isFinite = true := by
  rw [isFinite_iff]
  exact (magnitude_natural_le small).trans_lt (Nat.mul_lt_mul_of_pos_right (by decide) (by decide))

theorem scaled?_finite {value : Nat} {power : Int} {x : Double} (small : value ≤ maxNatural)
    (scaled : scaled? value power = some x) : x.isFinite = true := by
  unfold scaled? at scaled
  dsimp only at scaled
  split at scaled
  · cases scaled
    exact divideByPower_finite (magnitude_natural_le small) (by decide)
  · split at scaled
    · split at scaled
      · next finite =>
        cases scaled
        exact finite
      · cases scaled
    · split at scaled
      · cases scaled
        exact ofNat_finite small
      · cases scaled

private theorem gather_le {limit value : Nat} (digits : List Nat) (small : value ≤ limit) :
    (gather limit value digits).1 ≤ limit := by
  induction digits generalizing value with
  | nil => exact small
  | cons digit rest ih =>
    rw [gather]
    split
    · next fits => exact ih fits
    · exact small

namespace NumberText

private theorem magnitude?_finite {value : Nat} {power : Int} {exponent : Option (Bool × List Nat)}
    {x : Double} (small : value ≤ maxNatural) (found : magnitude? value power exponent = some x) :
    x.isFinite = true := by
  unfold magnitude? at found
  split at found
  · exact scaled?_finite small found
  · split at found
    · exact scaled?_finite small found
    · split at found
      · cases found
      · cases found
        decide

/-- A number that is read is finite. -/
theorem value?_finite {text : NumberText} {number : Number} (read : text.value? = some number) :
    number.toDouble.isFinite = true := by
  have signed {x : Double} (finite : x.isFinite = true) :
      (if text.negative then x.neg else x).isFinite = true := by
    split
    · exact isFinite_neg finite
    · exact finite
  unfold value? at read
  have small := gather_le text.whole (Nat.zero_le maxNatural)
  generalize gather maxNatural 0 text.whole = gathered at small read
  obtain ⟨value, skipped⟩ := gathered
  dsimp only at small read
  split at read
  · split at read
    · obtain ⟨x, scaled, rfl⟩ := Option.map_eq_some_iff.mp read
      exact signed (scaled?_finite small scaled)
    · split at read
      · cases read
        exact ofNat_finite small
      · split at read
        · cases read
          exact signed (ofNat_finite small)
        · cases read
          exact isFinite_neg (ofNat_finite small)
  · obtain ⟨x, found, rfl⟩ := Option.map_eq_some_iff.mp read
    exact signed (magnitude?_finite (gather_le _ small) found)

end NumberText

end Json

end CrateAtlas
