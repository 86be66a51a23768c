import TreeExport.Binary64.Basic
import Mathlib.Algebra.Order.Field.Power
import Mathlib.Algebra.Order.Ring.Rat
import Mathlib.Data.Nat.Cast.Order.Field
import Mathlib.Tactic.FieldSimp
import Mathlib.Tactic.Linarith
import Mathlib.Tactic.NormNum
import Mathlib.Tactic.Positivity
import Mathlib.Tactic.Ring

/-!
Rounding to the nearest number. The result depends on the quotient alone, a quotient below the overflow
threshold has a finite result, and a quotient close to a number is rounded to that number.
-/

namespace TreeExport

namespace Binary64

/-! ### Rounding to an integer -/

theorem divideToEven_bounds {den : Nat} (positive : 0 < den) (num : Nat) :
    2 * num ≤ den * (2 * divideToEven num den + 1) ∧ 2 * (den * divideToEven num den) ≤ 2 * num + den := by
  have split := Nat.div_add_mod num den
  have short := Nat.mod_lt num positive
  have up : den * (num / den + 1) = den * (num / den) + den := by rw [Nat.mul_add, Nat.mul_one]
  have twice (n : Nat) : den * (2 * n + 1) = 2 * (den * n) + den := by ring
  rw [twice, divideToEven]
  split
  · omega
  · split
    · rw [up]
      omega
    · split
      · omega
      · rw [up]
        omega

theorem abs_divideToEven_sub_le {den : Nat} (positive : 0 < den) (num : Nat) :
    |(divideToEven num den : ℚ) - num / den| ≤ 1 / 2 := by
  obtain ⟨above, below⟩ := divideToEven_bounds positive num
  have scale : (0 : ℚ) < den := by exact_mod_cast positive
  have above : (2 : ℚ) * num ≤ den * (2 * divideToEven num den + 1) := by exact_mod_cast above
  have below : (2 : ℚ) * (den * divideToEven num den) ≤ 2 * num + den := by exact_mod_cast below
  have quotient : (den : ℚ) * (num / den) = num := by field_simp
  rw [abs_le]
  constructor
  · nlinarith
  · nlinarith

theorem divideToEven_le {den n : Nat} (positive : 0 < den) {num : Nat} (below : (num / den : ℚ) < n + 1 / 2) :
    divideToEven num den ≤ n := by
  have close := abs_le.mp (abs_divideToEven_sub_le positive num)
  have less : (divideToEven num den : ℚ) < (n + 1 : Nat) := by
    push_cast
    linarith [close.2]
  exact Nat.lt_succ_iff.mp (by exact_mod_cast less)

theorem le_divideToEven {den n : Nat} (positive : 0 < den) {num : Nat} (above : (n : ℚ) - 1 / 2 < num / den) :
    n ≤ divideToEven num den := by
  have close := abs_le.mp (abs_divideToEven_sub_le positive num)
  have less : (n : ℚ) < (divideToEven num den + 1 : Nat) := by
    push_cast
    linarith [close.1]
  exact Nat.lt_succ_iff.mp (by exact_mod_cast less)

theorem divideToEven_mul {den factor : Nat} (positive : 0 < factor) (num : Nat) :
    divideToEven (num * factor) (den * factor) = divideToEven num den := by
  have parts : 2 * (num * factor % (den * factor)) = 2 * (num % den) * factor := by
    rw [Nat.mul_mod_mul_right, Nat.mul_assoc]
  simp only [divideToEven, Nat.mul_div_mul_right _ _ positive, parts,
    Nat.mul_lt_mul_right positive]

theorem divideToEven_congr {num den other lower : Nat} (positive : 0 < den) (alsoPositive : 0 < lower)
    (same : num * lower = other * den) : divideToEven num den = divideToEven other lower := by
  calc divideToEven num den = divideToEven (num * lower) (den * lower) := (divideToEven_mul alsoPositive _).symm
    _ = divideToEven (other * den) (lower * den) := by rw [same, Nat.mul_comm den]
    _ = divideToEven other lower := divideToEven_mul positive _

/-! ### The scale of a quotient -/

theorem scaleDown_pos {den : Nat} (positive : 0 < den) (num : Nat) (exponent : Int) :
    0 < (scaleDown num den exponent).2 := by
  cases exponent with
  | ofNat up => exact Nat.mul_pos positive (Nat.two_pow_pos up)
  | negSucc down => exact positive

theorem scaleDown_div (num den : Nat) (exponent : Int) :
    ((scaleDown num den exponent).1 : ℚ) / (scaleDown num den exponent).2 = num / den / 2 ^ exponent := by
  cases exponent with
  | ofNat up =>
      simp only [scaleDown, Nat.pow_eq, Int.ofNat_eq_natCast, zpow_natCast]
      push_cast
      rw [div_div]
  | negSucc down =>
      simp only [scaleDown, Nat.pow_eq, zpow_negSucc]
      push_cast
      field_simp

/-- Whether a quotient has 53 bits before the point in units of `2 ^ exponent`, or fewer at the least
exponent. -/
structure Scales (q : ℚ) (exponent : Int) : Prop where
  least : -1074 ≤ exponent
  below : q < 2 ^ (exponent + 53)
  long : exponent = -1074 ∨ 2 ^ (exponent + 52) ≤ q

theorem le_of_two_zpow_lt {low high : Int} {q : ℚ} (above : (2 : ℚ) ^ low ≤ q) (below : q < 2 ^ high) :
    low < high :=
  (zpow_lt_zpow_iff_right₀ (by norm_num : (1 : ℚ) < 2)).mp (lt_of_le_of_lt above below)

theorem Scales.le {q : ℚ} {exponent other : Int} (one : Scales q exponent) (two : Scales q other) :
    other ≤ exponent := by
  rcases two.long with lowest | long
  · have least := one.least
    omega
  · have ordered := le_of_two_zpow_lt long one.below
    omega

theorem Scales.unique {q : ℚ} {exponent other : Int} (one : Scales q exponent) (two : Scales q other) :
    exponent = other :=
  Int.le_antisymm (two.le one) (one.le two)

variable {num den : Nat}

theorem log2_bounds (nonzero : num ≠ 0) (positive : 0 < den) :
    (2 : ℚ) ^ ((num.log2 : Int) - den.log2 - 1) < num / den ∧
      (num / den : ℚ) < 2 ^ ((num.log2 : Int) - den.log2 + 1) := by
  have scale : (0 : ℚ) < den := by exact_mod_cast positive
  have numLow : (2 : ℚ) ^ (num.log2 : Int) ≤ num := by exact_mod_cast Nat.log2_self_le nonzero
  have numHigh : (num : ℚ) < 2 ^ ((num.log2 : Int) + 1) := by exact_mod_cast Nat.lt_log2_self
  have denLow : (2 : ℚ) ^ (den.log2 : Int) ≤ den := by
    exact_mod_cast Nat.log2_self_le (Nat.pos_iff_ne_zero.mp positive)
  have denHigh : (den : ℚ) < 2 ^ ((den.log2 : Int) + 1) := by exact_mod_cast Nat.lt_log2_self
  constructor
  · rw [lt_div_iff₀ scale]
    calc (2 : ℚ) ^ ((num.log2 : Int) - den.log2 - 1) * den
        < 2 ^ ((num.log2 : Int) - den.log2 - 1) * 2 ^ ((den.log2 : Int) + 1) :=
          mul_lt_mul_of_pos_left denHigh (by positivity)
      _ = 2 ^ (num.log2 : Int) := by
          rw [← zpow_add₀ (by norm_num)]
          congr 1
          ring
      _ ≤ num := numLow
  · rw [div_lt_iff₀ scale]
    calc (num : ℚ) < 2 ^ ((num.log2 : Int) + 1) := numHigh
      _ = 2 ^ ((num.log2 : Int) - den.log2 + 1) * 2 ^ (den.log2 : Int) := by
          rw [← zpow_add₀ (by norm_num)]
          congr 1
          ring
      _ ≤ 2 ^ ((num.log2 : Int) - den.log2 + 1) * den :=
          mul_le_mul_of_nonneg_left denLow (by positivity)

/-- A count of whole units says how large the quotient is. -/
theorem scaleDown_div_lt_iff (positive : 0 < den) (exponent : Int) (bits : Nat) :
    (scaleDown num den exponent).1 / (scaleDown num den exponent).2 < Nat.pow 2 bits ↔
      (num / den : ℚ) < 2 ^ (exponent + bits) := by
  have lower := scaleDown_pos positive num exponent
  have scale : (0 : ℚ) < (scaleDown num den exponent).2 := by exact_mod_cast lower
  have unit : (0 : ℚ) < 2 ^ exponent := by positivity
  rw [Nat.div_lt_iff_lt_mul lower, Nat.pow_eq, zpow_add₀ (by norm_num), zpow_natCast, mul_comm (2 ^ exponent),
    ← div_lt_iff₀ unit, ← scaleDown_div, div_lt_iff₀ scale]
  exact_mod_cast Iff.rfl

/-- Rounding counts the quotient in units of the exponent that scales it. -/
theorem exists_ofRatio (nonzero : num ≠ 0) (positive : 0 < den) :
    ∃ exponent, Scales (num / den) exponent ∧ ∀ negative, ofRatio negative num den =
      ofRounded negative (divideToEven (scaleDown num den exponent).1 (scaleDown num den exponent).2)
        exponent := by
  obtain ⟨low, high⟩ := log2_bounds nonzero positive
  -- The bit lengths give the exponent or one too large, and a look at the first quotient tells which.
  obtain ⟨guess, guess_eq⟩ : ∃ guess : Int, guess = max ((num.log2 : Int) - den.log2 - 52) (-1074) := ⟨_, rfl⟩
  have below : (num / den : ℚ) < 2 ^ (guess + 53) :=
    lt_of_lt_of_le high (zpow_le_zpow_right₀ (by norm_num) (by omega))
  have above : guess = -1074 ∨ -1074 < guess ∧ (2 : ℚ) ^ (guess + 51) < num / den := by
    by_cases lowest : guess = -1074
    · exact .inl lowest
    · refine .inr ⟨by omega, lt_of_le_of_lt (zpow_le_zpow_right₀ (by norm_num) ?_) low⟩
      omega
  have rounded : ∀ negative, ofRatio negative num den =
      let exponent := if (scaleDown num den guess).1 / (scaleDown num den guess).2 < Nat.pow 2 52
        then max (guess - 1) (-1074) else guess
      ofRounded negative (divideToEven (scaleDown num den exponent).1 (scaleDown num den exponent).2)
        exponent := by
    intro negative
    rw [ofRatio, if_neg nonzero, guess_eq]
  refine ⟨_, ?_, rounded⟩
  by_cases short : (scaleDown num den guess).1 / (scaleDown num den guess).2 < Nat.pow 2 52
  · have less := (scaleDown_div_lt_iff positive guess 52).mp short
    rw [if_pos short]
    rcases above with lowest | ⟨higher, long⟩
    · exact ⟨by omega, lt_of_lt_of_le below (zpow_le_zpow_right₀ (by norm_num) (by omega)), .inl (by omega)⟩
    · rw [max_eq_left (by omega)]
      refine ⟨by omega, ?_, .inr ?_⟩
      · rwa [show guess - 1 + 53 = guess + (52 : Nat) by omega]
      · rw [show guess - 1 + 52 = guess + 51 by omega]
        exact le_of_lt long
  · have more := (scaleDown_div_lt_iff positive guess 52).not.mp short
    rw [if_neg short]
    exact ⟨by omega, below, .inr (not_lt.mp more)⟩

theorem ofRatio_congr {other lower : Nat} (positive : 0 < den) (alsoPositive : 0 < lower)
    (same : (num / den : ℚ) = other / lower) (negative : Bool) :
    ofRatio negative num den = ofRatio negative other lower := by
  have none : num = 0 ↔ other = 0 := by
    have scale : (den : ℚ) ≠ 0 := by positivity
    have otherScale : (lower : ℚ) ≠ 0 := by positivity
    constructor
    · rintro rfl
      simpa [otherScale] using same.symm
    · rintro rfl
      simpa [scale] using same
  by_cases zero : num = 0
  · rw [ofRatio, if_pos zero, ofRatio, if_pos (none.mp zero)]
  · obtain ⟨exponent, scales, rounded⟩ := exists_ofRatio zero positive
    obtain ⟨exponent', scales', rounded'⟩ := exists_ofRatio (zero ∘ none.mpr) alsoPositive
    rw [same] at scales
    -- Only one exponent scales a quotient, however it is written.
    obtain rfl := scales.unique scales'
    rw [rounded, rounded']
    congr 1
    apply divideToEven_congr (scaleDown_pos positive _ _) (scaleDown_pos alsoPositive _ _)
    have units : ((scaleDown num den exponent).1 : ℚ) / (scaleDown num den exponent).2 =
        (scaleDown other lower exponent).1 / (scaleDown other lower exponent).2 := by
      rw [scaleDown_div, scaleDown_div, same]
    have scale := scaleDown_pos positive num exponent
    have otherScale := scaleDown_pos alsoPositive other exponent
    rw [div_eq_div_iff (by positivity) (by positivity)] at units
    exact_mod_cast units

/-! ### Finite results -/

theorem ofRounded_of_canonical {mantissa : Nat} {exponent : Int} (negative : Bool)
    (canonical : Canonical mantissa exponent) :
    ofRounded negative mantissa exponent = .finite ⟨negative, mantissa, exponent, canonical⟩ := by
  have short : mantissa ≠ Nat.pow 2 53 := by
    have below := canonical.1
    omega
  simp only [ofRounded, if_neg short, dif_pos canonical]

theorem ofRounded_carry {exponent : Int} (negative : Bool) (canonical : Canonical (Nat.pow 2 52) (exponent + 1)) :
    ofRounded negative (Nat.pow 2 53) exponent =
      .finite ⟨negative, Nat.pow 2 52, exponent + 1, canonical⟩ := by
  simp only [ofRounded, ↓reduceIte, dif_pos canonical]

theorem two_zpow_add (exponent more : Int) : (2 : ℚ) ^ (exponent + more) = 2 ^ more * 2 ^ exponent := by
  rw [zpow_add₀ (by norm_num), mul_comm]

/-- Where numbers end: halfway between the largest number and the next power of two. -/
def threshold : ℚ := (2 ^ 53 - 1 / 2) * 2 ^ (971 : Int)

theorem exists_ofRatio_eq_finite (positive : 0 < den) (negative : Bool)
    (below : (num / den : ℚ) < threshold) : ∃ x, ofRatio negative num den = .finite x := by
  by_cases zero : num = 0
  · rw [ofRatio, if_pos zero]
    exact ⟨_, rfl⟩
  · obtain ⟨exponent, scales, rounded⟩ := exists_ofRatio zero positive
    rw [rounded]
    have unit : (0 : ℚ) < 2 ^ exponent := by positivity
    have units_eq := scaleDown_div num den exponent
    have lower := scaleDown_pos positive num exponent
    generalize (scaleDown num den exponent).1 = upper at *
    generalize (scaleDown num den exponent).2 = lowest at *
    have least := scales.least
    have most : exponent ≤ 971 := by
      rcases scales.long with lowest | long
      · omega
      · have top : threshold < (2 : ℚ) ^ ((971 : Int) + 53) := by
          rw [threshold, two_zpow_add]
          exact mul_lt_mul_of_pos_right (by norm_num) (by positivity)
        have ordered := le_of_two_zpow_lt long (below.trans top)
        omega
    have small : (upper / lowest : ℚ) < 2 ^ 53 := by
      rw [units_eq, div_lt_iff₀ unit, ← zpow_natCast, ← two_zpow_add]
      exact scales.below
    have bounded : divideToEven upper lowest ≤ Nat.pow 2 53 :=
      divideToEven_le lower (by push_cast; linarith)
    -- A count that is carried over needs a higher exponent, which the threshold leaves room for.
    by_cases carry : divideToEven upper lowest = Nat.pow 2 53
    · have higher : exponent ≠ 971 := by
        rintro rfl
        have fits : divideToEven upper lowest ≤ 2 ^ 53 - 1 := by
          apply divideToEven_le lower
          have half : ((2 ^ 53 - 1 : Nat) : ℚ) + 1 / 2 = 2 ^ 53 - 1 / 2 := by norm_num
          rw [units_eq, div_lt_iff₀ unit, half]
          exact below
        rw [carry, Nat.pow_eq] at fits
        omega
      rw [carry]
      exact ⟨_, ofRounded_carry negative ⟨by decide, by omega, by omega, .inr (Nat.le_refl _)⟩⟩
    · refine ⟨_, ofRounded_of_canonical negative ⟨by omega, least, most, ?_⟩⟩
      rcases scales.long with lowest | long
      · exact .inl lowest
      · refine .inr (le_divideToEven lower ?_)
        have large : (2 : ℚ) ^ 52 ≤ upper / lowest := by
          rw [units_eq, le_div_iff₀ unit, ← zpow_natCast, ← two_zpow_add]
          exact long
        push_cast
        linarith

def Finite.size (x : Finite) : ℚ := x.mantissa * 2 ^ x.exponent

theorem Finite.mantissa_le (x : Finite) : (x.mantissa : ℚ) ≤ 2 ^ 53 - 1 := by
  have short : x.mantissa + 1 ≤ 2 ^ 53 := x.canonical.1
  have cast : ((x.mantissa + 1 : Nat) : ℚ) ≤ (2 ^ 53 : Nat) := by exact_mod_cast short
  push_cast at cast
  linarith

/-- A count of units that fits into a number is rounded to the nearest integer. -/
theorem ofRatio_of_units {exponent : Int} {units : ℚ} (positive : 0 < den)
    (quotient : (num / den : ℚ) = units * 2 ^ exponent) (some : 0 < units) (least : -1074 ≤ exponent)
    (short : units < 2 ^ 53) (long : exponent = -1074 ∨ 2 ^ 52 ≤ units) {count : Nat}
    (above : (count : ℚ) - 1 / 2 < units) (below : units < count + 1 / 2) (negative : Bool) :
    ofRatio negative num den = ofRounded negative count exponent := by
  have unit : (0 : ℚ) < 2 ^ exponent := by positivity
  have nonzero : num ≠ 0 := by
    rintro rfl
    have product := mul_pos some unit
    rw [← quotient] at product
    simp at product
  have scales : Scales (num / den) exponent := by
    refine ⟨least, ?_, long.imp_right fun many => ?_⟩
    · rw [quotient, two_zpow_add]
      exact mul_lt_mul_of_pos_right (by exact_mod_cast short) unit
    · rw [quotient, two_zpow_add]
      exact mul_le_mul_of_nonneg_right (by exact_mod_cast many) unit.le
  obtain ⟨chosen, scaled, rounded⟩ := exists_ofRatio nonzero positive
  obtain rfl := scaled.unique scales
  have lower := scaleDown_pos positive num chosen
  have counted : ((scaleDown num den chosen).1 / (scaleDown num den chosen).2 : ℚ) = units := by
    rw [scaleDown_div, quotient, mul_div_assoc, div_self unit.ne', mul_one]
  have nearest : divideToEven (scaleDown num den chosen).1 (scaleDown num den chosen).2 = count :=
    Nat.le_antisymm (divideToEven_le lower (by rwa [counted])) (le_divideToEven lower (by rwa [counted]))
  rw [rounded, nearest]

/-- A quotient that differs from a number in the seventeenth digit only is rounded to that number. -/
theorem ofRatio_of_near {x : Finite} (nonzero : x.mantissa ≠ 0) (positive : 0 < den)
    (near : |(num / den : ℚ) - x.size| * (2 * 10 ^ 16) ≤ x.size) :
    ofRatio x.negative num den = .finite x := by
  obtain ⟨_, least, most, long⟩ := x.canonical
  have unit : (0 : ℚ) < 2 ^ x.exponent := by positivity
  have mantissaShort := x.mantissa_le
  have one : (1 : ℚ) ≤ x.mantissa := by exact_mod_cast Nat.pos_of_ne_zero nonzero
  obtain ⟨units, quotient⟩ : ∃ units : ℚ, (num / den : ℚ) = units * 2 ^ x.exponent :=
    ⟨num / den / 2 ^ x.exponent, by field_simp⟩
  have close : |units - x.mantissa| * (2 * 10 ^ 16) ≤ x.mantissa := by
    rw [quotient, Finite.size, ← sub_mul, abs_mul, abs_of_pos unit, mul_right_comm] at near
    exact le_of_mul_le_mul_right near unit
  have half : |units - x.mantissa| < 1 / 2 := by linarith
  obtain ⟨above, below⟩ := abs_lt.mp half
  by_cases full : x.exponent = -1074 ∨ 2 ^ 52 ≤ units
  · have rounded : ofRatio x.negative num den = ofRounded x.negative x.mantissa x.exponent :=
      ofRatio_of_units positive quotient (by linarith) least (by linarith) full (by linarith) (by linarith) _
    rw [rounded]
    exact ofRounded_of_canonical x.negative x.canonical
  · -- Just below a power of two the quotient has one bit more, and rounding carries it over.
    obtain ⟨notLeast, few⟩ := not_or.mp full
    have few := not_le.mp few
    have long : Nat.pow 2 52 ≤ x.mantissa := long.resolve_left notLeast
    have power : x.mantissa = Nat.pow 2 52 := by
      have most : (x.mantissa : ℚ) < (Nat.pow 2 52 + 1 : Nat) := by
        push_cast [Nat.pow_eq]
        linarith
      have most : x.mantissa < Nat.pow 2 52 + 1 := by exact_mod_cast most
      omega
    have value : (x.mantissa : ℚ) = 2 ^ 52 := by
      rw [power]
      norm_num
    have quarter : |units - x.mantissa| < 1 / 4 := by linarith
    obtain ⟨above, _⟩ := abs_lt.mp quarter
    have carried : (num / den : ℚ) = 2 * units * 2 ^ (x.exponent - 1) := by
      rw [quotient, sub_eq_add_neg, two_zpow_add]
      norm_num
      ring
    have rounded : ofRatio x.negative num den = ofRounded x.negative (Nat.pow 2 53) (x.exponent - 1) :=
      ofRatio_of_units positive carried (by linarith) (by omega) (by linarith) (.inr (by linarith))
        (by push_cast [Nat.pow_eq]; linarith) (by push_cast [Nat.pow_eq]; linarith) _
    have canonical : Canonical (Nat.pow 2 52) (x.exponent - 1 + 1) := by
      rw [Int.sub_add_cancel, ← power]
      exact x.canonical
    rw [rounded, ofRounded_carry x.negative canonical]
    congr
    · exact power.symm
    · omega

end Binary64

end TreeExport
