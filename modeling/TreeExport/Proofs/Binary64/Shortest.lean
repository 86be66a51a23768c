import TreeExport.Binary64.Shortest
import TreeExport.Proofs.Binary64.Nearest

/-!
The shortest decimal of a number is read as that number. On the grid of seventeen digits the nearest decimal
always reads back, so one is found; and moving zeros of a coefficient into the power changes nothing.
-/

namespace TreeExport

namespace Binary64

/-! ### Decimals as quotients -/

section Decimals

variable {coefficient : Nat} (nonzero : coefficient ≠ 0) (negative : Bool) (power : Int)
include nonzero

theorem ofDecimal_of_large (large : 400 < (Nat.toDigits 10 coefficient).length + power) :
    ofDecimal negative coefficient power = .infinite negative := by
  rw [ofDecimal.eq_def, if_neg nonzero]
  dsimp only
  rw [if_pos large]

theorem ofDecimal_of_small (small : (Nat.toDigits 10 coefficient).length + power < -400) :
    ofDecimal negative coefficient power = zero negative := by
  rw [ofDecimal.eq_def, if_neg nonzero]
  dsimp only
  rw [if_neg (by omega), if_pos small]

omit negative in
theorem exists_ofDecimal_eq_ofRatio (notLarge : (Nat.toDigits 10 coefficient).length + power ≤ 400)
    (notSmall : -400 ≤ (Nat.toDigits 10 coefficient).length + power) :
    ∃ num den : Nat, 0 < den ∧ (num / den : ℚ) = coefficient * 10 ^ power ∧
      ∀ negative, ofDecimal negative coefficient power = ofRatio negative num den := by
  cases power with
  | ofNat up =>
      refine ⟨coefficient * Nat.pow 10 up, 1, Nat.one_pos, ?_, fun negative => ?_⟩
      · push_cast [Nat.pow_eq]
        simp
      · rw [ofDecimal.eq_def, if_neg nonzero]
        dsimp only
        rw [if_neg (by omega), if_neg (by omega)]
  | negSucc down =>
      refine ⟨coefficient, Nat.pow 10 (down + 1), Nat.pow_pos (by omega), ?_, fun negative => ?_⟩
      · push_cast [Nat.pow_eq, zpow_negSucc]
        rw [div_eq_mul_inv]
      · rw [ofDecimal.eq_def, if_neg nonzero]
        dsimp only
        rw [if_neg (by omega), if_neg (by omega)]

omit negative power in
theorem length_toDigits_mul_ten :
    (Nat.toDigits 10 (coefficient * 10)).length = (Nat.toDigits 10 coefficient).length + 1 := by
  rw [Nat.toDigits_of_base_le (by omega) (by omega), Nat.mul_div_cancel _ (by omega), List.length_append,
    List.length_singleton]

end Decimals

theorem ofDecimal_mul_ten (negative : Bool) (coefficient : Nat) (power : Int) :
    ofDecimal negative (coefficient * 10) power = ofDecimal negative coefficient (power + 1) := by
  by_cases zero : coefficient = 0
  · subst zero
    rfl
  · have digits := length_toDigits_mul_ten zero
    have filled : coefficient * 10 ≠ 0 := by omega
    by_cases large : 400 < (Nat.toDigits 10 coefficient).length + (power + 1)
    · rw [ofDecimal_of_large zero _ _ large, ofDecimal_of_large filled _ _ (by omega)]
    · by_cases small : (Nat.toDigits 10 coefficient).length + (power + 1) < -400
      · rw [ofDecimal_of_small zero _ _ small, ofDecimal_of_small filled _ _ (by omega)]
      · obtain ⟨num, den, positive, value, cut⟩ := exists_ofDecimal_eq_ofRatio filled power (by omega) (by omega)
        obtain ⟨num', den', positive', value', cut'⟩ :=
          exists_ofDecimal_eq_ofRatio zero (power + 1) (by omega) (by omega)
        rw [cut, cut']
        apply ofRatio_congr positive positive'
        rw [value, value', zpow_add₀ (by norm_num)]
        push_cast
        ring

theorem ofDecimal_mul_ten_pow (negative : Bool) (coefficient zeros : Nat) (power : Int) :
    ofDecimal negative (coefficient * 10 ^ zeros) power = ofDecimal negative coefficient (power + zeros) := by
  induction zeros generalizing power with
  | zero => simp
  | succ zeros ih =>
      rw [Nat.pow_succ, ← Nat.mul_assoc, ofDecimal_mul_ten, ih]
      congr 1
      push_cast
      omega

theorem ofDecimal_trim (negative : Bool) (fuel : Nat) (decimal : Decimal) :
    ofDecimal negative (decimal.trim fuel).coefficient (decimal.trim fuel).power =
      ofDecimal negative decimal.coefficient decimal.power := by
  induction fuel generalizing decimal with
  | zero => rfl
  | succ fuel ih =>
      rw [Decimal.trim]
      split
      · rename_i ends
        rw [ih, ← ofDecimal_mul_ten, Nat.div_mul_cancel (Nat.dvd_of_mod_eq_zero ends.1)]
      · rfl

/-! ### Decimals near a number -/

theorem two_zpow_le_ten_zpow (n : Nat) : (2 : ℚ) ^ (3 * (n : Int)) ≤ 10 ^ (n : Int) := by
  rw [zpow_mul, zpow_natCast, zpow_natCast]
  exact pow_le_pow_left₀ (by norm_num) (by norm_num) n

theorem digits_bounds {coefficient : Nat} (nonzero : coefficient ≠ 0) :
    (10 : ℚ) ^ ((Nat.toDigits 10 coefficient).length - 1 : Int) ≤ coefficient ∧
      (coefficient : ℚ) < 10 ^ ((Nat.toDigits 10 coefficient).length : Int) := by
  have filled : 0 < (Nat.toDigits 10 coefficient).length := List.length_pos_iff.mpr Nat.toDigits_ne_nil
  constructor
  · by_cases single : (Nat.toDigits 10 coefficient).length = 1
    · rw [single]
      norm_num
      omega
    · have long := (Nat.length_toDigits_le_iff (b := 10) (n := coefficient) (by omega)
        (k := (Nat.toDigits 10 coefficient).length - 1) (by omega)).not.mp (by omega)
      have cast : ((10 ^ ((Nat.toDigits 10 coefficient).length - 1) : Nat) : ℚ) ≤ coefficient := by
        exact_mod_cast not_lt.mp long
      have exponent : ((Nat.toDigits 10 coefficient).length - 1 : Int) =
          ((Nat.toDigits 10 coefficient).length - 1 : Nat) := by omega
      rw [exponent, zpow_natCast]
      exact_mod_cast cast
  · have short := (Nat.length_toDigits_le_iff (b := 10) (n := coefficient) (by omega) filled).mp (Nat.le_refl _)
    rw [zpow_natCast]
    exact_mod_cast short

theorem Finite.size_bounds {x : Finite} (nonzero : x.mantissa ≠ 0) :
    (2 : ℚ) ^ (-1074 : Int) ≤ x.size ∧ x.size < 2 ^ (1024 : Int) := by
  obtain ⟨_, least, most, _⟩ := x.canonical
  have one : (1 : ℚ) ≤ x.mantissa := by exact_mod_cast Nat.pos_of_ne_zero nonzero
  have low : (2 : ℚ) ^ (-1074 : Int) ≤ 2 ^ x.exponent := zpow_le_zpow_right₀ (by norm_num) least
  have high : (2 : ℚ) ^ (x.exponent + 53) ≤ 2 ^ (1024 : Int) := zpow_le_zpow_right₀ (by norm_num) (by omega)
  have unit : (0 : ℚ) < 2 ^ x.exponent := by positivity
  have short := x.mantissa_le
  rw [Finite.size]
  constructor
  · nlinarith
  · apply lt_of_lt_of_le _ high
    rw [two_zpow_add]
    exact mul_lt_mul_of_pos_right (by norm_num; linarith) unit

theorem mul_ten_zpow_bounds {coefficient : Nat} (nonzero : coefficient ≠ 0) (power : Int) :
    (10 : ℚ) ^ ((Nat.toDigits 10 coefficient).length + power - 1) ≤ coefficient * 10 ^ power ∧
      (coefficient * 10 ^ power : ℚ) < 10 ^ ((Nat.toDigits 10 coefficient).length + power) := by
  obtain ⟨least, most⟩ := digits_bounds nonzero
  have unit : (0 : ℚ) < 10 ^ power := by positivity
  constructor
  · calc (10 : ℚ) ^ ((Nat.toDigits 10 coefficient).length + power - 1)
        = 10 ^ ((Nat.toDigits 10 coefficient).length - 1 : Int) * 10 ^ power := by
          rw [← zpow_add₀ (by norm_num)]
          congr 1
          omega
      _ ≤ coefficient * 10 ^ power := mul_le_mul_of_nonneg_right least unit.le
  · calc (coefficient * 10 ^ power : ℚ) < 10 ^ ((Nat.toDigits 10 coefficient).length : Int) * 10 ^ power :=
          mul_lt_mul_of_pos_right most unit
      _ = 10 ^ ((Nat.toDigits 10 coefficient).length + power) := (zpow_add₀ (by norm_num) _ _).symm

theorem length_add_le_of_lt {coefficient : Nat} (nonzero : coefficient ≠ 0) {power : Int}
    (below : (coefficient * 10 ^ power : ℚ) < 2 * 2 ^ (1024 : Int)) :
    (Nat.toDigits 10 coefficient).length + power ≤ 400 := by
  by_contra large
  have value : (10 : ℚ) ^ (400 : Int) ≤ coefficient * 10 ^ power :=
    (zpow_le_zpow_right₀ (by norm_num) (by omega)).trans (mul_ten_zpow_bounds nonzero power).1
  have wide : (2 : ℚ) * 2 ^ (1024 : Int) ≤ 10 ^ (400 : Int) := by
    rw [← zpow_one_add₀ (by norm_num)]
    exact (zpow_le_zpow_right₀ (by norm_num) (by norm_num)).trans (two_zpow_le_ten_zpow 400)
  exact absurd (wide.trans value) (not_le.mpr below)

theorem le_length_add_of_le {coefficient : Nat} (nonzero : coefficient ≠ 0) {power : Int}
    (above : (2 : ℚ) ^ (-1074 : Int) ≤ 2 * (coefficient * 10 ^ power)) :
    -400 ≤ (Nat.toDigits 10 coefficient).length + power := by
  by_contra small
  have value : (coefficient * 10 ^ power : ℚ) < 10 ^ (-400 : Int) :=
    lt_of_lt_of_le (mul_ten_zpow_bounds nonzero power).2 (zpow_le_zpow_right₀ (by norm_num) (by omega))
  have wide : (10 : ℚ) ^ (-400 : Int) ≤ 2 ^ (-1200 : Int) := by
    rw [zpow_neg, zpow_neg]
    exact inv_anti₀ (by positivity) (two_zpow_le_ten_zpow 400)
  have step : (2 : ℚ) * 2 ^ (-1200 : Int) ≤ 2 ^ (-1074 : Int) := by
    rw [← zpow_one_add₀ (by norm_num)]
    exact zpow_le_zpow_right₀ (by norm_num) (by norm_num)
  generalize (2 : ℚ) ^ (-1074 : Int) = bottom at above step
  generalize (2 : ℚ) ^ (-1200 : Int) = tiny at wide step
  linarith

/-- A decimal that differs from a number in the seventeenth digit only is read as that number. The digits are
few enough for the quotient to be computed, since numbers lie between `10 ^ -400` and `10 ^ 400`. -/
theorem ofDecimal_of_near {x : Finite} (filled : x.mantissa ≠ 0) {coefficient : Nat} {power : Int}
    (near : |(coefficient * 10 ^ power : ℚ) - x.size| * (2 * 10 ^ 16) ≤ x.size) :
    ofDecimal x.negative coefficient power = .finite x := by
  obtain ⟨low, high⟩ := Finite.size_bounds filled
  have positive : (0 : ℚ) < x.size := lt_of_lt_of_le (by positivity) low
  have half : |(coefficient * 10 ^ power : ℚ) - x.size| < x.size / 2 := by linarith
  obtain ⟨above, below⟩ := abs_lt.mp half
  have nonzero : coefficient ≠ 0 := by
    rintro rfl
    simp only [Nat.cast_zero, zero_mul] at above
    linarith
  have notLarge : (Nat.toDigits 10 coefficient).length + power ≤ 400 := by
    apply length_add_le_of_lt nonzero
    generalize (2 : ℚ) ^ (1024 : Int) = top at high ⊢
    linarith
  have notSmall : -400 ≤ (Nat.toDigits 10 coefficient).length + power := by
    apply le_length_add_of_le nonzero
    generalize (2 : ℚ) ^ (-1074 : Int) = bottom at low ⊢
    linarith
  obtain ⟨num, den, fits, value, read⟩ := exists_ofDecimal_eq_ofRatio nonzero power notLarge notSmall
  rw [read]
  apply ofRatio_of_near filled fits
  rw [value]
  exact near

/-! ### The search for the shortest decimal -/

theorem scaleDownTen_pos {den : Nat} (positive : 0 < den) (num : Nat) (power : Int) :
    0 < (scaleDownTen num den power).2 := by
  cases power with
  | ofNat up => exact Nat.mul_pos positive (Nat.pow_pos (by omega))
  | negSucc down => exact positive

theorem scaleDownTen_div (num den : Nat) (power : Int) :
    ((scaleDownTen num den power).1 : ℚ) / (scaleDownTen num den power).2 = num / den / 10 ^ power := by
  cases power with
  | ofNat up =>
      simp only [scaleDownTen, Nat.pow_eq, Int.ofNat_eq_natCast, zpow_natCast]
      push_cast
      rw [div_div]
  | negSucc down =>
      simp only [scaleDownTen, Nat.pow_eq, zpow_negSucc]
      push_cast
      field_simp

theorem ofDecimal_of_onGrid? {x : Finite} {num den : Nat} {power : Int} {decimal : Decimal}
    (found : onGrid? x num den power = some decimal) :
    ofDecimal x.negative decimal.coefficient decimal.power = .finite x := by
  have tried : ∃ first second : Nat,
      (if ofDecimal x.negative first power == .finite x then some ⟨first, power⟩
        else if ofDecimal x.negative second power == .finite x then some ⟨second, power⟩
        else none) = some decimal := ⟨_, _, found⟩
  obtain ⟨first, second, tried⟩ := tried
  split at tried
  · rename_i reads
    obtain rfl := Option.some.inj tried
    exact eq_of_beq reads
  · split at tried
    · rename_i reads
      obtain rfl := Option.some.inj tried
      exact eq_of_beq reads
    · simp at tried

theorem divideToEven_eq_ite (num den : Nat) : divideToEven num den =
    if (2 * (num % den) < den || (2 * (num % den) == den && num / den % 2 == 0)) = true then num / den
    else num / den + 1 := by
  simp only [divideToEven, Bool.or_eq_true, Bool.and_eq_true, decide_eq_true_eq, beq_iff_eq]
  split
  · rename_i below
    rw [if_pos (.inl below)]
  · split
    · rw [if_neg (by omega)]
    · split
      · rw [if_pos (by omega)]
      · rw [if_neg (by omega)]

/-- The first decimal that is tried on a grid is the nearest one. -/
theorem exists_onGrid?_eq_some {x : Finite} {num den : Nat} {power : Int}
    (reads : ofDecimal x.negative
      (divideToEven (scaleDownTen num den power).1 (scaleDownTen num den power).2) power = .finite x) :
    ∃ decimal, onGrid? x num den power = some decimal := by
  rw [divideToEven_eq_ite] at reads
  unfold onGrid?
  generalize scaleDownTen num den power = parts at *
  obtain ⟨upper, lower⟩ := parts
  dsimp only at reads ⊢
  split
  · rename_i lowerFirst
    rw [if_pos lowerFirst] at reads
    exact ⟨_, if_pos (beq_iff_eq.mpr reads)⟩
  · rename_i upperFirst
    rw [if_neg upperFirst] at reads
    exact ⟨_, if_pos (beq_iff_eq.mpr reads)⟩

theorem ten_zpow_leadingPower_le {num den : Nat} (nonzero : num ≠ 0) (positive : 0 < den) :
    (10 : ℚ) ^ leadingPower num den ≤ num / den := by
  have scale : (0 : ℚ) < den := by exact_mod_cast positive
  have some : (0 : ℚ) < num := by exact_mod_cast Nat.pos_of_ne_zero nonzero
  rw [leadingPower]
  split
  · rename_i whole
    have filled : num / den ≠ 0 := (Nat.div_pos whole positive).ne'
    calc (10 : ℚ) ^ ((Nat.toDigits 10 (num / den)).length - 1 : Int) ≤ (num / den : Nat) := (digits_bounds filled).1
      _ ≤ num / den := Nat.cast_div_le
  · rename_i part
    have filled : den / num ≠ 0 := (Nat.div_pos (by omega) (Nat.pos_of_ne_zero nonzero)).ne'
    have count : (den / num + 1 : Nat) ≤ (10 : ℚ) ^ ((Nat.toDigits 10 (den / num)).length : Int) := by
      have below := (digits_bounds filled).2
      rw [zpow_natCast] at below ⊢
      have below : den / num < 10 ^ (Nat.toDigits 10 (den / num)).length := by exact_mod_cast below
      exact_mod_cast below
    have less : (den / num : ℚ) ≤ (den / num + 1 : Nat) := by
      rw [div_le_iff₀ some]
      exact_mod_cast (Nat.lt_mul_of_div_lt (Nat.lt_succ_self _) (Nat.pos_of_ne_zero nonzero)).le
    rw [zpow_neg, inv_le_comm₀ (by positivity) (by positivity), inv_div]
    exact less.trans count

/-- Seventeen digits suffice: half a step of their grid is less than what rounding takes away. -/
theorem exists_onGrid?_seventeen {x : Finite} (filled : x.mantissa ≠ 0) {num den : Nat} (positive : 0 < den)
    (value : (num / den : ℚ) = x.size) :
    ∃ decimal, onGrid? x num den (leadingPower num den - 16) = some decimal := by
  apply exists_onGrid?_eq_some
  apply ofDecimal_of_near filled
  have some : num ≠ 0 := by
    rintro rfl
    have low := (Finite.size_bounds filled).1
    have unit : (0 : ℚ) < 2 ^ (-1074 : Int) := by positivity
    rw [← value, Nat.cast_zero, zero_div] at low
    linarith
  have leading := ten_zpow_leadingPower_le some positive
  have step : (0 : ℚ) < 10 ^ (leadingPower num den - 16) := by positivity
  have close := abs_divideToEven_sub_le (scaleDownTen_pos positive num (leadingPower num den - 16))
    (scaleDownTen num den (leadingPower num den - 16)).1
  rw [scaleDownTen_div, value] at close
  have grid : (10 : ℚ) ^ (leadingPower num den - 16) * 10 ^ 16 = 10 ^ leadingPower num den := by
    rw [← zpow_natCast, ← zpow_add₀ (by norm_num)]
    congr 1
    omega
  -- The count is off by half a step at most, and a step lies sixteen digits below the leading one.
  generalize (divideToEven _ _ : ℚ) = count at close ⊢
  have moved : |count * 10 ^ (leadingPower num den - 16) - x.size| =
      |count - x.size / 10 ^ (leadingPower num den - 16)| * 10 ^ (leadingPower num den - 16) := by
    rw [← abs_of_pos step, ← abs_mul, abs_of_pos step, sub_mul, div_mul_cancel₀ _ step.ne']
  rw [moved]
  rw [value, ← grid] at leading
  nlinarith

theorem Finite.ofDecimal_shortest {x : Finite} (filled : x.mantissa ≠ 0) :
    ofDecimal x.negative x.shortest.coefficient x.shortest.power = .finite x := by
  have positive := scaleDown_pos Nat.one_pos x.mantissa (-x.exponent)
  have value : ((scaleDown x.mantissa 1 (-x.exponent)).1 / (scaleDown x.mantissa 1 (-x.exponent)).2 : ℚ) =
      x.size := by
    rw [scaleDown_div, Finite.size, zpow_neg, Nat.cast_one, div_one, div_inv_eq_mul]
  rw [Finite.shortest]
  dsimp only
  rw [ofDecimal_trim]
  generalize search : List.findSome? _ _ = found
  cases found with
  | none =>
      obtain ⟨decimal, onGrid⟩ := exists_onGrid?_seventeen filled positive value
      have missed := List.findSome?_eq_none_iff.mp search 16 (List.mem_range.mpr (by omega))
      rw [show ((16 : Nat) : Int) = 16 from rfl, onGrid] at missed
      exact absurd missed (Option.some_ne_none decimal)
  | some decimal =>
      obtain ⟨more, _, onGrid⟩ := List.exists_of_findSome?_eq_some search
      exact ofDecimal_of_onGrid? onGrid

theorem Finite.shortest_ne_zero {x : Finite} (filled : x.mantissa ≠ 0) : x.shortest.coefficient ≠ 0 := by
  intro none
  have back := x.ofDecimal_shortest filled
  rw [none] at back
  have same : ⟨x.negative, 0, -1074, by decide⟩ = x := Binary64.finite.inj back
  exact filled (congrArg Finite.mantissa same).symm

end Binary64

end TreeExport
