import TreeExport.Binary64.Rounding
import TreeExport.Proofs.Binary64.Nearest

/-!
Sums and roundings of finite numbers. A finite number stays finite when a small one is added, so only numbers
that are not finite have no nearest integer.
-/

namespace TreeExport

namespace Binary64

/-- The largest number lies half a unit below the threshold. -/
theorem Finite.size_add_two_lt (x : Finite) : x.size + 2 < threshold := by
  have unit : (2 : ℚ) ^ x.exponent ≤ 2 ^ (971 : Int) := zpow_le_zpow_right₀ (by norm_num) x.canonical.2.2.1
  have wide : (2 : ℚ) ^ (3 : Int) ≤ 2 ^ (971 : Int) := zpow_le_zpow_right₀ (by norm_num) (by norm_num)
  have positive : (0 : ℚ) < 2 ^ x.exponent := by positivity
  rw [threshold, Finite.size]
  generalize (2 : ℚ) ^ (971 : Int) = top at unit wide ⊢
  generalize (2 : ℚ) ^ x.exponent = scale at unit positive ⊢
  norm_num at wide
  nlinarith [x.mantissa_le, mul_le_mul x.mantissa_le unit positive.le (by norm_num)]

theorem natAbs_inUnits {x : Finite} {unit : Int} (fine : unit ≤ x.exponent) :
    ((x.inUnits unit).natAbs : ℚ) * 2 ^ unit = x.size := by
  have count : (x.inUnits unit).natAbs = x.mantissa * 2 ^ (x.exponent - unit).toNat := by
    unfold Finite.inUnits
    dsimp only [Nat.pow_eq]
    split
    · omega
    · omega
  have steps : (2 : ℚ) ^ (x.exponent - unit).toNat = 2 ^ (x.exponent - unit) := by
    rw [← zpow_natCast, Int.toNat_of_nonneg (by omega)]
  rw [count, Finite.size]
  push_cast
  rw [steps, mul_assoc, ← zpow_add₀ (by norm_num), Int.sub_add_cancel]

theorem exists_ofUnits_eq_finite {units unit : Int}
    (below : (units.natAbs : ℚ) * 2 ^ unit < threshold) (zeroNegative : Bool) :
    ∃ x, ofUnits zeroNegative units unit = .finite x := by
  unfold ofUnits
  split
  · exact ⟨_, rfl⟩
  · cases unit with
    | ofNat up =>
        apply exists_ofRatio_eq_finite Nat.one_pos
        push_cast [Nat.pow_eq]
        rw [div_one]
        exact below
    | negSucc down =>
        apply exists_ofRatio_eq_finite (Nat.two_pow_pos _)
        rw [zpow_negSucc, ← div_eq_mul_inv] at below
        push_cast [Nat.pow_eq]
        exact below

theorem exists_add_eq_finite (x : Finite) {y : Finite} (small : y.size ≤ 2) :
    ∃ z, (.finite x : Binary64) + .finite y = .finite z := by
  apply exists_ofUnits_eq_finite
  have unit : (0 : ℚ) < 2 ^ min x.exponent y.exponent := by positivity
  have parts : ((x.inUnits (min x.exponent y.exponent) + y.inUnits (min x.exponent y.exponent)).natAbs : ℚ) ≤
      (x.inUnits (min x.exponent y.exponent)).natAbs + (y.inUnits (min x.exponent y.exponent)).natAbs := by
    exact_mod_cast Int.natAbs_add_le _ _
  calc _ ≤ ((x.inUnits (min x.exponent y.exponent)).natAbs +
        (y.inUnits (min x.exponent y.exponent)).natAbs : ℚ) * 2 ^ min x.exponent y.exponent :=
        mul_le_mul_of_nonneg_right parts unit.le
    _ = x.size + y.size := by
        rw [add_mul, natAbs_inUnits (min_le_left _ _), natAbs_inUnits (min_le_right _ _)]
    _ ≤ x.size + 2 := by linarith
    _ < threshold := x.size_add_two_lt

theorem exists_roundHalfUp_of_finite (x : Finite) : ∃ n, roundHalfUp (.finite x) = .ok n := by
  have half_eq : half = .finite ⟨false, 2 ^ 52, -53, by decide⟩ := by decide +kernel
  have small : Finite.size ⟨false, 2 ^ 52, -53, by decide⟩ ≤ 2 := by
    rw [Finite.size]
    norm_num
  obtain ⟨z, sum⟩ := exists_add_eq_finite x small
  rw [roundHalfUp, half_eq, sum]
  exact ⟨z.floor, rfl⟩

theorem roundHalfUp_infinite (negative : Bool) : roundHalfUp (.infinite negative) = .error .infinite := by
  cases negative <;> rfl

theorem Finite.magnitude_lt (x : Finite) {top : Nat} (high : 971 ≤ top) : x.magnitude.1 < 2 ^ (53 + top) := by
  obtain ⟨few, _, low, _⟩ := x.canonical
  have few : x.mantissa < 2 ^ 53 := few
  unfold magnitude
  split
  · rename_i up isUp
    have fits : up ≤ top := by
      rw [isUp] at low
      exact Nat.le_trans (Int.ofNat_le.mp low) high
    calc x.mantissa * 2 ^ up < 2 ^ 53 * 2 ^ up := Nat.mul_lt_mul_of_pos_right few (Nat.two_pow_pos up)
      _ ≤ 2 ^ 53 * 2 ^ top := Nat.mul_le_mul_left _ (Nat.pow_le_pow_right (by decide) fits)
      _ = 2 ^ (53 + top) := (Nat.pow_add 2 53 top).symm
  · calc x.mantissa / _ ≤ x.mantissa := Nat.div_le_self _ _
      _ < 2 ^ 53 := few
      _ ≤ 2 ^ (53 + top) := Nat.pow_le_pow_right (by decide) (Nat.le_add_right 53 top)

theorem Finite.natAbs_floor_le (x : Finite) : x.floor.natAbs ≤ x.magnitude.1 + 1 := by
  unfold floor
  dsimp only
  split
  · split <;> omega
  · omega

theorem natAbs_lt_of_roundHalfUp {value : Binary64} {n : Int} (near : roundHalfUp value = .ok n)
    {length : Nat} (wide : 512 ≤ length) : n.natAbs < 10 ^ length := by
  rw [roundHalfUp] at near
  cases sum : value + half with
  | nan => rw [sum] at near; exact absurd near nofun
  | infinite negative => rw [sum] at near; exact absurd near nofun
  | finite x =>
      rw [sum] at near
      obtain rfl := Except.ok.inj near
      obtain ⟨top, split⟩ : ∃ top, 2 * length = 53 + top := ⟨2 * length - 53, by omega⟩
      calc x.floor.natAbs ≤ x.magnitude.1 + 1 := x.natAbs_floor_le
        _ ≤ 2 ^ (53 + top) := x.magnitude_lt (by omega)
        _ = (2 ^ 2) ^ length := by rw [← split, Nat.pow_mul]
        _ < 10 ^ length := Nat.pow_lt_pow_left (by decide) (by omega)

end Binary64

end TreeExport
