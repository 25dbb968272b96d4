import SqlMetrics.Proofs.Json.Magnitudes

/-! # How exactly a number is read

The two steps in which a number is read leave it nearly as it is: digits that are cut and three
roundings together change it by no more than `2^-49` of itself (`isNear_of_value?`).  Of the numbers
other than zero, those below `10^-288` are left out, where the doubles get sparse. -/
set_option autoImplicit false
namespace SqlMetrics

namespace Numeral

/-! ## Three roundings -/

section Roundings
variable {first second left right number : ℚ}

def Within (error number value : ℚ) : Prop :=
  (1 - error) * value ≤ number ∧ number ≤ (1 + error) * value

theorem within_of_mul (firstNear : Near first left) (secondNear : Near second right)
    (leftAbove : 0 ≤ left) (rightAbove : 0 ≤ right) (near : Near number (first * second)) :
    Within (4 * roundingUnit) number (left * right) := by
  have unit : (0 : ℚ) ≤ 1 - roundingUnit := by norm_num [roundingUnit]
  have product : 0 ≤ left * right := mul_nonneg leftAbove rightAbove
  have firstLeast : 0 ≤ (1 - roundingUnit) * left := mul_nonneg unit leftAbove
  have secondLeast : 0 ≤ (1 - roundingUnit) * right := mul_nonneg unit rightAbove
  have lower := mul_le_mul firstNear.1 secondNear.1 secondLeast (firstLeast.trans firstNear.1)
  have upper := mul_le_mul firstNear.2 secondNear.2 (secondLeast.trans secondNear.1)
    ((firstLeast.trans firstNear.1).trans firstNear.2)
  constructor
  · calc (1 - 4 * roundingUnit) * (left * right)
        ≤ (1 - roundingUnit) ^ 3 * (left * right) :=
          mul_le_mul_of_nonneg_right (by norm_num [roundingUnit]) product
      _ = (1 - roundingUnit) * ((1 - roundingUnit) * left * ((1 - roundingUnit) * right)) := by
          ring
      _ ≤ (1 - roundingUnit) * (first * second) := mul_le_mul_of_nonneg_left lower unit
      _ ≤ number := near.1
  · calc number ≤ (1 + roundingUnit) * (first * second) := near.2
      _ ≤ (1 + roundingUnit) * ((1 + roundingUnit) * left * ((1 + roundingUnit) * right)) :=
          mul_le_mul_of_nonneg_left upper (by norm_num [roundingUnit])
      _ = (1 + roundingUnit) ^ 3 * (left * right) := by ring
      _ ≤ (1 + 4 * roundingUnit) * (left * right) :=
          mul_le_mul_of_nonneg_right (by norm_num [roundingUnit]) product

theorem quotient_bounds (firstNear : Near first left) (secondNear : Near second right)
    (leftAbove : 0 ≤ left) (rightAbove : 0 < right) :
    (1 - roundingUnit) / (1 + roundingUnit) * (left / right) ≤ first / second ∧
      first / second ≤ (1 + roundingUnit) / (1 - roundingUnit) * (left / right) := by
  have lowUnit : (0 : ℚ) < 1 - roundingUnit := by norm_num [roundingUnit]
  have highUnit : (0 : ℚ) < 1 + roundingUnit := by norm_num [roundingUnit]
  have positive : 0 < second := (mul_pos lowUnit rightAbove).trans_le secondNear.1
  rw [div_mul_div_comm, div_mul_div_comm]
  constructor
  · exact div_le_div₀ ((mul_nonneg lowUnit.le leftAbove).trans firstNear.1) firstNear.1 positive
      secondNear.2
  · exact div_le_div₀ (mul_nonneg highUnit.le leftAbove) firstNear.2
      (mul_pos lowUnit rightAbove) secondNear.1

theorem within_of_div (firstNear : Near first left) (secondNear : Near second right)
    (leftAbove : 0 ≤ left) (rightAbove : 0 < right) (near : Near number (first / second)) :
    Within (4 * roundingUnit) number (left / right) := by
  have ratio : 0 ≤ left / right := div_nonneg leftAbove rightAbove.le
  obtain ⟨lower, upper⟩ := quotient_bounds firstNear secondNear leftAbove rightAbove
  constructor
  · calc (1 - 4 * roundingUnit) * (left / right)
        ≤ (1 - roundingUnit) * ((1 - roundingUnit) / (1 + roundingUnit)) * (left / right) :=
          mul_le_mul_of_nonneg_right (by norm_num [roundingUnit]) ratio
      _ ≤ (1 - roundingUnit) * (first / second) := by
          rw [mul_assoc]
          exact mul_le_mul_of_nonneg_left lower (by norm_num [roundingUnit])
      _ ≤ number := near.1
  · calc number ≤ (1 + roundingUnit) * (first / second) := near.2
      _ ≤ (1 + roundingUnit) * ((1 + roundingUnit) / (1 - roundingUnit)) * (left / right) := by
          rw [mul_assoc]
          exact mul_le_mul_of_nonneg_left upper (by norm_num [roundingUnit])
      _ ≤ (1 + 4 * roundingUnit) * (left / right) :=
          mul_le_mul_of_nonneg_right (by norm_num [roundingUnit]) ratio

end Roundings

/-! ## Scaling -/

section Scaling
variable {value : Float} {count : Nat} {exponent : Int}

theorem within_of_scale?_of_nonneg (filled : 0 < count) (word : count < wordLimit)
    (least : 0 ≤ exponent) (found : scale? (Float.ofNat count) exponent = some value) :
    ∃ number, Denotes value number ∧ Within (4 * roundingUnit) number (count * 10 ^ exponent) := by
  have one : (1 : ℚ) ≤ count := by exact_mod_cast filled
  have few : exponent ≤ 308 := by
    by_contra! great
    obtain ⟨first, leading, near⟩ := exists_ofNat_near filled word
    rw [scale?, if_pos great, leading.beq_zero (by linarith [near.half_le one])] at found
    cases found
  obtain ⟨first, second, leading, firstNear, power, secondNear, firstAbove, secondAbove⟩ :=
    exists_factors filled word least few
  rw [scale?, if_neg (by omega), if_pos least] at found
  rcases leading.mul_near_or_infinite power firstAbove secondAbove with
    ⟨number, denotes, -, near⟩ | ⟨infinite, -⟩
  · simp only [denotes.isInf_eq_false, Bool.false_eq_true, if_false, Option.some.injEq] at found
    rw [← found]
    exact ⟨number, denotes, within_of_mul firstNear secondNear (by linarith) (by positivity) near⟩
  · simp only [infinite, if_true] at found
    cases found

theorem within_of_scale?_of_neg (filled : 0 < count) (word : count < wordLimit)
    (below : exponent < 0) (few : -308 ≤ exponent)
    (coarse : 2 ^ (-1019 : Int) ≤ (count : ℚ) * 10 ^ exponent)
    (found : scale? (Float.ofNat count) exponent = some value) :
    ∃ number, Denotes value number ∧ Within (4 * roundingUnit) number (count * 10 ^ exponent) := by
  obtain ⟨first, second, leading, firstNear, power, secondNear, firstAbove, secondAbove⟩ :=
    exists_factors filled word (show 0 ≤ -exponent by omega) (by omega)
  have positive : (0 : ℚ) < 10 ^ (-exponent) := by positivity
  have ratio : (count : ℚ) * 10 ^ exponent = count / 10 ^ (-exponent) := by
    rw [zpow_neg, div_inv_eq_mul]
  rw [ratio] at coarse ⊢
  obtain ⟨lower, upper⟩ := quotient_bounds firstNear secondNear (Nat.cast_nonneg count) positive
  have coarseQuotient : (2 : ℚ) ^ (-1020 : Int) ≤ first / second := by
    have double : (2 : ℚ) ^ (-1019 : Int) = 2 * 2 ^ (-1020 : Int) := two_zpow_pred _
    have half : 1 / 2 * ((count : ℚ) / 10 ^ (-exponent)) ≤
        (1 - roundingUnit) / (1 + roundingUnit) * (count / 10 ^ (-exponent)) :=
      mul_le_mul_of_nonneg_right (by norm_num [roundingUnit]) (by positivity)
    linarith
  have inside : (1 + roundingUnit) * (first / second) < doublesEnd := by
    have small : (count : ℚ) < 2 ^ (64 : Int) := by exact_mod_cast word
    have room : 2 * (2 : ℚ) ^ (64 : Int) ≤ doublesEnd :=
      calc 2 * (2 : ℚ) ^ (64 : Int) = 2 ^ (65 : Int) := (two_zpow_pred 65).symm
        _ ≤ doublesEnd := zpow_le_zpow_right₀ (by norm_num) (by decide)
    have power : (1 : ℚ) ≤ 10 ^ (-exponent) := one_le_zpow₀ (by norm_num) (by omega)
    have whole : (count : ℚ) / 10 ^ (-exponent) ≤ count := div_le_self (Nat.cast_nonneg count) power
    calc (1 + roundingUnit) * (first / second)
        ≤ (1 + roundingUnit) *
            ((1 + roundingUnit) / (1 - roundingUnit) * (count / 10 ^ (-exponent))) :=
          mul_le_mul_of_nonneg_left upper (by norm_num [roundingUnit])
      _ = (1 + roundingUnit) * ((1 + roundingUnit) / (1 - roundingUnit)) *
            (count / 10 ^ (-exponent)) := by ring
      _ ≤ 2 * (count / 10 ^ (-exponent)) :=
          mul_le_mul_of_nonneg_right (by norm_num [roundingUnit]) (by positivity)
      _ < doublesEnd := by linarith
  obtain ⟨number, denotes, near⟩ :=
    leading.exists_div_near power firstAbove secondAbove coarseQuotient inside
  rw [scale?, if_neg (by omega), if_neg (by omega), if_pos few, Option.some.injEq] at found
  rw [← found]
  exact ⟨number, denotes,
    within_of_div firstNear secondNear (Nat.cast_nonneg count) positive near⟩

theorem denotes_zero_of_scale? (zero : Denotes value 0) {scaled : Float}
    (found : scale? value exponent = some scaled) : Denotes scaled 0 := by
  fun_induction scale? value exponent with
  | case1 value exponent great equal =>
      rwa [← Option.some.inj found]
  | case2 => cases found
  | case3 => cases found
  | case4 value exponent notGreat least product finite =>
      rw [← Option.some.inj found]
      obtain ⟨power, denotes, near⟩ := denotes_tenPower (show exponent.toNat ≤ 308 by omega)
      have above := near.half_le (one_le_pow₀ (by norm_num))
      have result := zero.mul denotes (by linarith)
        (by rw [zero_mul]; exact denotes_zero.isDouble)
      rwa [zero_mul] at result
  | case5 value exponent notGreat below few =>
      rw [← Option.some.inj found]
      obtain ⟨power, denotes, near⟩ := denotes_tenPower (show (-exponent).toNat ≤ 308 by omega)
      exact zero.zero_div denotes (near.half_le (one_le_pow₀ (by norm_num)))
  | case6 value exponent notGreat below few equal =>
      rwa [← Option.some.inj found]
  | case7 value exponent notGreat below few other ih =>
      obtain ⟨power, denotes, near⟩ := denotes_tenPower (le_refl 308)
      exact ih (zero.zero_div denotes (near.half_le (one_le_pow₀ (by norm_num)))) found

end Scaling

/-! ## Numbers -/

section Numbers
variable {numeral : Numeral} {number : JsonNumber} {magnitude : Float} {size : ℚ}

/-- The double has the sign of the number, and its magnitude but for a small part of itself. -/
def IsNear (numeral : Numeral) (value : Float) : Prop :=
  ∃ mantissa exponent, BinaryParts.ofFloat value = .finite numeral.negative mantissa exponent ∧
    |mantissa * 2 ^ exponent - (|numeral.toRat|)| ≤ |numeral.toRat| / 2 ^ 49

theorem ofFloat_withSign (denotes : Denotes magnitude size) (above : 0 ≤ size) (negative : Bool) :
    ∃ mantissa exponent,
      BinaryParts.ofFloat (withSign negative magnitude) = .finite negative mantissa exponent ∧
      (mantissa : ℚ) * 2 ^ exponent = size := by
  cases negative with
  | false =>
      obtain ⟨mantissa, exponent, parts, same⟩ := denotes
      rw [decide_eq_false (not_lt.mpr above)] at parts
      rw [abs_of_nonneg above] at same
      exact ⟨mantissa, exponent, parts, same.symm⟩
  | true =>
      rcases above.eq_or_lt with rfl | positive
      · obtain rfl := denotes.unique denotes_zero
        exact ⟨0, -1074, rfl, by simp⟩
      · obtain ⟨mantissa, exponent, parts, same⟩ := denotes.neg positive.ne'
        rw [decide_eq_true (neg_neg_of_pos positive)] at parts
        rw [abs_neg, abs_of_pos positive] at same
        exact ⟨mantissa, exponent, parts, same.symm⟩

theorem abs_sub_le_of_within {scaled value : ℚ} (near : CutNear scaled value)
    (rounded : Within (4 * roundingUnit) size scaled) :
    |size - value| ≤ value / 2 ^ 49 := by
  simp only [CutNear, Within, cuttingUnit, roundingUnit] at near rounded
  rw [abs_sub_le_iff]
  constructor <;> linarith

theorem exists_size_of_scale? (proper : numeral.Proper)
    (coarse : numeral.toRat = 0 ∨ 10 ^ (-288 : Int) ≤ |numeral.toRat|)
    (found : scale? (Float.ofNat numeral.scaled.1) numeral.scaledExponent = some magnitude) :
    ∃ size, Denotes magnitude size ∧ 0 ≤ size ∧
      |size - (|numeral.toRat|)| ≤ |numeral.toRat| / 2 ^ 49 := by
  have near := scaled_magnitude proper
  rcases coarse with zero | coarse
  · have noDigits : numeral.scaled.1 = 0 := by
      have power : (0 : ℚ) < 10 ^ numeral.scaledExponent := by positivity
      rw [zero, abs_zero] at near
      have product : (numeral.scaled.1 : ℚ) * 10 ^ numeral.scaledExponent ≤ 0 := by
        simpa using near.1
      have digits : (numeral.scaled.1 : ℚ) ≤ 0 := nonpos_of_mul_nonpos_left product power
      exact Nat.le_zero.mp (by exact_mod_cast digits)
    rw [noDigits] at found
    refine ⟨0, denotes_zero_of_scale? (denotes_ofNat (by decide)) found, le_refl _, ?_⟩
    simp [zero]
  · have least : 10 ^ (-289 : Int) ≤ (numeral.scaled.1 : ℚ) * 10 ^ numeral.scaledExponent := by
      have room : (10 : ℚ) ^ (-288 : Int) = 10 ^ (-289 : Int) * 10 := by
        rw [show (-288 : Int) = -289 + 1 from rfl, zpow_add_one₀ (by norm_num)]
      have positive : (0 : ℚ) < 10 ^ (-289 : Int) := by positivity
      have upper := coarse.trans near.2
      rw [room, cuttingUnit] at upper
      linarith
    have filled : 0 < numeral.scaled.1 := by
      refine Nat.pos_of_ne_zero fun noDigits => ?_
      rw [noDigits, Nat.cast_zero, zero_mul] at least
      exact absurd least (not_le.mpr (by positivity))
    have word := scaled_lt numeral
    have sized : ∃ size, Denotes magnitude size ∧ Within (4 * roundingUnit) size
        (numeral.scaled.1 * 10 ^ numeral.scaledExponent) := by
      rcases lt_or_ge numeral.scaledExponent 0 with below | above
      · refine within_of_scale?_of_neg filled word below ?_ ?_ found
        · by_contra! few
          have power : (10 : ℚ) ^ numeral.scaledExponent ≤ 10 ^ (-309 : Int) :=
            zpow_le_zpow_right₀ (by norm_num) (by omega)
          have small : (numeral.scaled.1 : ℚ) < 2 ^ 64 := by exact_mod_cast word
          have product : (numeral.scaled.1 : ℚ) * 10 ^ numeral.scaledExponent <
              10 ^ 20 * 10 ^ (-309 : Int) :=
            mul_lt_mul (small.trans (by norm_num)) power (by positivity) (by positivity)
          rw [← zpow_natCast, ← zpow_add₀ (by norm_num)] at product
          exact absurd least (not_le.mpr product)
        · refine le_trans ?_ least
          have powers : 10 ^ 289 ≤ 2 ^ 1019 := by decide +kernel
          rw [zpow_neg, zpow_neg, zpow_ofNat, zpow_ofNat]
          exact inv_anti₀ (by positivity) (by exact_mod_cast powers)
      · exact within_of_scale?_of_nonneg filled word above found
    obtain ⟨size, denotes, rounded⟩ := sized
    refine ⟨size, denotes, ?_, abs_sub_le_of_within near rounded⟩
    have unit : (0 : ℚ) ≤ 1 - 4 * roundingUnit := by norm_num [roundingUnit]
    exact (mul_nonneg unit (by positivity)).trans rounded.1

/-- A number that is read is near its double, unless it is too small. -/
theorem isNear_of_value? (proper : numeral.Proper) (found : numeral.value? = some number)
    (coarse : numeral.toRat = 0 ∨ 10 ^ (-288 : Int) ≤ |numeral.toRat|) :
    numeral.IsNear number.toFloat := by
  have sized : ∃ magnitude size, number.toFloat = withSign numeral.negative magnitude ∧
      Denotes magnitude size ∧ 0 ≤ size ∧
      |size - (|numeral.toRat|)| ≤ |numeral.toRat| / 2 ^ 49 := by
    rcases value?_cases proper with ⟨integer, count, value, word, whole, same⟩ | value
    · obtain rfl := Option.some.inj (value.symm.trans found)
      rcases Nat.eq_zero_or_pos count with rfl | filled
      · refine ⟨_, 0, same, denotes_ofNat (by decide), le_refl _, ?_⟩
        simp [whole]
      · obtain ⟨size, denotes, near⟩ := exists_ofNat_near filled word
        have one : (1 : ℚ) ≤ count := by exact_mod_cast filled
        refine ⟨_, size, same, denotes, by linarith [near.half_le one], ?_⟩
        rw [whole]
        refine abs_sub_le_of_within (.refl (by linarith)) ?_
        simp only [Near, Within, roundingUnit] at near ⊢
        constructor <;> linarith
    · rw [value, Option.map_eq_some_iff] at found
      obtain ⟨magnitude, scaled, rfl⟩ := found
      obtain ⟨size, denotes, above, close⟩ := exists_size_of_scale? proper coarse scaled
      exact ⟨magnitude, size, rfl, denotes, above, close⟩
  obtain ⟨magnitude, size, same, denotes, above, close⟩ := sized
  obtain ⟨mantissa, exponent, parts, whole⟩ := ofFloat_withSign denotes above numeral.negative
  rw [← whole] at close
  exact ⟨mantissa, exponent, same ▸ parts, close⟩

end Numbers

end Numeral

end SqlMetrics
