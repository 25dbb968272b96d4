import Mathlib.Tactic.FieldSimp
import SqlMetrics.Proofs.Decimal.Conversion

/-! # Sums and products that are rounded

A number that does not fit is rounded to a double that differs from it by no more than a
`roundingUnit` of itself (`exists_near`), or to infinity if it is beyond all doubles
(`near_or_infinite`).  So are products and quotients (`Denotes.mul_near_or_infinite`,
`Denotes.exists_div_near`) and decimal literals. -/
set_option autoImplicit false
namespace SqlMetrics

open Float.Model (Format totalExponent UnpackedFloat)
open Float.Model.UnpackedFloat

/-! ## One rounding -/

section Rounding
variable {sign : Sign} {significand : Nat} {place : Int} {number : ℚ}

theorem mantissa_shiftRight (significand : Nat) (accuracy : Accuracy) (shift : Nat) :
    (ExtendedMantissa.ofMantissaAndAccuracy significand accuracy >>> shift).mantissa =
      significand / 2 ^ shift := by
  change (Nat.repeat ExtendedMantissa.shiftRightOne shift
    (ExtendedMantissa.ofMantissaAndAccuracy significand accuracy)).mantissa = _
  induction shift with
  | zero =>
      rw [Nat.pow_zero, Nat.div_one]
      rcases accuracy with _ | (_ | _ | _) <;> rfl
  | succ shift ih =>
      rw [Nat.repeat, ExtendedMantissa.shiftRightOne, ih, Nat.div_div_eq_div_mul]
      rfl

theorem roundedMantissa_cases (extended : ExtendedMantissa) :
    extended.roundedMantissa = extended.mantissa ∨
      extended.roundedMantissa = extended.mantissa + 1 := by
  obtain ⟨mantissa, roundBit, stickyBit⟩ := extended
  cases roundBit <;> cases stickyBit
  case false.false => exact .inl rfl
  case false.true => exact .inl rfl
  case true.true => exact .inr rfl
  case true.false =>
    change mantissa + mantissa % 2 = mantissa ∨ mantissa + mantissa % 2 = mantissa + 1
    omega

theorem exists_roundWithAccuracy (sign : Sign) (accuracy : Accuracy)
    (great : 2 ^ 52 ≤ significand) (least : -1074 ≤ place) :
    ∃ mantissa exponent, ∃ positive : 0 < mantissa, ∃ rounded : Nat,
      roundWithAccuracy .binary64 sign significand place accuracy =
        .finite sign mantissa exponent positive ∧
      2 ^ 52 ≤ mantissa ∧ InBinary64 mantissa exponent ∧
      (mantissa : ℚ) * 2 ^ exponent =
        rounded * 2 ^ (place + ((significand.log2 - 52 : Nat) : Int)) ∧
      (rounded = significand / 2 ^ (significand.log2 - 52) ∨
        rounded = significand / 2 ^ (significand.log2 - 52) + 1) := by
  have filled : significand ≠ 0 := by omega
  have long : 52 ≤ significand.log2 := (Nat.le_log2 filled).mpr great
  obtain ⟨shift, bits⟩ := Nat.exists_eq_add_of_le long
  obtain ⟨lower, upper⟩ := (Nat.log2_eq_iff filled).mp bits
  rw [bits, Nat.add_sub_cancel_left]
  have inside : 2 ^ 52 ≤ significand / 2 ^ shift ∧ significand / 2 ^ shift < 2 ^ 53 := by
    rw [Nat.le_div_iff_mul_le (Nat.two_pow_pos shift),
      Nat.div_lt_iff_lt_mul (Nat.two_pow_pos shift), ← Nat.pow_add, ← Nat.pow_add,
      Nat.add_comm 53, Nat.add_comm shift 53]
    exact ⟨lower, by rwa [Nat.add_right_comm] at upper⟩
  have target : Format.binary64.targetExponent (totalExponent significand place) =
      place + shift := by
    have value : Format.binary64.targetExponent (totalExponent significand place) =
      max ((significand.log2 : Int) + 1 + place - 53) (-1074) := rfl
    rw [value, bits]
    omega
  have first : shiftToTargetExponent .binary64 significand place accuracy =
      (ExtendedMantissa.ofMantissaAndAccuracy significand accuracy >>> shift, place + shift) := by
    have back : (place + shift - place).toNat = shift := by omega
    rw [shiftToTargetExponent, target]
    simp only [shiftToExponent, back]
  have mantissa := mantissa_shiftRight significand accuracy shift
  have cases := roundedMantissa_cases
    (ExtendedMantissa.ofMantissaAndAccuracy significand accuracy >>> shift)
  rw [mantissa] at cases
  rw [roundWithAccuracy, first]
  dsimp only
  generalize
    (ExtendedMantissa.ofMantissaAndAccuracy significand accuracy >>> shift).roundedMantissa =
      rounded at cases
  have bounds : 2 ^ 52 ≤ rounded ∧ rounded ≤ 2 ^ 53 := by omega
  rcases bounds.2.lt_or_eq with fits | carried
  · have valid : InBinary64 rounded (place + shift) := ⟨fits, by omega, fun _ => bounds.1⟩
    have positive : 0 < rounded := by omega
    have again := shiftToTargetExponent_exact positive valid 0
    rw [Nat.pow_zero, Nat.mul_one, Nat.cast_zero, sub_zero] at again
    refine ⟨rounded, place + shift, positive, rounded, ?_, bounds.1, valid, rfl, cases⟩
    rw [again]
    exact dif_neg positive.ne'
  · -- The carry gives a bit more, which is zero and moves out.
    have valid : InBinary64 (2 ^ 52) (place + shift + 1) :=
      ⟨by decide, by omega, fun _ => le_refl _⟩
    have again := shiftToTargetExponent_exact (by decide) valid 1
    rw [Nat.cast_one, add_sub_cancel_right, ← Nat.pow_add, ← carried] at again
    refine ⟨2 ^ 52, place + shift + 1, by decide, rounded, ?_, le_refl _, valid, ?_, cases⟩
    · rw [again]
      rfl
    · rw [carried, zpow_add_one₀ (by norm_num)]
      push_cast
      ring

/-- The relative error of rounding. -/
def roundingUnit : ℚ :=
  1 / 2 ^ 52

/-- One number differs from another by no more than the error of one rounding. -/
def Near (rounded value : ℚ) : Prop :=
  (1 - roundingUnit) * value ≤ rounded ∧ rounded ≤ (1 + roundingUnit) * value

theorem exists_near (sign : Sign) (accuracy : Accuracy) (great : 2 ^ 52 ≤ significand)
    (least : -1074 ≤ place) (lower : significand * 2 ^ place ≤ number)
    (upper : number < (significand + 1) * 2 ^ place) :
    ∃ mantissa exponent, ∃ positive : 0 < mantissa,
      roundWithAccuracy .binary64 sign significand place accuracy =
        .finite sign mantissa exponent positive ∧
      2 ^ 52 ≤ mantissa ∧ InBinary64 mantissa exponent ∧
      Near (mantissa * 2 ^ exponent) number := by
  obtain ⟨mantissa, exponent, positive, rounded, result, normal, valid, value, cases⟩ :=
    exists_roundWithAccuracy sign accuracy great least
  refine ⟨mantissa, exponent, positive, result, normal, valid, ?_⟩
  have filled : significand ≠ 0 := by omega
  obtain ⟨shift, bits⟩ := Nat.exists_eq_add_of_le ((Nat.le_log2 filled).mpr great)
  obtain ⟨long, -⟩ := (Nat.log2_eq_iff filled).mp bits
  rw [bits, Nat.add_sub_cancel_left] at value cases
  have split := Nat.div_add_mod significand (2 ^ shift)
  have rest := Nat.mod_lt significand (Nat.two_pow_pos shift)
  have below : significand + 1 ≤ rounded * 2 ^ shift + 2 ^ shift := by
    rw [Nat.mul_comm] at split
    rcases cases with rfl | rfl
    · omega
    · rw [Nat.add_mul]
      omega
  have above : rounded * 2 ^ shift ≤ significand + 2 ^ shift := by
    rw [Nat.mul_comm] at split
    rcases cases with rfl | rfl
    · omega
    · rw [Nat.add_mul]
      omega
  -- What is cut off is less than the last place, and that is small against the whole.
  have unit : (2 : ℚ) ^ shift ≤ roundingUnit * significand := by
    rw [Nat.pow_add] at long
    have scaled : (2 : ℚ) ^ 52 * 2 ^ shift ≤ significand := by exact_mod_cast long
    rw [roundingUnit, div_mul_eq_mul_div, one_mul, le_div_iff₀ (by positivity), mul_comm]
    exact scaled
  have places : (2 : ℚ) ^ (place + (shift : Int)) = 2 ^ shift * 2 ^ place := by
    rw [zpow_add₀ (by norm_num), zpow_natCast, mul_comm]
  have positivePlace := two_zpow_pos place
  have belowCast : (significand : ℚ) + 1 ≤ rounded * 2 ^ shift + 2 ^ shift := by
    exact_mod_cast below
  have aboveCast : (rounded : ℚ) * 2 ^ shift ≤ significand + 2 ^ shift := by exact_mod_cast above
  have lastPlace := mul_le_mul_of_nonneg_right unit positivePlace.le
  have belowPlace := mul_le_mul_of_nonneg_right belowCast positivePlace.le
  have abovePlace := mul_le_mul_of_nonneg_right aboveCast positivePlace.le
  have smaller : roundingUnit * (significand * 2 ^ place) ≤ roundingUnit * number :=
    mul_le_mul_of_nonneg_left lower (by norm_num [roundingUnit])
  rw [value, places, Near, ← mul_assoc]
  constructor
  · linarith
  · linarith

end Rounding

/-! ## Near doubles -/

def doublesEnd : ℚ :=
  2 ^ (1024 : Int)

theorem doublesEnd_eq : doublesEnd = ((2 ^ 1024 : Nat) : ℚ) := by
  rw [doublesEnd, zpow_ofNat, Nat.cast_pow, Nat.cast_ofNat]

theorem two_pow_mul_two_zpow (bits : Nat) :
    (2 : ℚ) ^ bits * 2 ^ (1024 - bits : Int) = doublesEnd := by
  rw [doublesEnd, ← zpow_natCast, ← zpow_add₀ (by norm_num), add_sub_cancel]

section Near
variable {value factor : Float} {significand : Nat} {place : Int} {first second number : ℚ}

theorem Near.half_le {rounded value : ℚ} (near : Near rounded value) (above : 1 ≤ value) :
    1 / 2 ≤ rounded := by
  refine le_trans ?_ near.1
  norm_num [roundingUnit]
  linarith

theorem near_or_infinite (accuracy : Accuracy) (great : 2 ^ 52 ≤ significand)
    (least : -1074 ≤ place) (lower : significand * 2 ^ place ≤ number)
    (upper : number < (significand + 1) * 2 ^ place) :
    (∃ rounded, HasValue (roundWithAccuracy .binary64 .positive significand place accuracy)
      rounded ∧ rounded < doublesEnd ∧ Near rounded number) ∨
    unpack .binary64 (pack .binary64
      (roundWithAccuracy .binary64 .positive significand place accuracy)) = .infinity .positive ∧
      doublesEnd ≤ (1 + roundingUnit) * number := by
  obtain ⟨mantissa, exponent, positive, result, normal, valid, near⟩ :=
    exists_near .positive accuracy great least lower upper
  rw [result]
  rcases le_or_gt exponent 971 with bounded | above
  · left
    refine ⟨(Sign.positive.apply mantissa : Int) * 2 ^ exponent,
      .finite positive valid bounded, ?_, ?_⟩
    · have power : (2 : ℚ) ^ exponent ≤ 2 ^ (971 : Int) :=
        zpow_le_zpow_right₀ (by norm_num) bounded
      have short : (mantissa : ℚ) < 2 ^ 53 := by exact_mod_cast valid.bounded
      have whole : (2 : ℚ) ^ 53 * 2 ^ (971 : Int) = doublesEnd := two_pow_mul_two_zpow 53
      rw [Sign.apply, Int.cast_natCast]
      exact (mul_lt_mul short power (two_zpow_pos exponent) (by positivity)).trans_eq whole
    · rw [Sign.apply, Int.cast_natCast]
      exact near
  · right
    have biased : ¬ (exponent + Format.binary64.exponentBias +
        Format.binary64.mantissaBitsWithoutImplicit).toNat + 1 < 2 ^ 11 := by
      change ¬ (exponent + 1023 + 52).toNat + 1 < 2 ^ 11
      omega
    have power : (2 : ℚ) ^ (972 : Int) ≤ 2 ^ exponent :=
      zpow_le_zpow_right₀ (by norm_num) (by omega)
    have filled : (2 : ℚ) ^ 52 ≤ mantissa := by exact_mod_cast normal
    have product := mul_le_mul filled power (two_zpow_pos 972).le (by positivity)
    have whole : (2 : ℚ) ^ 52 * 2 ^ (972 : Int) = doublesEnd := two_pow_mul_two_zpow 52
    refine ⟨?_, whole.symm.le.trans (product.trans near.2)⟩
    simp only [pack]
    rw [if_pos (not_lt.mp biased)]
    rfl

theorem Denotes.exists_parts (denotes : Denotes value first) (above : 1 / 2 ≤ first) :
    ∃ mantissa exponent, ∃ positive : 0 < mantissa,
      value.toModel.unpack = .finite .positive mantissa exponent positive ∧
      2 ^ 52 ≤ mantissa ∧ mantissa < 2 ^ 53 ∧ -53 ≤ exponent ∧
      first = mantissa * 2 ^ exponent := by
  have holds := denotes.hasValue
  generalize value.toModel.unpack = parts at holds
  cases holds with
  | zero => norm_num at above
  | @finite sign mantissa exponent positive valid bounded =>
      have unit := two_zpow_pos exponent
      have filled : (0 : ℚ) < mantissa := by exact_mod_cast positive
      cases sign with
      | negative =>
          rw [Sign.apply, Int.cast_neg, Int.cast_natCast] at above
          nlinarith
      | positive =>
          rw [Sign.apply, Int.cast_natCast] at above ⊢
          have high : -53 ≤ exponent := by
            by_contra! low
            have power : (2 : ℚ) ^ exponent ≤ 2 ^ (-54 : Int) :=
              zpow_le_zpow_right₀ (by norm_num) (by omega)
            have short : (mantissa : ℚ) < 2 ^ 53 := by exact_mod_cast valid.bounded
            have product := mul_lt_mul short power unit (by positivity)
            have whole : (2 : ℚ) ^ 53 * 2 ^ (-54 : Int) = 1 / 2 := by norm_num
            exact absurd above (not_le.mpr (product.trans_eq whole))
          exact ⟨mantissa, exponent, positive, rfl, valid.normal (by omega), valid.bounded, high,
            rfl⟩

theorem Denotes.exists_product (left : Denotes value first) (right : Denotes factor second)
    (firstAbove : 1 / 2 ≤ first) (secondAbove : 1 / 2 ≤ second) :
    ∃ significand : Nat, ∃ place, 2 ^ 52 ≤ significand ∧ -1074 ≤ place ∧
      first * second = (significand : ℚ) * 2 ^ place ∧
      (value * factor).toModel.unpack = unpack .binary64 (pack .binary64
        (roundWithAccuracy .binary64 .positive significand place .exact)) := by
  obtain ⟨mantissa, exponent, positive, parts, normal, -, high, rfl⟩ := left.exists_parts firstAbove
  obtain ⟨significand, place, otherPositive, otherParts, -, -, otherHigh, rfl⟩ :=
    right.exists_parts secondAbove
  refine ⟨mantissa * significand, exponent + place, ?_, by omega, ?_, ?_⟩
  · exact normal.trans (Nat.le_mul_of_pos_right mantissa otherPositive)
  · rw [zpow_add₀ (by norm_num)]
    push_cast
    ring
  · change unpack .binary64 (pack .binary64 (UnpackedFloat.mul .binary64 _ _)) = _
    rw [parts, otherParts]
    rfl

/-- A product is rounded once, to a double or to infinity. -/
theorem Denotes.mul_near_or_infinite (left : Denotes value first) (right : Denotes factor second)
    (firstAbove : 1 / 2 ≤ first) (secondAbove : 1 / 2 ≤ second) :
    (∃ product, Denotes (value * factor) product ∧ product < doublesEnd ∧
      Near product (first * second)) ∨
    (value * factor).isInf = true ∧ doublesEnd ≤ (1 + roundingUnit) * (first * second) := by
  obtain ⟨significand, place, great, least, same, parts⟩ :=
    left.exists_product right firstAbove secondAbove
  have above : first * second < (significand + 1) * 2 ^ place := by
    rw [same, add_mul, one_mul]
    exact lt_add_of_pos_right _ (two_zpow_pos place)
  rcases near_or_infinite .exact great least same.symm.le above with
    ⟨rounded, holds, below, near⟩ | ⟨infinite, beyond⟩
  · refine .inl ⟨rounded, HasValue.denotes ?_, below, near⟩
    rw [parts, holds.unpack_pack]
    exact holds
  · refine .inr ⟨?_, beyond⟩
    change (value * factor).toModel.unpack.isInf = true
    rw [parts, infinite]
    rfl

theorem Denotes.exists_mul_near (left : Denotes value first) (right : Denotes factor second)
    (firstAbove : 1 / 2 ≤ first) (secondAbove : 1 / 2 ≤ second)
    (below : (1 + roundingUnit) * (first * second) < doublesEnd) :
    ∃ product, Denotes (value * factor) product ∧ Near product (first * second) := by
  rcases left.mul_near_or_infinite right firstAbove secondAbove with
    ⟨product, denotes, -, near⟩ | ⟨-, beyond⟩
  · exact ⟨product, denotes, near⟩
  · exact absurd below (not_lt.mpr beyond)

theorem Denotes.isInf_mul (left : Denotes value first) (right : Denotes factor second)
    (firstAbove : 1 / 2 ≤ first) (secondAbove : 1 / 2 ≤ second)
    (beyond : doublesEnd ≤ (1 - roundingUnit) * (first * second)) :
    (value * factor).isInf = true := by
  rcases left.mul_near_or_infinite right firstAbove secondAbove with
    ⟨product, -, below, near⟩ | ⟨infinite, -⟩
  · exact absurd (beyond.trans near.1) (not_le.mpr below)
  · exact infinite

theorem divCore_eq {mantissa divisor : Nat} {exponent place : Int} (normal : 2 ^ 52 ≤ mantissa)
    (short : mantissa < 2 ^ 53) (otherNormal : 2 ^ 52 ≤ divisor) (otherShort : divisor < 2 ^ 53)
    (high : -1021 ≤ exponent - place) :
    divCore .binary64 mantissa exponent divisor place =
      (mantissa * 2 ^ 53 / divisor, exponent - place - 53,
        accuracyOfFraction (mantissa * 2 ^ 53 % divisor) divisor) := by
  have target : min (exponent - place) (Format.binary64.targetExponent
      (totalExponent mantissa exponent - totalExponent divisor place)) =
      exponent - place - 53 := by
    change min (exponent - place) (max ((mantissa.log2 : Int) + 1 + exponent -
      (divisor.log2 + 1 + place) - 53) (-1074)) = _
    rw [log2_eq normal short, log2_eq otherNormal otherShort]
    omega
  have back : (exponent - place - (exponent - place - 53)).toNat = 53 := by omega
  rw [divCore, target]
  simp only [back, Nat.shiftLeft_eq]

/-- The quotient of two doubles that are not below one half, unpacked.  It is not too small to have
all bits of a mantissa. -/
theorem Denotes.exists_quotient (left : Denotes value first) (right : Denotes factor second)
    (firstAbove : 1 / 2 ≤ first) (secondAbove : 1 / 2 ≤ second)
    (coarse : 2 ^ (-1020 : Int) ≤ first / second) :
    ∃ significand : Nat, ∃ place accuracy, 2 ^ 52 ≤ significand ∧ -1074 ≤ place ∧
      significand * 2 ^ place ≤ first / second ∧
      first / second < (significand + 1) * 2 ^ place ∧
      (value / factor).toModel.unpack = unpack .binary64 (pack .binary64
        (roundWithAccuracy .binary64 .positive significand place accuracy)) := by
  obtain ⟨mantissa, exponent, positive, parts, normal, short, -, rfl⟩ :=
    left.exists_parts firstAbove
  obtain ⟨divisor, place, otherPositive, otherParts, otherNormal, otherShort, -, rfl⟩ :=
    right.exists_parts secondAbove
  have filled : (0 : ℚ) < divisor := by exact_mod_cast otherPositive
  have quotient : (mantissa : ℚ) * 2 ^ exponent / (divisor * 2 ^ place) =
      mantissa * 2 ^ 53 / divisor * 2 ^ (exponent - place - 53) := by
    rw [zpow_sub₀ (by norm_num), zpow_sub₀ (by norm_num), zpow_ofNat]
    field_simp
  have high : -1021 ≤ exponent - place := by
    by_contra! low
    have power : (2 : ℚ) ^ (exponent - place - 53) ≤ 2 ^ (-1075 : Int) :=
      zpow_le_zpow_right₀ (by norm_num) (by omega)
    have ratio : (mantissa : ℚ) * 2 ^ 53 / divisor < 2 ^ 54 := by
      rw [div_lt_iff₀ filled]
      have bounds : mantissa * 2 ^ 53 < 2 ^ 54 * divisor := by omega
      exact_mod_cast bounds
    have small := mul_lt_mul ratio power (two_zpow_pos _) (by positivity)
    rw [← quotient] at small
    have whole : (2 : ℚ) ^ 54 * 2 ^ (-1075 : Int) < 2 ^ (-1020 : Int) := by
      rw [← zpow_natCast, ← zpow_add₀ (by norm_num)]
      exact zpow_lt_zpow_right₀ (by norm_num) (by decide)
    exact absurd (coarse.trans_lt small) (not_lt.mpr whole.le)
  have unit := two_zpow_pos (exponent - place - 53)
  have split : mantissa * 2 ^ 53 = divisor * (mantissa * 2 ^ 53 / divisor) +
      mantissa * 2 ^ 53 % divisor := (Nat.div_add_mod _ _).symm
  have rest := Nat.mod_lt (mantissa * 2 ^ 53) otherPositive
  refine ⟨mantissa * 2 ^ 53 / divisor, exponent - place - 53,
    accuracyOfFraction (mantissa * 2 ^ 53 % divisor) divisor, ?_, by omega, ?_, ?_, ?_⟩
  · rw [Nat.le_div_iff_mul_le otherPositive]
    omega
  · rw [quotient]
    refine mul_le_mul_of_nonneg_right ?_ unit.le
    rw [le_div_iff₀ filled]
    exact_mod_cast Nat.div_mul_le_self _ _
  · rw [quotient]
    refine mul_lt_mul_of_pos_right ?_ unit
    rw [div_lt_iff₀ filled]
    have above : mantissa * 2 ^ 53 < (mantissa * 2 ^ 53 / divisor + 1) * divisor := by
      rw [Nat.add_mul, Nat.mul_comm (_ / _)]
      omega
    exact_mod_cast above
  · change unpack .binary64 (pack .binary64 (UnpackedFloat.div .binary64 _ _)) = _
    rw [parts, otherParts]
    simp only [UnpackedFloat.div, divCore_eq normal short otherNormal otherShort high]
    rfl

/-- A quotient that is not beyond the doubles is rounded once. -/
theorem Denotes.exists_div_near (left : Denotes value first) (right : Denotes factor second)
    (firstAbove : 1 / 2 ≤ first) (secondAbove : 1 / 2 ≤ second)
    (coarse : 2 ^ (-1020 : Int) ≤ first / second)
    (below : (1 + roundingUnit) * (first / second) < doublesEnd) :
    ∃ quotient, Denotes (value / factor) quotient ∧ Near quotient (first / second) := by
  obtain ⟨significand, place, accuracy, great, least, lower, upper, parts⟩ :=
    left.exists_quotient right firstAbove secondAbove coarse
  rcases near_or_infinite accuracy great least lower upper with
    ⟨rounded, holds, -, near⟩ | ⟨-, beyond⟩
  · refine ⟨rounded, HasValue.denotes ?_, near⟩
    rw [parts, holds.unpack_pack]
    exact holds
  · exact absurd below (not_lt.mpr beyond)

theorem Denotes.zero_div (zero : Denotes value 0) (right : Denotes factor second)
    (above : 1 / 2 ≤ second) : Denotes (value / factor) 0 := by
  obtain rfl := zero.unique denotes_zero
  obtain ⟨mantissa, exponent, positive, parts, -⟩ := right.exists_parts above
  refine HasValue.denotes ?_
  change HasValue (unpack .binary64 (pack .binary64 (UnpackedFloat.div .binary64 _ _))) _
  have quotient : UnpackedFloat.div .binary64 (.zero .positive)
      (.finite .positive mantissa exponent positive) = .zero .positive := rfl
  rw [parts, unpack_zero, quotient, HasValue.zero.unpack_pack]
  exact .zero

end Near

/-! ## Decimal literals -/

section Literals
variable {count exponent : Nat}

theorem ofFloat_powerOfTen (exponent : Fin 23) :
    BinaryParts.ofFloat (Float.exactlyRepresentablePowersOfTen[exponent.val]) =
      .finite false (10 ^ exponent.val * 2 ^ 52 / 2 ^ (10 ^ exponent.val).log2)
        ((10 ^ exponent.val).log2 - 52) := by
  revert exponent
  decide +kernel

theorem powerOfTen_mantissa (exponent : Fin 23) :
    2 ^ (10 ^ exponent.val).log2 ∣ 10 ^ exponent.val * 2 ^ 52 := by
  revert exponent
  decide +kernel

theorem denotes_powerOfTen (exponent : Fin 23) :
    Denotes Float.exactlyRepresentablePowersOfTen[exponent.val] (10 ^ exponent.val) := by
  have denotes := denotes_of_parts (ofFloat_powerOfTen exponent)
  obtain ⟨mantissa, whole⟩ := powerOfTen_mantissa exponent
  rw [whole, Nat.mul_div_cancel_left _ (Nat.two_pow_pos _)] at denotes
  have number : (mantissa : ℚ) * 2 ^ (((10 ^ exponent.val).log2 : Int) - 52) =
      10 ^ exponent.val := by
    have wholeCast :
        (10 : ℚ) ^ exponent.val * 2 ^ 52 = 2 ^ (10 ^ exponent.val).log2 * mantissa := by
      exact_mod_cast whole
    rw [zpow_sub₀ (by norm_num), zpow_natCast, zpow_ofNat, mul_div_assoc', mul_comm, ← wholeCast,
      mul_div_cancel_right₀ _ (by norm_num)]
  rwa [number] at denotes

theorem unpack_ofScientific (filled : 0 < count) (few : exponent ≤ 2048)
    (great : ¬ (count < 2 ^ 53 ∧ exponent ≤ 22)) :
    (Float.ofScientific count false exponent).toModel.unpack =
      unpack .binary64 (pack .binary64 (roundWithAccuracy .binary64 .positive
        (count * 2 ^ 53 * 10 ^ exponent) (-53) .exact)) := by
  rw [Float.ofScientific, dif_neg great]
  change unpack .binary64 (pack .binary64 (UnpackedFloat.ofScientific .binary64 count
    (Int.ofNat exponent))) = _
  have notGreat : ¬ Int.ofNat exponent > 2 ^ Format.binary64.exponentBits := by
    change ¬ (exponent : Int) > 2 ^ 11
    omega
  have notLow : ¬ Int.ofNat exponent <
      -(2 ^ Format.binary64.exponentBits + (count.log2 : Int)) := by
    change ¬ (exponent : Int) < -(2 ^ 11 + (count.log2 : Int))
    omega
  rw [UnpackedFloat.ofScientific, dif_neg filled.ne', if_neg notGreat, if_neg notLow,
    if_pos (show 0 ≤ Int.ofNat exponent from Int.natCast_nonneg exponent)]
  simp only [Nat.shiftLeft_eq]
  rfl

/-- A literal is rounded twice at most. -/
theorem exists_ofScientific_near (filled : 0 < count) (few : exponent ≤ 2048)
    (below : (1 + roundingUnit) * (count * 10 ^ exponent) < doublesEnd) :
    ∃ number, Denotes (Float.ofScientific count false exponent) number ∧
      Near number (count * 10 ^ exponent) := by
  by_cases small : count < 2 ^ 53 ∧ exponent ≤ 22
  · have converted := denotes_toFloat small.1
    have power := denotes_powerOfTen ⟨exponent, Nat.lt_succ_of_le small.2⟩
    rw [Float.ofScientific, dif_pos small]
    have first : (1 : ℚ) ≤ count := by exact_mod_cast filled
    have second : (1 : ℚ) ≤ 10 ^ exponent := one_le_pow₀ (by norm_num)
    exact converted.exists_mul_near power (by linarith) (by linarith) below
  · have whole : ((count * 2 ^ 53 * 10 ^ exponent : Nat) : ℚ) * 2 ^ (-53 : Int) =
        count * 10 ^ exponent := by
      rw [zpow_neg, zpow_ofNat, ← div_eq_mul_inv, div_eq_iff (by norm_num)]
      push_cast
      ring
    have great : 2 ^ 52 ≤ count * 2 ^ 53 * 10 ^ exponent := by
      have first := Nat.mul_le_mul filled (le_refl (2 ^ 53))
      have second := Nat.mul_le_mul first (Nat.one_le_pow exponent 10 (by decide))
      omega
    have above : (count : ℚ) * 10 ^ exponent <
        ((count * 2 ^ 53 * 10 ^ exponent : Nat) + 1) * 2 ^ (-53 : Int) := by
      rw [add_mul, whole, one_mul]
      exact lt_add_of_pos_right _ (two_zpow_pos _)
    rcases near_or_infinite .exact great (by decide) whole.le above with
      ⟨number, holds, -, near⟩ | ⟨-, beyond⟩
    · refine ⟨number, HasValue.denotes ?_, near⟩
      rw [unpack_ofScientific filled few small, holds.unpack_pack]
      exact holds
    · exact absurd below (not_lt.mpr beyond)

/-- An integer of 64 bits is rounded once at most. -/
theorem exists_ofNat_near (filled : 0 < count) (word : count < 2 ^ 64) :
    ∃ number, Denotes (Float.ofNat count) number ∧ Near number count := by
  have below : (1 + roundingUnit) * ((count : ℚ) * 10 ^ 0) < doublesEnd := by
    have small : (count : ℚ) < 2 ^ 64 := by exact_mod_cast word
    have room : (2 : ℚ) ^ (65 : Int) < doublesEnd := zpow_lt_zpow_right₀ (by norm_num) (by decide)
    have unit : roundingUnit ≤ 1 := by norm_num [roundingUnit]
    rw [pow_zero, mul_one]
    refine lt_trans ?_ room
    calc (1 + roundingUnit) * (count : ℚ) ≤ 2 * count :=
          mul_le_mul_of_nonneg_right (by linarith) (Nat.cast_nonneg count)
      _ < 2 * 2 ^ 64 := by linarith
      _ = 2 ^ (65 : Int) := by norm_num
  have near := exists_ofScientific_near filled (by decide) below
  rwa [pow_zero, mul_one] at near

end Literals

end SqlMetrics
