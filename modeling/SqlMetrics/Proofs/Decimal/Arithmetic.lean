import SqlMetrics.Proofs.Decimal.Rounding

/-! # Exact sums and products of doubles

`Denotes value number` says that a double has an exact value and is no negative zero.  Where the
sum or the product of two such numbers is the value of a double, the sum or the product of the
doubles denotes it (`Denotes.add`, `Denotes.mul`): nothing is rounded. -/
set_option autoImplicit false
namespace SqlMetrics

open Float.Model (Format totalExponent UnpackedFloat)
open Float.Model.UnpackedFloat

/-- A number that some double has as its value. -/
def IsDouble (number : ℚ) : Prop :=
  ∃ mantissa exponent, InBinary64 mantissa exponent ∧ exponent ≤ 971 ∧
    |number| = mantissa * 2 ^ exponent

/-- The parts of a double have this value; there is one zero only. -/
inductive HasValue : UnpackedFloat → ℚ → Prop
  | zero : HasValue (.zero .positive) 0
  | finite {sign : Sign} {mantissa : Nat} {exponent : Int} (positive : 0 < mantissa)
      (valid : InBinary64 mantissa exponent) (bounded : exponent ≤ 971) :
      HasValue (.finite sign mantissa exponent positive)
        ((sign.apply mantissa : Int) * 2 ^ exponent)

/-- A double has exactly this value, and is no negative zero. -/
def Denotes (value : Float) (number : ℚ) : Prop :=
  ∃ mantissa exponent,
    BinaryParts.ofFloat value = .finite (decide (number < 0)) mantissa exponent ∧
    |number| = mantissa * 2 ^ exponent

/-! ## Packing -/

section Packing
variable {sign : Sign} {mantissa : Nat} {exponent : Int}

theorem log2_eq (lower : 2 ^ 52 ≤ mantissa) (upper : mantissa < 2 ^ 53) : mantissa.log2 = 52 :=
  (Nat.log2_eq_iff (by omega)).mpr ⟨lower, upper⟩

theorem toNat_one_append (fraction : BitVec 52) :
    (1#1 ++ fraction).toNat = 2 ^ 52 + fraction.toNat := by
  rw [BitVec.toNat_append, ← Nat.shiftLeft_add_eq_or_of_lt fraction.isLt]
  rfl

theorem unpack_pack_finite (positive : 0 < mantissa) (valid : InBinary64 mantissa exponent)
    (bounded : exponent ≤ 971) :
    unpack .binary64 (pack .binary64 (.finite sign mantissa exponent positive)) =
      .finite sign mantissa exponent positive := by
  have least := valid.least
  have upper := valid.bounded
  have biased : (exponent + Format.binary64.exponentBias +
      Format.binary64.mantissaBitsWithoutImplicit).toNat = (exponent + 1075).toNat := by
    change (exponent + 1023 + 52).toNat = _
    omega
  have bias : ((Format.binary64.exponentBias : Nat) : Int) = 1023 := rfl
  simp only [pack, biased]
  rw [if_neg (show ¬ 2 ^ 11 ≤ (exponent + 1075).toNat + 1 by omega)]
  by_cases normal : 2 ^ 52 ≤ mantissa
  · have field : (BitVec.ofNat 11 (exponent + 1075).toNat).toNat = (exponent + 1075).toNat := by
      rw [BitVec.toNat_ofNat]
      omega
    have notGreatest : BitVec.ofNat 11 (exponent + 1075).toNat ≠ -1#11 := by
      intro same
      have number := congrArg BitVec.toNat same
      rw [field] at number
      change _ = 2047 at number
      omega
    have notLeast : BitVec.ofNat 11 (exponent + 1075).toNat ≠ 0#11 := by
      intro same
      have number := congrArg BitVec.toNat same
      rw [field] at number
      change _ = 0 at number
      omega
    have whole : (1#1 ++ BitVec.ofNat 52 mantissa).toNat = mantissa := by
      rw [toNat_one_append, BitVec.toNat_ofNat]
      omega
    have long : mantissa.log2 + 1 = Format.binary64.mantissaBits := by
      rw [log2_eq normal upper]
      rfl
    rw [if_pos long]
    simp only [unpack, unpackExponent_packComponents, unpackMantissa_packComponents,
      unpackSign_packComponents, Sign.ofBitVec_toBitVec]
    rw [if_neg notGreatest, if_neg notLeast]
    simp only [whole, field, bias]
    congr 1
    omega
  · have lowest : exponent = -1074 := by
      by_contra other
      exact normal (valid.normal (lt_of_le_of_ne least (Ne.symm other)))
    have short : ¬ mantissa.log2 + 1 = Format.binary64.mantissaBits := by
      intro long
      change mantissa.log2 + 1 = 53 at long
      exact normal ((Nat.le_log2 (by omega)).mp (by omega))
    have whole : (BitVec.ofNat 52 mantissa).toNat = mantissa := by
      rw [BitVec.toNat_ofNat]
      omega
    have filled : BitVec.ofNat 52 mantissa ≠ 0#52 := by
      intro same
      have number := congrArg BitVec.toNat same
      rw [whole] at number
      change _ = 0 at number
      omega
    subst lowest
    rw [if_neg short]
    simp only [unpack, unpackExponent_packComponents, unpackMantissa_packComponents,
      unpackSign_packComponents, Sign.ofBitVec_toBitVec]
    rw [if_neg (by decide), if_pos trivial, dif_neg filled]
    simp only [whole, bias]
    rfl

theorem HasValue.unpack_pack {parts : UnpackedFloat} {number : ℚ} (holds : HasValue parts number) :
    unpack .binary64 (pack .binary64 parts) = parts := by
  cases holds with
  | zero => rfl
  | finite positive valid bounded => exact unpack_pack_finite positive valid bounded

end Packing

/-! ## Rounding what needs no rounding -/

section Rounding
variable {sign : Sign} {mantissa significand : Nat} {exponent place : Int}

theorem log2_mul_two_pow (positive : 0 < mantissa) (shift : Nat) :
    (mantissa * 2 ^ shift).log2 = mantissa.log2 + shift := by
  induction shift with
  | zero => rw [Nat.pow_zero, Nat.mul_one, Nat.add_zero]
  | succ shift ih =>
      have filled : mantissa * 2 ^ shift ≠ 0 :=
        Nat.ne_of_gt (Nat.mul_pos positive (Nat.two_pow_pos shift))
      rw [Nat.pow_succ, ← Nat.mul_assoc, Nat.mul_comm _ 2, Nat.log2_two_mul filled, ih,
        Nat.add_assoc]

theorem totalExponent_shift (positive : 0 < mantissa) (shift : Nat) (exponent : Int) :
    totalExponent (mantissa * 2 ^ shift) (exponent - shift) = totalExponent mantissa exponent := by
  rw [totalExponent, totalExponent, log2_mul_two_pow positive]
  push_cast
  omega

theorem targetExponent_eq (positive : 0 < mantissa) (valid : InBinary64 mantissa exponent) :
    Format.binary64.targetExponent (totalExponent mantissa exponent) = exponent := by
  have least := valid.least
  have target : Format.binary64.targetExponent (totalExponent mantissa exponent) =
      max ((mantissa.log2 : Int) + 1 + exponent - 53) (-1074) := rfl
  rw [target]
  rcases least.eq_or_lt with same | above
  · have small : mantissa.log2 < 53 := (Nat.log2_lt (by omega)).mpr valid.bounded
    omega
  · rw [log2_eq (valid.normal above) valid.bounded]
    omega

theorem shiftRight_exact (mantissa shift : Nat) :
    ExtendedMantissa.ofMantissaAndAccuracy (mantissa * 2 ^ shift) .exact >>> shift =
      ⟨mantissa, false, false⟩ := by
  change Nat.repeat ExtendedMantissa.shiftRightOne shift ⟨mantissa * 2 ^ shift, false, false⟩ = _
  induction shift generalizing mantissa with
  | zero => rw [Nat.pow_zero, Nat.mul_one]; rfl
  | succ shift ih =>
      have doubled : mantissa * 2 ^ (shift + 1) = 2 * mantissa * 2 ^ shift := by
        rw [Nat.pow_succ]
        ring
      rw [doubled, Nat.repeat, ih]
      simp [ExtendedMantissa.shiftRightOne]

theorem shiftToTargetExponent_exact (positive : 0 < mantissa)
    (valid : InBinary64 mantissa exponent) (shift : Nat) :
    shiftToTargetExponent .binary64 (mantissa * 2 ^ shift) (exponent - shift) .exact =
      (⟨mantissa, false, false⟩, exponent) := by
  have back : (exponent - (exponent - shift)).toNat = shift := by omega
  rw [shiftToTargetExponent, totalExponent_shift positive, targetExponent_eq positive valid]
  simp only [shiftToExponent, back, shiftRight_exact]
  congr 1
  omega

theorem roundWithAccuracy_exact (sign : Sign) (positive : 0 < mantissa)
    (valid : InBinary64 mantissa exponent) (shift : Nat) :
    roundWithAccuracy .binary64 sign (mantissa * 2 ^ shift) (exponent - shift) .exact =
      .finite sign mantissa exponent positive := by
  have again := shiftToTargetExponent_exact positive valid 0
  rw [Nat.pow_zero, Nat.mul_one, Nat.cast_zero, sub_zero] at again
  rw [roundWithAccuracy, shiftToTargetExponent_exact positive valid]
  dsimp only [ExtendedMantissa.roundedMantissa, ExtendedMantissa.accuracy,
    Accuracy.roundToNearestEven]
  rw [again]
  exact dif_neg positive.ne'

theorem round_exact (positive : 0 < mantissa) (valid : InBinary64 mantissa exponent)
    (same : (significand : ℚ) * 2 ^ place = mantissa * 2 ^ exponent) :
    UnpackedFloat.round .binary64 sign significand place =
      .finite sign mantissa exponent positive := by
  rcases le_total exponent place with above | below
  · -- The significand is moved up to the place of the double.
    obtain ⟨shift, rfl⟩ := Int.le.dest above
    obtain rfl : mantissa = significand * 2 ^ shift := by
      rw [eq_mul_of_le above same.symm, add_sub_cancel_left, Int.toNat_natCast]
    have filled : 0 < significand := Nat.pos_of_mul_pos_right positive
    have total := totalExponent_shift filled shift (exponent + shift)
    have rounded := roundWithAccuracy_exact sign positive valid 0
    rw [add_sub_cancel_right] at total
    rw [Nat.pow_zero, Nat.mul_one, Nat.cast_zero, sub_zero] at rounded
    rw [UnpackedFloat.round, ← total, targetExponent_eq positive valid]
    dsimp only [decreaseExponent]
    rw [add_sub_cancel_left, Int.toNat_natCast, Nat.shiftLeft_eq, add_sub_cancel_right, rounded]
  · obtain ⟨shift, rfl⟩ : ∃ shift : Nat, place = exponent - shift :=
      ⟨(exponent - place).toNat, by omega⟩
    obtain rfl : significand = mantissa * 2 ^ shift := by
      rw [eq_mul_of_le below same, sub_sub_cancel, Int.toNat_natCast]
    have noShift : (exponent - shift - exponent).toNat = 0 := by omega
    rw [UnpackedFloat.round, totalExponent_shift positive, targetExponent_eq positive valid]
    dsimp only [decreaseExponent]
    rw [noShift, Nat.shiftLeft_zero, Nat.cast_zero, sub_zero,
      roundWithAccuracy_exact sign positive valid]

theorem IsDouble.neg {number : ℚ} (double : IsDouble number) : IsDouble (-number) := by
  rwa [IsDouble, abs_neg]

theorem IsDouble.exists_parts (filled : 0 < significand)
    (double : IsDouble (significand * 2 ^ place)) :
    ∃ mantissa exponent, 0 < mantissa ∧ InBinary64 mantissa exponent ∧ exponent ≤ 971 ∧
      (significand : ℚ) * 2 ^ place = mantissa * 2 ^ exponent := by
  obtain ⟨mantissa, exponent, valid, bounded, same⟩ := double
  have above : (0 : ℚ) < significand * 2 ^ place :=
    mul_pos (by exact_mod_cast filled) (two_zpow_pos place)
  rw [abs_of_pos above] at same
  refine ⟨mantissa, exponent, ?_, valid, bounded, same⟩
  rcases Nat.eq_zero_or_pos mantissa with rfl | positive
  · rw [Nat.cast_zero, zero_mul] at same
    exact absurd same above.ne'
  · exact positive

theorem cast_apply (sign : Sign) (significand : Nat) :
    ((sign.apply significand : Int) : ℚ) = (sign.apply 1 : Int) * significand := by
  cases sign <;> simp [Sign.apply]

theorem HasValue.of_eq {parts : UnpackedFloat} (positive : 0 < mantissa)
    (valid : InBinary64 mantissa exponent) (bounded : exponent ≤ 971)
    (same : (significand : ℚ) * 2 ^ place = mantissa * 2 ^ exponent)
    (rounded : parts = .finite sign mantissa exponent positive) :
    HasValue parts ((sign.apply significand : Int) * 2 ^ place) := by
  have value : ((sign.apply significand : Int) : ℚ) * 2 ^ place =
      (sign.apply mantissa : Int) * 2 ^ exponent := by
    rw [cast_apply, cast_apply sign mantissa, mul_assoc, same, mul_assoc]
  rw [value, rounded]
  exact .finite positive valid bounded

theorem hasValue_round (sign : Sign) (filled : 0 < significand)
    (double : IsDouble (significand * 2 ^ place)) :
    HasValue (UnpackedFloat.round .binary64 sign significand place)
      ((sign.apply significand : Int) * 2 ^ place) := by
  obtain ⟨mantissa, exponent, positive, valid, bounded, same⟩ := double.exists_parts filled
  exact .of_eq positive valid bounded same (round_exact positive valid same)

theorem hasValue_roundWithAccuracy (sign : Sign) (filled : 0 < significand)
    (fine : 2 ^ 52 ≤ significand ∨ place ≤ -1074) (double : IsDouble (significand * 2 ^ place)) :
    HasValue (roundWithAccuracy .binary64 sign significand place .exact)
      ((sign.apply significand : Int) * 2 ^ place) := by
  obtain ⟨mantissa, exponent, positive, valid, bounded, same⟩ := double.exists_parts filled
  have below : place ≤ exponent := by
    by_contra! above
    have moved := eq_mul_of_le above.le same.symm
    have two : 2 ^ 1 ≤ 2 ^ (place - exponent).toNat := Nat.pow_le_pow_right (by decide) (by omega)
    have upper := valid.bounded
    have least := valid.least
    rcases fine with great | low
    · have product := Nat.mul_le_mul great two
      omega
    · omega
  obtain ⟨shift, rfl⟩ : ∃ shift : Nat, place = exponent - shift :=
    ⟨(exponent - place).toNat, by omega⟩
  have moved := eq_mul_of_le below same
  rw [sub_sub_cancel, Int.toNat_natCast] at moved
  refine .of_eq positive valid bounded same ?_
  rw [moved, roundWithAccuracy_exact sign positive valid]

/-- An integer times a power of two is exact, if a double has its value. -/
theorem hasValue_normalize {number : Int} (double : IsDouble (number * 2 ^ place)) :
    HasValue (UnpackedFloat.normalize .binary64 number place .positive) (number * 2 ^ place) := by
  rw [UnpackedFloat.normalize]
  rcases lt_trichotomy number 0 with below | rfl | above
  · obtain ⟨magnitude, rfl⟩ : ∃ magnitude : Nat, number = -magnitude :=
      ⟨number.natAbs, by omega⟩
    have opposite := double.neg
    rw [Int.cast_neg, neg_mul, neg_neg, Int.cast_natCast] at opposite
    rw [compare_lt_iff_lt.mpr below, neg_neg, Int.toNat_natCast]
    exact hasValue_round .negative (by omega) opposite
  · rw [compare_eq_iff_eq.mpr rfl, Int.cast_zero, zero_mul]
    exact .zero
  · obtain ⟨magnitude, rfl⟩ := Int.eq_ofNat_of_zero_le above.le
    rw [Int.cast_natCast] at double
    rw [compare_gt_iff_gt.mpr above, Int.toNat_natCast]
    exact hasValue_round .positive (by omega) double

end Rounding

/-! ## Operations -/

section Operations
variable {left right : UnpackedFloat} {augend addend factor number : ℚ}

theorem apply_decreaseExponent (sign : Sign) (mantissa : Nat) {exponent place : Int}
    (below : place ≤ exponent) :
    ((sign.apply ((decreaseExponent mantissa exponent place).1 : Nat) : Int) : ℚ) * 2 ^ place =
      (sign.apply mantissa : Int) * 2 ^ exponent := by
  rw [cast_apply, cast_apply sign mantissa, decreaseExponent, Nat.shiftLeft_eq,
    two_zpow_of_le below]
  push_cast
  ring

theorem HasValue.add (first : HasValue left augend) (second : HasValue right addend)
    (double : IsDouble (augend + addend)) :
    HasValue (UnpackedFloat.add .binary64 left right) (augend + addend) := by
  cases first with
  | zero =>
      rw [zero_add]
      cases second with
      | zero => exact .zero
      | finite positive valid bounded => exact .finite positive valid bounded
  | @finite sign mantissa exponent positive valid bounded =>
      cases second with
      | zero =>
          rw [add_zero]
          exact .finite positive valid bounded
      | @finite otherSign significand place otherPositive otherValid otherBounded =>
          have sum :
              ((sign.apply ((decreaseExponent mantissa exponent (min exponent place)).1 : Nat) +
                otherSign.apply
                  ((decreaseExponent significand place (min exponent place)).1 : Nat) : Int) : ℚ) *
                2 ^ min exponent place =
              (sign.apply mantissa : Int) * 2 ^ exponent +
                (otherSign.apply significand : Int) * 2 ^ place := by
            rw [Int.cast_add, add_mul, apply_decreaseExponent sign mantissa (min_le_left _ _),
              apply_decreaseExponent otherSign significand (min_le_right _ _)]
          rw [← sum] at double ⊢
          exact hasValue_normalize double

theorem HasValue.mul (first : HasValue left factor) (second : HasValue right number)
    (above : 0 < number) (double : IsDouble (factor * number)) :
    HasValue (UnpackedFloat.mul .binary64 left right) (factor * number) := by
  cases second with
  | zero => exact absurd above (lt_irrefl 0)
  | @finite otherSign significand place otherPositive otherValid otherBounded =>
      obtain rfl : otherSign = .positive := by
        cases otherSign with
        | positive => rfl
        | negative =>
            have unit := two_zpow_pos place
            have filled : (0 : ℚ) < significand := by exact_mod_cast otherPositive
            rw [Sign.apply, Int.cast_neg, Int.cast_natCast] at above
            nlinarith
      cases first with
      | zero =>
          rw [zero_mul]
          exact .zero
      | @finite sign mantissa exponent positive valid bounded =>
          have product : (((sign.apply mantissa : Int) : ℚ) * 2 ^ exponent) *
              ((Sign.positive.apply significand : Int) * 2 ^ place) =
              (sign.apply (mantissa * significand : Nat) : Int) * 2 ^ (exponent + place) := by
            rw [cast_apply, cast_apply sign (mantissa * significand), Sign.apply,
              zpow_add₀ (by norm_num)]
            push_cast
            ring
          have signs : sign * .positive = sign := by cases sign <;> rfl
          have fine : 2 ^ 52 ≤ mantissa * significand ∨ exponent + place ≤ -1074 := by
            by_contra! coarse
            obtain ⟨short, high⟩ := coarse
            have least := valid.least
            have otherLeast := otherValid.least
            rcases least.eq_or_lt with same | above
            · have great := otherValid.normal (by omega)
              have product := Nat.mul_le_mul positive great
              omega
            · have product := Nat.mul_le_mul (valid.normal above) otherPositive
              omega
          rw [product] at double ⊢
          change HasValue (roundWithAccuracy .binary64 (sign * .positive) _ _ .exact) _
          rw [signs]
          refine hasValue_roundWithAccuracy sign (Nat.mul_pos positive otherPositive) fine ?_
          cases sign with
          | positive => exact double
          | negative =>
              have opposite := double.neg
              rwa [Sign.apply, Int.cast_neg, neg_mul, neg_neg, Int.cast_natCast] at opposite

theorem HasValue.neg (first : HasValue left number) (filled : number ≠ 0) :
    HasValue (UnpackedFloat.neg left) (-number) := by
  cases first with
  | zero => exact absurd rfl filled
  | @finite sign mantissa exponent positive valid bounded =>
      have opposite : -(((sign.apply mantissa : Int) : ℚ) * 2 ^ exponent) =
          ((-sign).apply mantissa : Int) * 2 ^ exponent := by
        cases sign with
        | positive =>
            rw [← neg_mul, ← Int.cast_neg]
            rfl
        | negative =>
            rw [← neg_mul, ← Int.cast_neg, Sign.apply, neg_neg]
            rfl
      rw [opposite]
      exact .finite positive valid bounded

end Operations

/-! ## Doubles -/

section Doubles
variable {value other : Float} {first second number : ℚ}

theorem unpackMantissa_toNat (bits : BitVec 64) :
    (@unpackMantissa .binary64 bits).toNat = bits.toNat % exponentWeight := by
  simp [unpackMantissa, exponentWeight]

def isNegative : Sign → Bool
  | .negative => true
  | .positive => false

def partsOf : UnpackedFloat → BinaryParts
  | .notANumber => .notANumber
  | .infinity sign => .infinite (isNegative sign)
  | .zero sign => .finite (isNegative sign) 0 (-1074)
  | .finite sign mantissa exponent _ => .finite (isNegative sign) mantissa exponent

theorem isNegative_unpackSign (bits : BitVec 64) :
    isNegative (Sign.ofBitVec (@unpackSign .binary64 bits)) = decide (signWeight ≤ bits.toNat) := by
  have bound : bits.toNat < 2 ^ 64 := bits.isLt
  have weight : signWeight = 2 ^ 63 := rfl
  have number : (@unpackSign .binary64 bits).toNat = bits.toNat / 2 ^ 63 % 2 := by
    simp [unpackSign, Nat.shiftRight_eq_div_pow]
  have zero : @unpackSign .binary64 bits = 0#1 ↔ bits.toNat < 2 ^ 63 := by
    rw [← BitVec.toNat_inj, number]
    change _ = 0 ↔ _
    omega
  rw [Sign.ofBitVec, weight]
  split
  · rename_i positive
    rw [zero] at positive
    exact (decide_eq_false (by omega)).symm
  · rename_i negative
    rw [zero] at negative
    exact (decide_eq_true (by omega)).symm

theorem ofFloat_eq_partsOf (value : Float) :
    BinaryParts.ofFloat value = partsOf value.toModel.unpack := by
  change _ = partsOf (UnpackedFloat.unpack .binary64 value.toBits.toBitVec)
  have biased := unpackExponent_toNat value.toBits.toBitVec
  have fraction := unpackMantissa_toNat value.toBits.toBitVec
  have sign := isNegative_unpackSign value.toBits.toBitVec
  have bits : value.toBits.toNat = value.toBits.toBitVec.toNat := rfl
  have greatest : @unpackExponent .binary64 value.toBits.toBitVec = -1#11 ↔
      value.toBits.toBitVec.toNat / exponentWeight % 2048 = 2047 := by
    rw [← BitVec.toNat_inj, biased]
    rfl
  have least : @unpackExponent .binary64 value.toBits.toBitVec = 0#11 ↔
      value.toBits.toBitVec.toNat / exponentWeight % 2048 = 0 := by
    rw [← BitVec.toNat_inj, biased]
    rfl
  have empty : @unpackMantissa .binary64 value.toBits.toBitVec = 0#52 ↔
      value.toBits.toBitVec.toNat % exponentWeight = 0 := by
    rw [← BitVec.toNat_inj, fraction]
    rfl
  have bias : ((Format.binary64.exponentBias : Nat) : Int) = 1023 := rfl
  have width : ((Format.binary64.mantissaBitsWithoutImplicit : Nat) : Int) = 52 := rfl
  rw [BinaryParts.ofFloat, UnpackedFloat.unpack, bits]
  dsimp only
  by_cases great : value.toBits.toBitVec.toNat / exponentWeight % 2048 = 2047
  · rw [if_pos great, if_pos (greatest.mpr great)]
    by_cases noFraction : value.toBits.toBitVec.toNat % exponentWeight = 0
    · rw [if_pos noFraction, if_pos (empty.mpr noFraction), partsOf, sign]
    · rw [if_neg noFraction, if_neg (fun same => noFraction (empty.mp same)), partsOf]
  · rw [if_neg great, if_neg (fun same => great (greatest.mp same))]
    by_cases low : value.toBits.toBitVec.toNat / exponentWeight % 2048 = 0
    · rw [if_pos low, if_pos (least.mpr low)]
      by_cases noFraction : value.toBits.toBitVec.toNat % exponentWeight = 0
      · rw [dif_pos (empty.mpr noFraction), partsOf, sign, noFraction]
      · rw [dif_neg (fun same => noFraction (empty.mp same)), partsOf, sign, fraction, biased, low,
          bias, width]
        rfl
    · rw [if_neg low, if_neg (fun same => low (least.mp same)), partsOf, sign, toNat_one_append,
        fraction, biased, bias, width]
      rfl

theorem isNegative_eq {sign : Sign} {mantissa : Nat} {exponent : Int} (positive : 0 < mantissa) :
    isNegative sign = decide ((((sign.apply mantissa : Int) : ℚ) * 2 ^ exponent) < 0) := by
  have unit := two_zpow_pos exponent
  have above : (0 : ℚ) < mantissa := by exact_mod_cast positive
  cases sign with
  | positive =>
      rw [Sign.apply, Int.cast_natCast]
      exact (decide_eq_false (not_lt.mpr (mul_pos above unit).le)).symm
  | negative =>
      rw [Sign.apply, Int.cast_neg, Int.cast_natCast, neg_mul]
      exact (decide_eq_true (neg_neg_of_pos (mul_pos above unit))).symm

theorem HasValue.denotes (holds : HasValue value.toModel.unpack number) : Denotes value number := by
  rw [Denotes, ofFloat_eq_partsOf]
  generalize value.toModel.unpack = parts at holds ⊢
  cases holds with
  | zero => exact ⟨0, -1074, by simp [partsOf, isNegative], by simp⟩
  | @finite sign mantissa exponent positive valid bounded =>
      refine ⟨mantissa, exponent, by rw [partsOf, isNegative_eq positive], ?_⟩
      have unit := two_zpow_pos exponent
      rw [abs_mul, abs_of_pos unit]
      cases sign <;> simp [Sign.apply]

theorem Denotes.unique (denotes : Denotes value number) (again : Denotes other number) :
    value = other := by
  obtain ⟨mantissa, exponent, parts, same⟩ := denotes
  obtain ⟨significand, place, otherParts, otherSame⟩ := again
  obtain ⟨rfl, rfl⟩ := (inBinary64_of_ofFloat parts).unique (inBinary64_of_ofFloat otherParts)
    (same.symm.trans otherSame)
  exact ofFloat_injective parts otherParts

theorem exponent_le_of_ofFloat {negative : Bool} {mantissa : Nat} {exponent : Int}
    (parts : BinaryParts.ofFloat value = .finite negative mantissa exponent) : exponent ≤ 971 := by
  rw [BinaryParts.ofFloat] at parts
  split at parts
  · split at parts <;> cases parts
  · split at parts
    · cases parts
      decide
    · cases parts
      omega

theorem Denotes.hasValue (denotes : Denotes value number) :
    HasValue value.toModel.unpack number := by
  obtain ⟨mantissa, exponent, parts, same⟩ := denotes
  have valid := inBinary64_of_ofFloat parts
  have bounded := exponent_le_of_ofFloat parts
  rw [ofFloat_eq_partsOf] at parts
  generalize value.toModel.unpack = unpacked at parts
  cases unpacked with
  | notANumber => cases parts
  | infinity sign => cases parts
  | zero sign =>
      obtain ⟨negative, rfl, rfl⟩ := BinaryParts.finite.inj parts
      obtain rfl : number = 0 := by rwa [Nat.cast_zero, zero_mul, abs_eq_zero] at same
      cases sign with
      | positive => exact .zero
      | negative => simp [isNegative] at negative
  | finite sign mantissa exponent positive =>
      obtain ⟨negative, rfl, rfl⟩ := BinaryParts.finite.inj parts
      have value : number = ((sign.apply mantissa : Int) : ℚ) * 2 ^ exponent := by
        cases sign with
        | positive =>
            have above : 0 ≤ number := by simpa [isNegative] using negative
            rwa [abs_of_nonneg above] at same
        | negative =>
            have below : number < 0 := by simpa [isNegative] using negative
            rw [abs_of_neg below] at same
            rw [Sign.apply, Int.cast_neg, Int.cast_natCast, neg_mul, ← same, neg_neg]
      rw [value]
      exact .finite positive valid bounded

theorem Denotes.add (left : Denotes value first) (right : Denotes other second)
    (double : IsDouble (first + second)) : Denotes (value + other) (first + second) := by
  have sum := left.hasValue.add right.hasValue double
  refine HasValue.denotes ?_
  change HasValue (unpack .binary64 (pack .binary64 _)) _
  rw [sum.unpack_pack]
  exact sum

theorem Denotes.mul (left : Denotes value first) (right : Denotes other second)
    (above : 0 < second) (double : IsDouble (first * second)) :
    Denotes (value * other) (first * second) := by
  have product := left.hasValue.mul right.hasValue above double
  refine HasValue.denotes ?_
  change HasValue (unpack .binary64 (pack .binary64 _)) _
  rw [product.unpack_pack]
  exact product

theorem Denotes.neg (denotes : Denotes value number) (filled : number ≠ 0) :
    Denotes value.neg (-number) := by
  have opposite := denotes.hasValue.neg filled
  refine HasValue.denotes ?_
  change HasValue (unpack .binary64 (pack .binary64 _)) _
  rw [opposite.unpack_pack]
  exact opposite

theorem Denotes.isDouble (denotes : Denotes value number) : IsDouble number := by
  obtain ⟨mantissa, exponent, parts, same⟩ := denotes
  exact ⟨mantissa, exponent, inBinary64_of_ofFloat parts, exponent_le_of_ofFloat parts, same⟩

theorem unpack_zero : (0 : Float).toModel.unpack = .zero .positive := by
  rfl

theorem denotes_zero : Denotes 0 0 := by
  refine HasValue.denotes ?_
  rw [unpack_zero]
  exact .zero

theorem Denotes.isInf_eq_false (denotes : Denotes value number) : value.isInf = false := by
  have holds := denotes.hasValue
  change value.toModel.unpack.isInf = false
  generalize value.toModel.unpack = parts at holds
  cases holds <;> rfl

theorem Denotes.beq_zero (denotes : Denotes value number) (above : 0 < number) :
    (value == 0) = false := by
  have holds := denotes.hasValue
  change (value.toModel.unpack.compare (0 : Float).toModel.unpack == some .eq) = false
  rw [unpack_zero]
  generalize value.toModel.unpack = parts at holds
  cases holds with
  | zero => exact absurd above (lt_irrefl 0)
  | @finite sign mantissa exponent positive valid bounded => cases sign <;> rfl

theorem add_zero_of_denotes (denotes : Denotes value number) : value + 0 = value := by
  have sum := denotes.add denotes_zero (by rw [add_zero]; exact denotes.isDouble)
  rw [add_zero] at sum
  exact sum.unique denotes

theorem mul_zero_of_denotes (denotes : Denotes value number) (above : 0 ≤ number) :
    value * 0 = 0 := by
  have holds := denotes.hasValue
  have product : UnpackedFloat.mul .binary64 value.toModel.unpack (.zero .positive) =
      .zero .positive := by
    generalize value.toModel.unpack = parts at holds
    cases holds with
    | zero => rfl
    | @finite sign mantissa exponent positive valid bounded =>
        cases sign with
        | positive => rfl
        | negative =>
            have below := mul_pos (show (0 : ℚ) < mantissa by exact_mod_cast positive)
              (two_zpow_pos exponent)
            rw [Sign.apply, Int.cast_neg, Int.cast_natCast] at above
            linarith
  refine Denotes.unique (HasValue.denotes ?_) denotes_zero
  change HasValue (unpack .binary64 (pack .binary64 (UnpackedFloat.mul .binary64
    value.toModel.unpack (0 : Float).toModel.unpack))) _
  rw [unpack_zero, product]
  exact .zero

end Doubles

end SqlMetrics
