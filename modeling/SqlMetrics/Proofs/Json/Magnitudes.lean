import Mathlib.Algebra.Order.Field.Power
import SqlMetrics.Proofs.Decimal.Near
import SqlMetrics.Proofs.Json.Digits

/-! # How great a number may be

A number that is no integer of 64 bits is read in two steps, each of which may change it: digits
that do not fit are cut (`scaled_magnitude`), and what is left is scaled by rounding.  Still every
number up to `1.79769313486231e308` is read (`isSome_value?`), and none from `1.79769313486232e308`
on (`value?_eq_none`). -/
set_option autoImplicit false
namespace SqlMetrics

namespace Numeral

/-! ## The digits of a significand -/

section Digits
variable {digits : List Char} {digit : Char} {significand : Nat} {place : Int}

def behindPoint (digits : List Char) : ℚ :=
  digitsValue digits / 10 ^ digits.length

theorem behindPoint_cons (digit : Char) (rest : List Char) :
    behindPoint (digit :: rest) = ((digit.toNat - 48 : Nat) + behindPoint rest) / 10 := by
  have value := digitsValue_append [digit] rest
  have single : digitsValue [digit] = digit.toNat - 48 := Nat.zero_add _
  rw [List.singleton_append, single] at value
  rw [behindPoint, behindPoint, value, List.length_cons, Nat.cast_add, Nat.cast_mul, Nat.cast_pow,
    Nat.cast_ofNat, pow_succ]
  field_simp

theorem behindPoint_nonneg (digits : List Char) : 0 ≤ behindPoint digits :=
  div_nonneg (Nat.cast_nonneg _) (by positivity)

theorem behindPoint_lt_one (all : ∀ c ∈ digits, c.isDigit = true) : behindPoint digits < 1 := by
  have small : (digitsValue digits : ℚ) < 10 ^ digits.length := by
    exact_mod_cast digitsValue_lt all
  rw [behindPoint, div_lt_one (by positivity)]
  exact small

/-- A number is cut behind the digits of a significand, which are nearly all that fit. -/
structure CutTo (significand : Nat) (place : Int) (number : ℚ) : Prop where
  long : 10 ^ 18 ≤ significand
  lower : significand * 10 ^ place ≤ number
  upper : number < (significand + 1) * 10 ^ place

theorem foldl_addWholeDigit_raised {raised : Int} (positive : 0 < raised) :
    digits.foldl addWholeDigit (significand, raised) = (significand, raised + digits.length) := by
  induction digits generalizing raised with
  | nil => simp
  | cons digit rest ih =>
      have step : addWholeDigit (significand, raised) digit = (significand, raised + 1) := by
        simp [addWholeDigit, positive.ne']
      rw [List.foldl_cons, step, ih (by omega), List.length_cons, Nat.cast_succ]
      ring_nf

theorem long_of_not_fits (range : digit.isDigit = true)
    (full : ¬ significand * 10 + (digit.toNat - 48) < wordLimit) : 10 ^ 18 ≤ significand := by
  have small := digit_le_nine range
  have word : wordLimit = 2 ^ 64 := rfl
  omega

theorem foldl_addWholeDigit_cases (all : ∀ c ∈ digits, c.isDigit = true) (start : Nat) :
    digits.foldl addWholeDigit (start, 0) = (digitsFrom start digits, 0) ∨
      ∃ significand place : Nat,
        digits.foldl addWholeDigit (start, 0) = (significand, (place : Int)) ∧
        10 ^ 18 ≤ significand ∧ significand * 10 ^ place ≤ digitsFrom start digits ∧
        digitsFrom start digits < (significand + 1) * 10 ^ place := by
  induction digits generalizing start with
  | nil => exact .inl rfl
  | cons digit rest ih =>
      have later : ∀ c ∈ rest, c.isDigit = true := fun c among =>
        all c (List.mem_cons_of_mem digit among)
      rw [List.foldl_cons, addWholeDigit]
      by_cases fits : start * 10 + (digit.toNat - 48) < wordLimit
      · simp only [fits, decide_true, Bool.and_self, if_true]
        exact ih later _
      · right
        simp only [fits, decide_false, Bool.and_false, Bool.false_eq_true, if_false]
        rw [foldl_addWholeDigit_raised (by decide)]
        have small := digitsValue_lt all
        have value := digitsFrom_eq start (digit :: rest)
        refine ⟨start, rest.length + 1, ?_, long_of_not_fits (all digit List.mem_cons_self) fits,
          ?_, ?_⟩
        · push_cast
          ring_nf
        · rw [value]
          exact Nat.le_add_right _ _
        · rw [value, Nat.succ_mul]
          exact Nat.add_lt_add_left small _

theorem foldl_addWholeDigit_exact (all : ∀ c ∈ digits, c.isDigit = true)
    (whole : (digits.foldl addWholeDigit (0, 0)).2 = 0) :
    (digits.foldl addWholeDigit (0, 0)).1 = digitsValue digits := by
  rcases foldl_addWholeDigit_cases all 0 with fits | ⟨significand, place, state, -, lower, upper⟩
  · rw [fits]
    rfl
  · rw [state] at whole ⊢
    obtain rfl : place = 0 := Int.ofNat_eq_zero.mp whole
    change _ = digitsFrom 0 digits
    omega

/-- Digits behind the point go on with the significand; all of them fit, or they are cut. -/
theorem addFraction_cases (all : ∀ c ∈ digits, c.isDigit = true) (significand : Nat) (place : Int) :
    ∃ longer last, addFraction (significand, place) digits = (longer, last) ∧
      (significand : ℚ) * 10 ^ place ≤ longer * 10 ^ last ∧
      (longer : ℚ) * 10 ^ last < (significand + 1) * 10 ^ place ∧
      ((longer : ℚ) * 10 ^ last = (significand + behindPoint digits) * 10 ^ place ∨
        CutTo longer last ((significand + behindPoint digits) * 10 ^ place)) := by
  induction digits generalizing significand place with
  | nil =>
      have unit : (0 : ℚ) < 10 ^ place := by positivity
      refine ⟨significand, place, rfl, le_refl _, by linarith, .inl ?_⟩
      simp [behindPoint, digitsValue]
  | cons digit rest ih =>
      have unit : (0 : ℚ) < 10 ^ place := by positivity
      rw [addFraction]
      by_cases fits : significand * 10 + (digit.toNat - 48) < wordLimit
      · have small : ((digit.toNat - 48 : Nat) : ℚ) ≤ 9 := by
          exact_mod_cast digit_le_nine (all digit List.mem_cons_self)
        have least : (0 : ℚ) ≤ (digit.toNat - 48 : Nat) := Nat.cast_nonneg _
        have shift : (10 : ℚ) ^ (place - 1) = 10 ^ place / 10 := zpow_sub_one₀ (by norm_num) place
        obtain ⟨longer, last, read, lower, upper, rest⟩ :=
          ih (fun c among => all c (List.mem_cons_of_mem digit among))
            (significand * 10 + (digit.toNat - 48)) (place - 1)
        rw [if_pos fits, read]
        rw [shift, Nat.cast_add, Nat.cast_mul, Nat.cast_ofNat] at lower upper rest
        refine ⟨longer, last, rfl, le_trans ?_ lower, upper.trans_le ?_, ?_⟩
        · nlinarith
        · nlinarith
        · rw [behindPoint_cons]
          convert rest using 2 <;> ring
      · have least := behindPoint_nonneg (digit :: rest)
        have greatest := behindPoint_lt_one all
        rw [if_neg fits]
        refine ⟨significand, place, rfl, le_refl _, by linarith, .inr ⟨?_, ?_, ?_⟩⟩
        · exact long_of_not_fits (all digit List.mem_cons_self) fits
        · nlinarith
        · nlinarith

theorem addFraction_lt {state : Nat × Int} (small : state.1 < wordLimit) :
    (addFraction state digits).1 < wordLimit := by
  induction digits generalizing state with
  | nil => exact small
  | cons digit rest ih =>
      rw [addFraction]
      split_ifs with fits
      · exact ih fits
      · exact small

end Digits

/-! ## The significand -/

def cuttingUnit : ℚ :=
  1 / 10 ^ 18

def CutNear (first second : ℚ) : Prop :=
  first ≤ (1 + cuttingUnit) * second ∧ second ≤ (1 + cuttingUnit) * first

section Significand
variable {numeral : Numeral} {significand : Nat} {place : Int} {first second number : ℚ}

theorem CutNear.refl (above : 0 ≤ number) : CutNear number number := by
  have unit : (0 : ℚ) ≤ cuttingUnit := by norm_num [cuttingUnit]
  constructor <;> nlinarith

theorem CutTo.near (cut : CutTo significand place first) (again : CutTo significand place second) :
    CutNear first second := by
  have positive : (0 : ℚ) < 10 ^ place := by positivity
  have long : (10 : ℚ) ^ 18 ≤ significand := by exact_mod_cast cut.long
  have last : (10 : ℚ) ^ place ≤ cuttingUnit * (significand * 10 ^ place) := by
    rw [cuttingUnit, div_mul_eq_mul_div, one_mul, le_div_iff₀ (by positivity), mul_comm]
    exact mul_le_mul_of_nonneg_right long positive.le
  have unit : (0 : ℚ) ≤ cuttingUnit := by norm_num [cuttingUnit]
  have firstError := mul_le_mul_of_nonneg_left cut.lower unit
  have secondError := mul_le_mul_of_nonneg_left again.lower unit
  have firstUpper := cut.upper
  have secondUpper := again.upper
  constructor <;> linarith [cut.lower, again.lower]

theorem scaled_lt (numeral : Numeral) : numeral.scaled.1 < wordLimit :=
  addFraction_lt (foldl_addWholeDigit_lt (by decide))

/-- The digits that fit are nearly the whole number. -/
theorem scaled_near (proper : numeral.Proper) :
    CutNear (numeral.scaled.1 * 10 ^ numeral.scaled.2)
      (digitsValue numeral.whole + behindPoint numeral.fraction) := by
  have least := behindPoint_nonneg numeral.fraction
  have greatest := behindPoint_lt_one proper.fraction
  rw [scaled]
  rcases foldl_addWholeDigit_cases proper.whole 0 with fits | ⟨significand, place, state, long,
    lower, upper⟩
  · obtain ⟨longer, last, read, lower, -, whole | cut⟩ :=
      addFraction_cases proper.fraction (digitsFrom 0 numeral.whole) 0
    · rw [fits, read]
      rw [zpow_zero, mul_one] at whole
      rw [whole]
      exact .refl (add_nonneg (Nat.cast_nonneg _) least)
    · have positive : (0 : ℚ) < 10 ^ last := by positivity
      rw [zpow_zero, mul_one] at cut
      rw [fits, read]
      exact CutTo.near ⟨cut.long, le_refl _, by linarith⟩ cut
  · obtain ⟨longer, last, read, lowerRead, upperRead, -⟩ :=
      addFraction_cases proper.fraction significand place
    rw [state, read]
    have lowerCast : (significand : ℚ) * 10 ^ place ≤ digitsValue numeral.whole := by
      exact_mod_cast lower
    have upperCast : (digitsValue numeral.whole : ℚ) + 1 ≤ (significand + 1) * 10 ^ place := by
      exact_mod_cast upper
    rw [← zpow_natCast] at lowerCast upperCast
    exact CutTo.near ⟨long, lowerRead, upperRead⟩ ⟨long, by linarith, by linarith⟩

theorem abs_toRat (numeral : Numeral) : |numeral.toRat| =
    (digitsValue numeral.whole + behindPoint numeral.fraction) *
      10 ^ (numeral.exponent.getD 0) := by
  have sign : |(if numeral.negative then -1 else 1 : ℚ)| = 1 := by
    split <;> simp
  rw [toRat, abs_mul, abs_mul, sign, one_mul, Nat.abs_cast, abs_of_pos (by positivity),
    digitsValue_append, behindPoint, zpow_sub₀ (by norm_num), zpow_natCast]
  push_cast
  field_simp

def scaledExponent (numeral : Numeral) : Int :=
  numeral.scaled.2 + numeral.exponent.getD 0

theorem scaled_magnitude (proper : numeral.Proper) :
    CutNear (numeral.scaled.1 * 10 ^ numeral.scaledExponent) |numeral.toRat| := by
  obtain ⟨lower, upper⟩ := scaled_near proper
  have positive : (0 : ℚ) < 10 ^ (numeral.exponent.getD 0) := by positivity
  rw [abs_toRat, scaledExponent, zpow_add₀ (by norm_num), ← mul_assoc]
  constructor
  · rw [← mul_assoc]
    exact mul_le_mul_of_nonneg_right lower positive.le
  · rw [← mul_assoc]
    exact mul_le_mul_of_nonneg_right upper positive.le

end Significand

/-! ## Scaling -/

section Scaling
variable {value : Float} {count : Nat} {exponent : Int}

theorem isSome_scale?_of_neg (below : exponent < 0) : (scale? value exponent).isSome = true := by
  fun_induction scale? value exponent with
  | case1 => omega
  | case2 => omega
  | case3 => omega
  | case4 => omega
  | case5 => rfl
  | case6 => rfl
  | case7 value exponent _ _ low _ ih => exact ih (by omega)

theorem doublesEnd_lt_ten_pow : doublesEnd < (10 : ℚ) ^ (309 : Int) := by
  have powers : 2 ^ 1024 < 10 ^ 154 * 10 ^ 155 := by decide +kernel
  have powersCast : ((2 ^ 1024 : Nat) : ℚ) < 10 ^ 154 * 10 ^ 155 := by exact_mod_cast powers
  rwa [doublesEnd_eq, show (309 : Int) = (154 + 155 : Nat) from rfl, zpow_natCast, pow_add]

theorem ten_pow_inside (exponent : Fin 309) :
    (2 ^ 52 + 1) * 10 ^ exponent.val < 2 ^ 52 * 2 ^ 1024 := by
  revert exponent
  decide +kernel

theorem denotes_tenPower {exponent : Nat} (few : exponent ≤ 308) :
    ∃ power, Denotes (tenPower exponent) power ∧ Near power (10 ^ exponent) := by
  have great : (1 + roundingUnit) * ((1 : Nat) * 10 ^ exponent) < doublesEnd := by
    have inside := ten_pow_inside ⟨exponent, Nat.lt_succ_of_le few⟩
    have insideCast : ((2 ^ 52 + 1 : ℚ)) * 10 ^ exponent < 2 ^ 52 * (2 ^ 1024 : Nat) := by
      exact_mod_cast inside
    rw [doublesEnd_eq, Nat.cast_one, one_mul, roundingUnit, one_add_div (by positivity),
      div_mul_eq_mul_div, div_lt_iff₀ (by positivity), mul_comm _ ((2 : ℚ) ^ 52)]
    exact insideCast
  have near := exists_ofScientific_near (by decide) (by omega) great
  rwa [Nat.cast_one, one_mul] at near

/-- Both factors of a number that is scaled are near. -/
theorem exists_factors (filled : 0 < count) (word : count < wordLimit) (least : 0 ≤ exponent)
    (few : exponent ≤ 308) :
    ∃ first second, Denotes (Float.ofNat count) first ∧ Near first count ∧
      Denotes (tenPower exponent.toNat) second ∧ Near second (10 ^ exponent) ∧
      1 / 2 ≤ first ∧ 1 / 2 ≤ second := by
  obtain ⟨places, rfl⟩ := Int.eq_ofNat_of_zero_le least
  obtain ⟨first, leading, firstNear⟩ := exists_ofNat_near filled word
  obtain ⟨second, power, secondNear⟩ := denotes_tenPower (show places ≤ 308 by omega)
  have one : (1 : ℚ) ≤ count := by exact_mod_cast filled
  have place : (1 : ℚ) ≤ 10 ^ places := one_le_pow₀ (by norm_num)
  rw [zpow_natCast]
  exact ⟨first, second, leading, firstNear, power, secondNear, firstNear.half_le one,
    secondNear.half_le place⟩

theorem isSome_scale?_zero (least : 0 ≤ exponent) : (scale? 0 exponent).isSome = true := by
  obtain ⟨places, rfl⟩ := Int.eq_ofNat_of_zero_le least
  rw [scale?]
  split_ifs with great zero
  · rfl
  · exact absurd rfl zero
  · obtain ⟨power, denotes, near⟩ := denotes_tenPower (show places ≤ 308 by omega)
    have above := near.half_le (one_le_pow₀ (by norm_num))
    have product := denotes_zero.mul denotes (by linarith)
      (by rw [zero_mul]; exact denotes_zero.isDouble)
    change (if (0 * tenPower places).isInf then none else some _).isSome = true
    rw [product.isInf_eq_false]
    rfl

theorem exponent_le_of_inside (filled : 0 < count)
    (inside : (1 + roundingUnit) ^ 3 * (count * 10 ^ exponent) < doublesEnd) :
    exponent ≤ 308 := by
  by_contra! great
  have unit : (0 : ℚ) ≤ roundingUnit := by norm_num [roundingUnit]
  have one : (1 : ℚ) ≤ count := by exact_mod_cast filled
  have power : (10 : ℚ) ^ (309 : Int) ≤ 10 ^ exponent :=
    zpow_le_zpow_right₀ (by norm_num) (by omega)
  have error : 1 ≤ (1 + roundingUnit) ^ 3 := one_le_pow₀ (by linarith)
  have product : (10 : ℚ) ^ (309 : Int) ≤ (1 + roundingUnit) ^ 3 * (count * 10 ^ exponent) :=
    calc (10 : ℚ) ^ (309 : Int) ≤ 10 ^ exponent := power
      _ ≤ count * 10 ^ exponent := le_mul_of_one_le_left (by positivity) one
      _ ≤ _ := le_mul_of_one_le_left (by positivity) error
  exact absurd inside (not_lt.mpr (doublesEnd_lt_ten_pow.le.trans product))

/-- A number that stays inside the doubles when it is rounded three times is scaled. -/
theorem isSome_scale? (word : count < wordLimit)
    (inside : (1 + roundingUnit) ^ 3 * (count * 10 ^ exponent) < doublesEnd) :
    (scale? (Float.ofNat count) exponent).isSome = true := by
  rcases lt_or_ge exponent 0 with negative | least
  · exact isSome_scale?_of_neg negative
  rcases Nat.eq_zero_or_pos count with rfl | filled
  · exact isSome_scale?_zero least
  have unit : (0 : ℚ) ≤ roundingUnit := by norm_num [roundingUnit]
  have few := exponent_le_of_inside filled inside
  obtain ⟨first, second, leading, firstNear, power, secondNear, firstAbove, secondAbove⟩ :=
    exists_factors filled word least few
  have below : (1 + roundingUnit) * (first * second) < doublesEnd := by
    refine lt_of_le_of_lt ?_ inside
    have product := mul_le_mul firstNear.2 secondNear.2 (by linarith) (by positivity)
    calc (1 + roundingUnit) * (first * second)
        ≤ (1 + roundingUnit) *
            ((1 + roundingUnit) * count * ((1 + roundingUnit) * 10 ^ exponent)) :=
          mul_le_mul_of_nonneg_left product (by linarith)
      _ = (1 + roundingUnit) ^ 3 * (count * 10 ^ exponent) := by ring
  obtain ⟨number, denotes, -⟩ := leading.exists_mul_near power firstAbove secondAbove below
  rw [scale?, if_neg (by omega), if_pos least]
  simp only [denotes.isInf_eq_false, Bool.false_eq_true, if_false, Option.isSome_some]

/-- A number that is beyond the doubles even when it is rounded down three times is none. -/
theorem scale?_eq_none (word : count < wordLimit)
    (beyond : doublesEnd ≤ (1 - roundingUnit) ^ 3 * (count * 10 ^ exponent)) :
    scale? (Float.ofNat count) exponent = none := by
  have unit : (0 : ℚ) ≤ 1 - roundingUnit := by norm_num [roundingUnit]
  have room : (2 : ℚ) ^ (64 : Int) < doublesEnd := zpow_lt_zpow_right₀ (by norm_num) (by decide)
  have filled : 0 < count := by
    refine Nat.pos_of_ne_zero ?_
    rintro rfl
    norm_num at beyond room
    linarith
  have least : 0 ≤ exponent := by
    by_contra! below
    have power : (10 : ℚ) ^ exponent ≤ 1 := zpow_le_one_of_nonpos₀ (by norm_num) below.le
    have error : (1 - roundingUnit) ^ 3 ≤ 1 := pow_le_one₀ unit (by norm_num [roundingUnit])
    have small : (count : ℚ) < 2 ^ (64 : Int) := by exact_mod_cast word
    have product : (1 - roundingUnit) ^ 3 * (count * 10 ^ exponent) ≤ count :=
      calc (1 - roundingUnit) ^ 3 * (count * 10 ^ exponent) ≤ count * 10 ^ exponent :=
            mul_le_of_le_one_left (by positivity) error
        _ ≤ count := mul_le_of_le_one_right (Nat.cast_nonneg count) power
    linarith
  rcases lt_or_ge 308 exponent with great | few
  · obtain ⟨first, leading, near⟩ := exists_ofNat_near filled word
    have one : (1 : ℚ) ≤ count := by exact_mod_cast filled
    rw [scale?, if_pos great, leading.beq_zero (by linarith [near.half_le one])]
    rfl
  · obtain ⟨first, second, leading, firstNear, power, secondNear, firstAbove, secondAbove⟩ :=
      exists_factors filled word least few
    have above : doublesEnd ≤ (1 - roundingUnit) * (first * second) := by
      refine beyond.trans ?_
      have product := mul_le_mul firstNear.1 secondNear.1
        (mul_nonneg unit (by positivity)) (by linarith)
      calc (1 - roundingUnit) ^ 3 * (count * 10 ^ exponent)
          = (1 - roundingUnit) *
              ((1 - roundingUnit) * count * ((1 - roundingUnit) * 10 ^ exponent)) := by ring
        _ ≤ (1 - roundingUnit) * (first * second) := mul_le_mul_of_nonneg_left product unit
    have infinite := leading.isInf_mul power firstAbove secondAbove above
    rw [scale?, if_neg (by omega), if_pos least]
    simp only [infinite, if_true]

end Scaling

/-! ## Numbers -/

section Numbers
variable {numeral : Numeral}

theorem errors_inside : (1 + roundingUnit) ^ 3 *
    ((1 + cuttingUnit) * (179769313486231 * (10 ^ 147 * 10 ^ 147))) < doublesEnd := by
  have inside : (2 ^ 52 + 1) ^ 3 * ((10 ^ 18 + 1) * (179769313486231 * (10 ^ 147 * 10 ^ 147))) <
      2 ^ 1024 * ((2 ^ 52) ^ 3 * 10 ^ 18) := by decide +kernel
  have insideCast : ((2 ^ 52 + 1) ^ 3 * ((10 ^ 18 + 1) * (179769313486231 *
      (10 ^ 147 * 10 ^ 147))) : ℚ) < (2 ^ 1024 : Nat) * ((2 ^ 52) ^ 3 * 10 ^ 18) := by
    exact_mod_cast inside
  have shape {rounding cutting : ℚ} (first : 0 < rounding) (second : 0 < cutting) (bound : ℚ) :
      (1 + 1 / rounding) ^ 3 * ((1 + 1 / cutting) * bound) =
        (rounding + 1) ^ 3 * ((cutting + 1) * bound) / (rounding ^ 3 * cutting) := by
    field_simp
  rw [doublesEnd_eq, roundingUnit, cuttingUnit, shape (by positivity) (by positivity),
    div_lt_iff₀ (by positivity)]
  exact insideCast

theorem errors_beyond : doublesEnd * (1 + cuttingUnit) ≤
    (1 - roundingUnit) ^ 3 * (179769313486232 * (10 ^ 147 * 10 ^ 147)) := by
  have beyond : 2 ^ 1024 * (10 ^ 18 + 1) * (2 ^ 52) ^ 3 ≤
      (2 ^ 52 - 1) ^ 3 * (179769313486232 * (10 ^ 147 * 10 ^ 147)) * 10 ^ 18 := by decide +kernel
  have beyondCast : ((2 ^ 1024 : Nat) * (10 ^ 18 + 1) * (2 ^ 52) ^ 3 : ℚ) ≤
      (2 ^ 52 - 1) ^ 3 * (179769313486232 * (10 ^ 147 * 10 ^ 147)) * 10 ^ 18 := by
    have one : 1 ≤ 2 ^ 52 := by decide
    exact_mod_cast beyond
  have cut {cutting : ℚ} (positive : 0 < cutting) (bound : ℚ) :
      bound * (1 + 1 / cutting) = bound * (cutting + 1) / cutting := by
    field_simp
  have rounded {rounding : ℚ} (positive : 0 < rounding) (bound : ℚ) :
      (1 - 1 / rounding) ^ 3 * bound = (rounding - 1) ^ 3 * bound / rounding ^ 3 := by
    field_simp
  rw [doublesEnd_eq, roundingUnit, cuttingUnit, cut (by positivity), rounded (by positivity),
    div_le_div_iff₀ (by positivity) (by positivity)]
  exact beyondCast

def withSign (negative : Bool) (magnitude : Float) : Float :=
  if negative then -magnitude else magnitude

/-- A number is an integer of 64 bits, or it is scaled. -/
theorem value?_cases (proper : numeral.Proper) :
    (∃ number, ∃ count : Nat, numeral.value? = some number ∧ count < wordLimit ∧
      |numeral.toRat| = count ∧ number.toFloat = withSign numeral.negative (Float.ofNat count)) ∨
    numeral.value? = (scale? (Float.ofNat numeral.scaled.1) numeral.scaledExponent).map
      fun magnitude => .real (withSign numeral.negative magnitude) := by
  have small : (numeral.whole.foldl addWholeDigit (0, 0)).1 < wordLimit :=
    foldl_addWholeDigit_lt (by decide)
  rw [value?]
  dsimp only
  by_cases whole : (numeral.fraction.isEmpty && numeral.exponent.isNone &&
      decide ((numeral.whole.foldl addWholeDigit (0, 0)).2 = 0)) = true
  · left
    have magnitude : |numeral.toRat| = (numeral.whole.foldl addWholeDigit (0, 0)).1 := by
      simp only [Bool.and_eq_true, decide_eq_true_eq, List.isEmpty_iff, Option.isNone_iff_eq_none]
        at whole
      rw [foldl_addWholeDigit_exact proper.whole whole.2, abs_toRat, whole.1.1, whole.1.2,
        behindPoint, Option.getD_none, zpow_zero, mul_one]
      simp [digitsValue]
    generalize (numeral.whole.foldl addWholeDigit (0, 0)).1 = count at small magnitude
    rw [if_pos whole]
    cases numeral.negative with
    | false => exact ⟨_, count, rfl, small, magnitude, rfl⟩
    | true =>
        rw [if_neg (by decide)]
        split_ifs with special
        · exact ⟨_, count, rfl, small, magnitude, rfl⟩
        · refine ⟨_, count, rfl, small, magnitude, ?_⟩
          cases count with
          | zero => simp at special
          | succ count => rfl
  · rw [if_neg whole]
    exact .inr rfl

theorem isSome_value? (proper : numeral.Proper)
    (inside : |numeral.toRat| ≤ 179769313486231 * 10 ^ 294) :
    numeral.value?.isSome = true := by
  rcases value?_cases proper with ⟨number, count, value, -⟩ | value
  · rw [value]
    rfl
  · have unit : (0 : ℚ) ≤ (1 + roundingUnit) ^ 3 := by norm_num [roundingUnit]
    have cutting : (0 : ℚ) ≤ 1 + cuttingUnit := by norm_num [cuttingUnit]
    have near := (scaled_magnitude proper).1
    have below : (1 + roundingUnit) ^ 3 *
        (numeral.scaled.1 * 10 ^ numeral.scaledExponent) < doublesEnd :=
      calc (1 + roundingUnit) ^ 3 * (numeral.scaled.1 * 10 ^ numeral.scaledExponent)
          ≤ (1 + roundingUnit) ^ 3 *
              ((1 + cuttingUnit) * (179769313486231 * (10 ^ 147 * 10 ^ 147))) := by
            refine mul_le_mul_of_nonneg_left (near.trans ?_) unit
            rw [← pow_add]
            exact mul_le_mul_of_nonneg_left inside cutting
        _ < doublesEnd := errors_inside
    rw [value, Option.isSome_map, isSome_scale? (scaled_lt numeral) below]

theorem value?_eq_none (proper : numeral.Proper)
    (beyond : 179769313486232 * 10 ^ 294 ≤ |numeral.toRat|) : numeral.value? = none := by
  rcases value?_cases proper with ⟨number, count, -, small, magnitude, -⟩ | value
  · have bits : (count : ℚ) < 2 ^ 64 := by exact_mod_cast small
    have word : (2 : ℚ) ^ 64 ≤ 179769313486232 * 10 ^ 6 := by norm_num
    have power : (10 : ℚ) ^ 6 ≤ 10 ^ 294 := pow_le_pow_right₀ (by norm_num) (by decide)
    have great := word.trans (mul_le_mul_of_nonneg_left power (by norm_num))
    rw [magnitude] at beyond
    exact absurd bits (not_lt.mpr (great.trans beyond))
  · have unit : (0 : ℚ) ≤ (1 - roundingUnit) ^ 3 := by norm_num [roundingUnit]
    have cutting : (0 : ℚ) < 1 + cuttingUnit := by norm_num [cuttingUnit]
    have near := (scaled_magnitude proper).2
    have above : doublesEnd ≤ (1 - roundingUnit) ^ 3 *
        (numeral.scaled.1 * 10 ^ numeral.scaledExponent) := by
      refine le_of_mul_le_mul_right ?_ cutting
      calc doublesEnd * (1 + cuttingUnit)
          ≤ (1 - roundingUnit) ^ 3 * (179769313486232 * (10 ^ 147 * 10 ^ 147)) := errors_beyond
        _ ≤ (1 - roundingUnit) ^ 3 *
              ((1 + cuttingUnit) * (numeral.scaled.1 * 10 ^ numeral.scaledExponent)) := by
            refine mul_le_mul_of_nonneg_left (le_trans ?_ near) unit
            rw [← pow_add]
            exact beyond
        _ = _ := by ring
    rw [value, scale?_eq_none (scaled_lt numeral) above]
    rfl

end Numbers

end Numeral
end SqlMetrics
