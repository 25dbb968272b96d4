import SqlMetrics.Decimal.Shortest
import SqlMetrics.Proofs.Decimal.Rounding
import SqlMetrics.Proofs.Decimal.Texts

/-! # The shortest decimal rounds to its double

A point lies in the rounding interval of a double if it lies between the midpoints to the
neighbours (`contains_ofParts`), and the search for the shortest decimal ends with such a point
(`contains_shortestDecimal`).  So the text of a finite double is a numeral that rounds to it
(`render_spells`). -/
set_option autoImplicit false
namespace SqlMetrics

/-! ## The rounding interval -/

theorem powerRatio_eq {base : Nat} (positive : 0 < base) (exponent : Int) :
    ((powerRatio base exponent).1 : ℚ) = base ^ exponent * (powerRatio base exponent).2 ∧
      0 < (powerRatio base exponent).2 := by
  refine ⟨?_, Nat.pow_pos positive⟩
  have nonzero : (base : ℚ) ≠ 0 := by exact_mod_cast positive.ne'
  change ((base ^ exponent.toNat : Nat) : ℚ) =
    base ^ exponent * ((base ^ (-exponent).toNat : Nat) : ℚ)
  push_cast
  rw [← zpow_natCast, ← zpow_natCast, ← zpow_add₀ nonzero]
  congr 1
  omega

theorem two_zpow_sub_two (exponent : Int) : (2 : ℚ) ^ (exponent - 2) = 1 / 4 * 2 ^ exponent := by
  rw [zpow_sub₀ (by norm_num)]
  norm_num
  ring

namespace RoundingInterval

variable {mantissa : Nat} {exponent : Int}

theorem le_iff_of_scaled {unit left right : ℚ} {low high : Nat} (positive : 0 < unit)
    (lowEq : (low : ℚ) = left * unit) (highEq : (high : ℚ) = right * unit) :
    low ≤ high ↔ left ≤ right := by
  rw [← mul_le_mul_iff_left₀ positive, ← lowEq, ← highEq, Nat.cast_le]

theorem lt_iff_of_scaled {unit left right : ℚ} {low high : Nat} (positive : 0 < unit)
    (lowEq : (low : ℚ) = left * unit) (highEq : (high : ℚ) = right * unit) :
    low < high ↔ left < right := by
  rw [← mul_lt_mul_iff_left₀ positive, ← lowEq, ← highEq, Nat.cast_lt]

theorem contains_ofParts (positive : 0 < mantissa) (point : Decimal) :
    (ofParts mantissa exponent).contains point = true ↔
      if mantissa % 2 = 0 then
        lowest mantissa exponent ≤ point.toRat ∧ point.toRat ≤ highest mantissa exponent
      else lowest mantissa exponent < point.toRat ∧ point.toRat < highest mantissa exponent := by
  obtain ⟨binary, binaryPositive⟩ := powerRatio_eq (by decide : 0 < 2) (exponent - 2)
  obtain ⟨decimal, decimalPositive⟩ := powerRatio_eq (by decide : 0 < 10) point.exponent
  rw [Nat.cast_ofNat] at binary decimal
  rw [contains, ofParts]
  dsimp only
  generalize powerRatio 2 (exponent - 2) = two at *
  generalize powerRatio 10 point.exponent = ten at *
  have unit : (0 : ℚ) < two.2 * ten.2 := by
    exact_mod_cast Nat.mul_pos binaryPositive decimalPositive
  have middle : ((point.digits * ten.1 * two.2 : Nat) : ℚ) = point.toRat * (two.2 * ten.2) := by
    push_cast
    rw [decimal, Decimal.toRat]
    ring
  have high : (((4 * mantissa + 2) * two.1 * ten.2 : Nat) : ℚ) =
      highest mantissa exponent * (two.2 * ten.2) := by
    push_cast
    rw [binary, two_zpow_sub_two, highest]
    ring
  have low : (((4 * mantissa - (if (mantissa = exponentWeight && -1074 < exponent) = true then 1
      else 2)) * two.1 * ten.2 : Nat) : ℚ) = lowest mantissa exponent * (two.2 * ten.2) := by
    have weight : exponentWeight = 2 ^ 52 := rfl
    simp only [Bool.and_eq_true, decide_eq_true_eq, weight]
    rw [lowest]
    split
    · rw [Nat.cast_mul, Nat.cast_mul, Nat.cast_sub (by omega), binary, two_zpow_sub_two]
      push_cast
      ring
    · rw [Nat.cast_mul, Nat.cast_mul, Nat.cast_sub (by omega), binary, two_zpow_sub_two]
      push_cast
      ring
  generalize (4 * mantissa - (if (mantissa = exponentWeight && -1074 < exponent) = true then 1
    else 2)) * two.1 * ten.2 = bottom at low ⊢
  generalize (4 * mantissa + 2) * two.1 * ten.2 = top at high ⊢
  generalize point.digits * ten.1 * two.2 = place at middle ⊢
  by_cases even : mantissa % 2 = 0
  · rw [if_pos (by simpa using even), if_pos even, Bool.and_eq_true, decide_eq_true_eq,
      decide_eq_true_eq, le_iff_of_scaled unit low middle, le_iff_of_scaled unit middle high]
  · rw [if_neg (by simpa using even), if_neg even, Bool.and_eq_true, decide_eq_true_eq,
      decide_eq_true_eq, lt_iff_of_scaled unit low middle, lt_iff_of_scaled unit middle high]

theorem roundHalfEven_cases (numerator denominator : Nat) :
    roundHalfEven numerator denominator = numerator / denominator ∨
      roundHalfEven numerator denominator = numerator / denominator + 1 := by
  rw [roundHalfEven]
  split_ifs <;> simp

theorem contains_of_nearestOnGrid? {interval : RoundingInterval} {point : Decimal}
    (found : interval.nearestOnGrid? exponent = some point) : interval.contains point = true := by
  rw [nearestOnGrid?] at found
  split at found
  · rename_i both
    rw [Bool.and_eq_true] at both
    cases found
    rcases roundHalfEven_cases (interval.middle * (powerRatio 10 exponent).2)
      (interval.scale * (powerRatio 10 exponent).1) with below | above
    · rw [below]
      exact both.1
    · rw [above]
      exact both.2
  · split at found
    · rename_i below
      cases found
      exact below
    · split at found
      · rename_i above
        cases found
        exact above
      · cases found

theorem exists_steps (mantissa : Nat) {place : Int} (whole : place ≤ 0) (fine : place ≤ exponent) :
    ∃ count : Nat, (count : ℚ) * 10 ^ place = mantissa * 2 ^ exponent := by
  refine ⟨mantissa * (2 ^ (exponent - place).toNat * 5 ^ (-place).toNat), ?_⟩
  have two : ((2 : ℚ) ^ (exponent - place).toNat) * 2 ^ place = 2 ^ exponent := by
    rw [← zpow_natCast, Int.toNat_of_nonneg (by omega), ← zpow_add₀ (by norm_num), sub_add_cancel]
  have five : ((5 : ℚ) ^ (-place).toNat) * 5 ^ place = 1 := by
    rw [← zpow_natCast, Int.toNat_of_nonneg (by omega), ← zpow_add₀ (by norm_num),
      neg_add_cancel, zpow_zero]
  have ten : (10 : ℚ) ^ place = 2 ^ place * 5 ^ place := by
    rw [← mul_zpow]
    norm_num
  push_cast
  calc (mantissa : ℚ) * (2 ^ (exponent - place).toNat * 5 ^ (-place).toNat) * 10 ^ place
      = mantissa * (2 ^ (exponent - place).toNat * 2 ^ place) *
          (5 ^ (-place).toNat * 5 ^ place) := by rw [ten]; ring
    _ = mantissa * 2 ^ exponent := by rw [two, five, mul_one]

theorem nearestOnGrid?_ne_none (positive : 0 < mantissa) {place : Int} (whole : place ≤ 0)
    (fine : place ≤ exponent) : (ofParts mantissa exponent).nearestOnGrid? place ≠ none := by
  obtain ⟨binary, binaryPositive⟩ := powerRatio_eq (by decide : 0 < 2) (exponent - 2)
  obtain ⟨decimal, decimalPositive⟩ := powerRatio_eq (by decide : 0 < 10) place
  obtain ⟨count, steps⟩ := exists_steps mantissa whole fine
  rw [Nat.cast_ofNat] at binary decimal
  -- The value is a point of the grid, so the last point up to the middle is the value.
  have inside : (ofParts mantissa exponent).contains ⟨count, place⟩ = true := by
    rw [contains_ofParts positive, Decimal.toRat, steps]
    have low := lowest_lt mantissa exponent
    have high := lt_highest mantissa exponent
    split
    · exact ⟨low.le, high.le⟩
    · exact ⟨low, high⟩
  have quotient : (ofParts mantissa exponent).middle * (powerRatio 10 place).2 /
      ((ofParts mantissa exponent).scale * (powerRatio 10 place).1) = count := by
    have multiple : (ofParts mantissa exponent).middle * (powerRatio 10 place).2 =
        count * ((ofParts mantissa exponent).scale * (powerRatio 10 place).1) := by
      have equal : (((ofParts mantissa exponent).middle * (powerRatio 10 place).2 : Nat) : ℚ) =
          ((count * ((ofParts mantissa exponent).scale * (powerRatio 10 place).1) : Nat) : ℚ) := by
        rw [ofParts]
        push_cast
        rw [binary, decimal, two_zpow_sub_two]
        calc 4 * (mantissa : ℚ) * (1 / 4 * 2 ^ exponent * (powerRatio 2 (exponent - 2)).2) *
              (powerRatio 10 place).2
            = (mantissa * 2 ^ exponent) *
                ((powerRatio 2 (exponent - 2)).2 * (powerRatio 10 place).2) := by ring
          _ = count * ((powerRatio 2 (exponent - 2)).2 *
                (10 ^ place * (powerRatio 10 place).2)) := by rw [← steps]; ring
      exact_mod_cast equal
    rw [multiple]
    refine Nat.mul_div_cancel count (Nat.mul_pos binaryPositive ?_)
    have ten : (0 : ℚ) < (powerRatio 10 place).1 := by
      rw [decimal]
      exact mul_pos (zpow_pos (by norm_num) place) (by exact_mod_cast decimalPositive)
    exact_mod_cast ten
  rw [nearestOnGrid?, quotient, inside, if_pos rfl]
  split <;> exact Option.some_ne_none _

/-- The search ends in the interval if one of the grids has a point there. -/
theorem contains_coarsest {interval : RoundingInterval} {steps : Nat} {place : Int}
    (found : ∃ count < steps, interval.nearestOnGrid? (place - count) ≠ none) :
    interval.contains (interval.coarsest place steps) = true := by
  induction steps generalizing place with
  | zero =>
      obtain ⟨count, before, -⟩ := found
      exact absurd before (Nat.not_lt_zero count)
  | succ steps ih =>
      rw [coarsest]
      cases here : interval.nearestOnGrid? place with
      | some point => exact contains_of_nearestOnGrid? here
      | none =>
          obtain ⟨count, before, there⟩ := found
          cases count with
          | zero => exact absurd (by simpa using here) there
          | succ count =>
              refine ih ⟨count, Nat.lt_of_succ_lt_succ before, ?_⟩
              have same : place - 1 - (count : Int) = place - ((count + 1 : Nat) : Int) := by
                push_cast
                ring
              rwa [same]

theorem contains_shortestDecimal (positive : 0 < mantissa) (least : -1074 ≤ exponent) :
    (ofParts mantissa exponent).contains (shortestDecimal mantissa exponent) = true := by
  have bound : -1099 ≤ decimalBound mantissa exponent := by
    rw [decimalBound]
    split <;> omega
  rw [shortestDecimal]
  refine contains_coarsest ⟨(decimalBound mantissa exponent + 1099).toNat, by omega, ?_⟩
  exact nearestOnGrid?_ne_none positive (by omega) (by omega)

end RoundingInterval

/-! ## Texts of doubles -/

/-- A numeral has the sign of a finite double, and its value rounds to the double. -/
def Numeral.Spells (numeral : Numeral) (value : Float) : Prop :=
  ∃ mantissa exponent,
    BinaryParts.ofFloat value = .finite numeral.negative mantissa exponent ∧
    RoundsTo numeral.toRat mantissa
      ((if numeral.negative then -1 else 1) * (mantissa * 2 ^ exponent))

theorem Numeral.Spells.unique {numeral : Numeral} {value other : Float}
    (spells : numeral.Spells value) (otherSpells : numeral.Spells other) : value = other := by
  obtain ⟨mantissa, exponent, parts, rounds⟩ := spells
  obtain ⟨significand, place, otherParts, otherRounds⟩ := otherSpells
  have valid := inBinary64_of_ofFloat parts
  have otherValid := inBinary64_of_ofFloat otherParts
  obtain ⟨rfl, rfl⟩ : mantissa = significand ∧ exponent = place := by
    cases sign : numeral.negative with
    | true =>
        rw [sign, if_pos rfl, neg_one_mul] at rounds otherRounds
        have positive := rounds.neg
        have otherPositive := otherRounds.neg
        rw [neg_neg] at positive otherPositive
        exact positive.unique valid otherValid otherPositive
    | false =>
        rw [sign, if_neg Bool.false_ne_true, one_mul] at rounds otherRounds
        exact rounds.unique valid otherValid otherRounds
  exact ofFloat_injective parts otherParts

theorem Numeral.Spells.iff_eq {numeral : Numeral} {value : Float} (spells : numeral.Spells value)
    (other : Float) : numeral.Spells other ↔ other = value := by
  constructor
  · exact fun otherSpells => otherSpells.unique spells
  · rintro rfl
    exact spells

/-- The decimal that a finite double is written as. -/
def writtenDecimal (mantissa : Nat) (exponent : Int) : Decimal :=
  if mantissa = 0 then ⟨0, 0⟩ else shortestDecimal mantissa exponent

theorem roundsTo_writtenDecimal {mantissa : Nat} {exponent : Int}
    (valid : InBinary64 mantissa exponent) :
    RoundsTo (writtenDecimal mantissa exponent).toRat mantissa (mantissa * 2 ^ exponent) := by
  rw [writtenDecimal]
  split
  · rename_i zero
    have same : (⟨0, 0⟩ : Decimal).toRat = mantissa * 2 ^ exponent := by
      simp [Decimal.toRat, zero]
    rw [same]
    exact roundsTo_self _ _
  · rename_i nonzero
    have positive := Nat.pos_of_ne_zero nonzero
    exact valid.roundsTo ((RoundingInterval.contains_ofParts positive _).mp
      (RoundingInterval.contains_shortestDecimal positive valid.least))

theorem writtenDecimal_zero {mantissa : Nat} {exponent : Int}
    (valid : InBinary64 mantissa exponent) (zero : (writtenDecimal mantissa exponent).digits = 0) :
    (writtenDecimal mantissa exponent).exponent ≤ 0 := by
  rw [writtenDecimal] at zero ⊢
  split at zero
  · rename_i nothing
    rw [if_pos nothing]
  · rename_i nonzero
    have positive := Nat.pos_of_ne_zero nonzero
    have above := lowest_pos positive exponent
    have inside := (RoundingInterval.contains_ofParts positive _).mp
      (RoundingInterval.contains_shortestDecimal positive valid.least)
    rw [Decimal.toRat, zero, Nat.cast_zero, zero_mul] at inside
    split at inside
    · exact absurd inside.1 (not_le.mpr above)
    · exact absurd inside.1 (lt_asymm above)

theorem text_render {style : FloatStyle} {value : Float} {negative : Bool} {mantissa : Nat}
    {exponent : Int} (parts : BinaryParts.ofFloat value = .finite negative mantissa exponent) :
    (Numeral.ofDecimal style negative (writtenDecimal mantissa exponent)).text
      style.exponentHasPlus = (style.render value).toList := by
  rw [Numeral.text_ofDecimal, FloatStyle.render, parts, writtenDecimal]

theorem spells_ofDecimal {style : FloatStyle} {value : Float} {negative : Bool} {mantissa : Nat}
    {exponent : Int} (parts : BinaryParts.ofFloat value = .finite negative mantissa exponent) :
    (Numeral.ofDecimal style negative (writtenDecimal mantissa exponent)).Spells value := by
  have rounds := roundsTo_writtenDecimal (inBinary64_of_ofFloat parts)
  refine ⟨mantissa, exponent, ?_, ?_⟩
  · rw [Numeral.negative_ofDecimal, parts]
  · rw [Numeral.toRat_ofDecimal, Numeral.negative_ofDecimal]
    cases negative with
    | true =>
        rw [if_pos rfl, neg_one_mul, neg_one_mul]
        exact rounds.neg
    | false =>
        rw [if_neg Bool.false_ne_true, one_mul, one_mul]
        exact rounds

theorem render_spells (style : FloatStyle) {value : Float} (finite : value.isFinite = true) :
    ∃ numeral : Numeral, numeral.text style.exponentHasPlus = (style.render value).toList ∧
      numeral.Proper ∧ numeral.Spells value := by
  obtain ⟨negative, mantissa, exponent, parts⟩ := (isFinite_iff_parts value).mp finite
  exact ⟨.ofDecimal style negative (writtenDecimal mantissa exponent), text_render parts,
    Numeral.proper_ofDecimal (writtenDecimal_zero (inBinary64_of_ofFloat parts)),
    spells_ofDecimal parts⟩

end SqlMetrics
