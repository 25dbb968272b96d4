import Mathlib
import SqlMetrics.Decimal.Binary

/-! # Rounding to doubles

The numbers that doubles would have without a greatest exponent form a grid.  A rational rounds to
a number of the grid if no other one is nearer (`RoundsTo`).  What lies between the midpoints to the
neighbours of a double rounds to it (`InBinary64.roundsTo`).  All of Mathlib is imported because
the lemmas on the bits of floats come with no single file of it. -/
set_option autoImplicit false
namespace SqlMetrics

/-! ## Doubles -/

section Parts
open Float.Model.UnpackedFloat

theorem unpackExponent_toNat (bits : BitVec 64) :
    (@unpackExponent .binary64 bits).toNat = bits.toNat / exponentWeight % 2048 := by
  simp [unpackExponent, exponentWeight, Nat.shiftRight_eq_div_pow]

theorem isFinite_iff_bits (value : Float) :
    value.isFinite = true ↔ value.toBits.toNat / exponentWeight % 2048 ≠ 2047 := by
  have bits := unpackExponent_toNat value.toBits.toBitVec
  have ones : @unpackExponent .binary64 value.toBits.toBitVec = -1#11 ↔
      value.toBits.toNat / exponentWeight % 2048 = 2047 := by
    rw [← BitVec.toNat_inj, bits]
    rfl
  change (unpack .binary64 value.toBits.toBitVec).isFinite = true ↔ _
  rw [ne_eq, ← ones, unpack]
  split
  · rename_i great
    split <;> exact iff_of_false Bool.false_ne_true (not_not.mpr great)
  · rename_i ordinary
    split
    · split <;> exact iff_of_true rfl ordinary
    · exact iff_of_true rfl ordinary

theorem isFinite_iff_parts (value : Float) : value.isFinite = true ↔
    ∃ negative mantissa exponent,
      BinaryParts.ofFloat value = .finite negative mantissa exponent := by
  rw [isFinite_iff_bits, BinaryParts.ofFloat]
  split
  · rename_i great
    split <;> simp [great]
  · rename_i ordinary
    split <;> simp [ordinary]

theorem isNaN_or_isInf (value : Float) : (value.isNaN || value.isInf) = !value.isFinite := by
  let unpacked := unpack .binary64 value.toBits.toBitVec
  change (unpacked.isNaN || unpacked.isInf) = !unpacked.isFinite
  cases unpacked <;> rfl

end Parts

/-- The parts of a double: the mantissa has 53 bits, and all of them are used above the least
place. -/
structure InBinary64 (mantissa : Nat) (exponent : Int) : Prop where
  bounded : mantissa < 2 ^ 53
  least : -1074 ≤ exponent
  normal : -1074 < exponent → 2 ^ 52 ≤ mantissa

theorem inBinary64_of_ofFloat {value : Float} {negative : Bool} {mantissa : Nat} {exponent : Int}
    (parts : BinaryParts.ofFloat value = .finite negative mantissa exponent) :
    InBinary64 mantissa exponent := by
  rw [BinaryParts.ofFloat] at parts
  have fraction : value.toBits.toNat % exponentWeight < 2 ^ 52 := Nat.mod_lt _ (by decide)
  have weight : exponentWeight = 2 ^ 52 := rfl
  split at parts
  · split at parts <;> cases parts
  · split at parts
    · cases parts
      exact ⟨by omega, le_refl _, fun above => absurd above (lt_irrefl _)⟩
    · cases parts
      exact ⟨by omega, by omega, fun _ => by omega⟩

theorem toBits_of_ofFloat {value : Float} {negative : Bool} {mantissa : Nat} {exponent : Int}
    (parts : BinaryParts.ofFloat value = .finite negative mantissa exponent) :
    value.toBits.toNat = (if negative then 1 else 0) * 2 ^ 63 +
      (if mantissa < 2 ^ 52 then mantissa
        else (exponent + 1075).toNat * 2 ^ 52 + (mantissa - 2 ^ 52)) := by
  rw [BinaryParts.ofFloat] at parts
  have bound := value.toBits.toNat_lt
  have weight : exponentWeight = 2 ^ 52 := rfl
  have sign : signWeight = 2 ^ 63 := rfl
  simp only [weight, sign] at parts
  generalize value.toBits.toNat = bits at parts bound ⊢
  split at parts
  · split at parts <;> cases parts
  · split at parts
    · cases parts
      simp only [decide_eq_true_eq]
      split <;> split <;> omega
    · cases parts
      simp only [decide_eq_true_eq]
      split <;> split <;> omega

theorem ofFloat_injective {value other : Float} {negative : Bool} {mantissa : Nat} {exponent : Int}
    (parts : BinaryParts.ofFloat value = .finite negative mantissa exponent)
    (same : BinaryParts.ofFloat other = .finite negative mantissa exponent) : value = other := by
  obtain ⟨⟨bits, valid⟩⟩ := value
  obtain ⟨⟨otherBits, otherValid⟩⟩ := other
  obtain rfl : bits = otherBits :=
    UInt64.toNat.inj ((toBits_of_ofFloat parts).trans (toBits_of_ofFloat same).symm)
  rfl

/-! ## The binary grid -/

/-- The numbers that doubles would have without a greatest exponent. -/
def OnBinaryGrid (number : ℚ) : Prop :=
  ∃ mantissa exponent : Int, |mantissa| < 2 ^ 53 ∧ -1074 ≤ exponent ∧
    number = mantissa * 2 ^ exponent

section Grid
variable {mantissa significand : Nat} {exponent place : Int} {other : ℚ}

theorem two_zpow_pos (exponent : Int) : (0 : ℚ) < 2 ^ exponent :=
  zpow_pos (by norm_num) exponent

theorem two_zpow_of_le (below : exponent ≤ place) :
    (2 : ℚ) ^ place = 2 ^ (place - exponent).toNat * 2 ^ exponent := by
  rw [← zpow_natCast, Int.toNat_of_nonneg (by omega), ← zpow_add₀ (by norm_num), sub_add_cancel]

theorem two_zpow_pred (exponent : Int) : (2 : ℚ) ^ exponent = 2 * 2 ^ (exponent - 1) := by
  rw [← zpow_one_add₀ (by norm_num)]
  congr 1
  omega

/-- A number of the grid is a multiple of the last place of a double, or it lies below all doubles
with that last place. -/
theorem OnBinaryGrid.cases (on : OnBinaryGrid other) (exponent : Int) :
    (∃ count : Int, other = count * 2 ^ exponent) ∨
    -1074 < exponent ∧ other ≤ (2 ^ 53 - 1) * 2 ^ (exponent - 1) := by
  obtain ⟨significand, place, bounded, least, rfl⟩ := on
  rcases le_or_gt exponent place with above | below
  · refine .inl ⟨significand * 2 ^ (place - exponent).toNat, ?_⟩
    push_cast
    rw [two_zpow_of_le above, mul_assoc]
  · refine .inr ⟨by omega, ?_⟩
    have greatest : (significand : ℚ) ≤ 2 ^ 53 - 1 := by
      have bound := (abs_lt.mp bounded).2
      exact_mod_cast Int.le_sub_one_of_lt bound
    have higher : (2 : ℚ) ^ place ≤ 2 ^ (exponent - 1) :=
      zpow_le_zpow_right₀ (by norm_num) (by omega)
    calc (significand : ℚ) * 2 ^ place ≤ (2 ^ 53 - 1) * 2 ^ place :=
          mul_le_mul_of_nonneg_right greatest (two_zpow_pos place).le
      _ ≤ (2 ^ 53 - 1) * 2 ^ (exponent - 1) :=
          mul_le_mul_of_nonneg_left higher (by norm_num)

theorem InBinary64.next_above (valid : InBinary64 mantissa exponent) (on : OnBinaryGrid other)
    (above : mantissa * 2 ^ exponent < other) : (mantissa + 1) * 2 ^ exponent ≤ other := by
  have positive := two_zpow_pos exponent
  rcases on.cases exponent with ⟨count, rfl⟩ | ⟨normal, small⟩
  · have more : ((mantissa : Int) : ℚ) < count := lt_of_mul_lt_mul_right above positive.le
    have next : (mantissa : Int) + 1 ≤ count := Int.add_one_le_of_lt (by exact_mod_cast more)
    refine mul_le_mul_of_nonneg_right ?_ positive.le
    exact_mod_cast next
  · have great : (2 : ℚ) ^ 52 ≤ mantissa := by exact_mod_cast valid.normal normal
    rw [two_zpow_pred exponent] at above positive
    nlinarith

/-- The next number of the grid below a double is one step away, or half a step below a power of
two. -/
theorem InBinary64.next_below (valid : InBinary64 mantissa exponent) (on : OnBinaryGrid other)
    (below : other < mantissa * 2 ^ exponent) :
    other ≤ (mantissa - 1) * 2 ^ exponent ∨
    mantissa = 2 ^ 52 ∧ -1074 < exponent ∧ other ≤ (mantissa - 1 / 2) * 2 ^ exponent := by
  have positive := two_zpow_pos exponent
  rcases on.cases exponent with ⟨count, rfl⟩ | ⟨normal, small⟩
  · have less : (count : ℚ) < (mantissa : Int) := lt_of_mul_lt_mul_right below positive.le
    have next : count ≤ (mantissa : Int) - 1 := Int.le_sub_one_of_lt (by exact_mod_cast less)
    refine .inl (mul_le_mul_of_nonneg_right ?_ positive.le)
    exact_mod_cast next
  · have great := valid.normal normal
    rw [two_zpow_pred exponent] at positive ⊢
    rcases great.eq_or_lt with same | more
    · refine .inr ⟨same.symm, normal, ?_⟩
      rw [← same]
      push_cast
      linarith
    · left
      have next : (2 : ℚ) ^ 52 + 1 ≤ mantissa := by exact_mod_cast more
      nlinarith

theorem eq_mul_of_le (below : exponent ≤ place)
    (same : (mantissa : ℚ) * 2 ^ exponent = significand * 2 ^ place) :
    mantissa = significand * 2 ^ (place - exponent).toNat := by
  rw [two_zpow_of_le below, ← mul_assoc] at same
  exact_mod_cast mul_right_cancel₀ (two_zpow_pos exponent).ne' same

theorem InBinary64.exponent_le (valid : InBinary64 mantissa exponent)
    (otherValid : InBinary64 significand place)
    (same : (mantissa : ℚ) * 2 ^ exponent = significand * 2 ^ place) : place ≤ exponent := by
  by_contra! less
  have great := otherValid.normal (valid.least.trans_lt less)
  have bound := valid.bounded
  have two : 2 ^ 1 ≤ 2 ^ (place - exponent).toNat := Nat.pow_le_pow_right (by decide) (by omega)
  rw [eq_mul_of_le less.le same] at bound
  have product := Nat.mul_le_mul great two
  omega

theorem InBinary64.unique (valid : InBinary64 mantissa exponent)
    (otherValid : InBinary64 significand place)
    (same : (mantissa : ℚ) * 2 ^ exponent = significand * 2 ^ place) :
    mantissa = significand ∧ exponent = place := by
  obtain rfl : exponent = place :=
    le_antisymm (otherValid.exponent_le valid same.symm) (valid.exponent_le otherValid same)
  refine ⟨?_, rfl⟩
  have equal := eq_mul_of_le (le_refl exponent) same
  rwa [sub_self, Int.toNat_zero, pow_zero, Nat.mul_one] at equal

theorem InBinary64.odd_of_next (valid : InBinary64 mantissa exponent)
    (otherValid : InBinary64 significand place)
    (next : ((mantissa : ℚ) + 1) * 2 ^ exponent = significand * 2 ^ place) :
    mantissa % 2 = 1 ∨ significand % 2 = 1 := by
  have following : (((mantissa + 1 : Nat) : ℚ)) * 2 ^ exponent = significand * 2 ^ place := by
    push_cast
    exact next
  rcases lt_trichotomy exponent place with less | rfl | more
  · have even := eq_mul_of_le less.le following
    have factor : (place - exponent).toNat = (place - exponent).toNat - 1 + 1 := by omega
    rw [factor, pow_succ, ← mul_assoc] at even
    omega
  · have equal := eq_mul_of_le (le_refl exponent) following
    rw [sub_self, Int.toNat_zero, pow_zero, Nat.mul_one] at equal
    omega
  · have great := valid.normal (otherValid.least.trans_lt more)
    have bound := otherValid.bounded
    have two : 2 ^ 1 ≤ 2 ^ (exponent - place).toNat := Nat.pow_le_pow_right (by decide) (by omega)
    rw [eq_mul_of_le more.le following.symm] at bound
    have above : 2 ^ 52 + 1 ≤ mantissa + 1 := Nat.succ_le_succ great
    have product := Nat.mul_le_mul above two
    omega

theorem InBinary64.onBinaryGrid (valid : InBinary64 mantissa exponent) :
    OnBinaryGrid (mantissa * 2 ^ exponent) := by
  have bound := valid.bounded
  exact ⟨mantissa, exponent, abs_lt.mpr ⟨by omega, by omega⟩, valid.least, by rw [Int.cast_natCast]⟩

theorem InBinary64.onBinaryGrid_next (valid : InBinary64 mantissa exponent) :
    OnBinaryGrid ((mantissa + 1) * 2 ^ exponent) := by
  have bound := valid.bounded
  have least := valid.least
  rcases (Nat.succ_le_of_lt bound).lt_or_eq with inside | beyond
  · exact ⟨mantissa + 1, exponent, abs_lt.mpr ⟨by omega, by omega⟩, least, by push_cast; rfl⟩
  · refine ⟨2 ^ 52, exponent + 1, by decide, by omega, ?_⟩
    have great : (mantissa : ℚ) + 1 = 2 ^ 53 := by exact_mod_cast beyond
    rw [great, zpow_add_one₀ (by norm_num)]
    norm_num
    linarith

/-! ## Rounding -/

/-- A rational rounds to a number of the grid: no other is nearer, and if another is as near, the
mantissa of the number is even. -/
def RoundsTo (number : ℚ) (mantissa : Nat) (value : ℚ) : Prop :=
  ∀ other, OnBinaryGrid other → other ≠ value →
    |number - value| < |number - other| ∨
    mantissa % 2 = 0 ∧ |number - value| = |number - other|

/-- The midpoint between a double and the next number of the grid below. -/
def lowest (mantissa : Nat) (exponent : Int) : ℚ :=
  (mantissa - (if mantissa = 2 ^ 52 ∧ -1074 < exponent then 1 / 4 else 1 / 2)) * 2 ^ exponent

def highest (mantissa : Nat) (exponent : Int) : ℚ :=
  (mantissa + 1 / 2) * 2 ^ exponent

theorem lowest_pos (positive : 0 < mantissa) (exponent : Int) : 0 < lowest mantissa exponent := by
  have one : (1 : ℚ) ≤ mantissa := by exact_mod_cast positive
  rw [lowest]
  refine mul_pos ?_ (two_zpow_pos exponent)
  split <;> linarith

theorem lowest_lt (mantissa : Nat) (exponent : Int) :
    lowest mantissa exponent < mantissa * 2 ^ exponent := by
  have positive := two_zpow_pos exponent
  rw [lowest]
  refine mul_lt_mul_of_pos_right ?_ positive
  split <;> linarith

theorem lt_highest (mantissa : Nat) (exponent : Int) :
    mantissa * 2 ^ exponent < highest mantissa exponent := by
  have positive := two_zpow_pos exponent
  rw [highest]
  exact mul_lt_mul_of_pos_right (by linarith) positive

theorem InBinary64.lowest_spec (valid : InBinary64 mantissa exponent) (on : OnBinaryGrid other)
    (below : other < mantissa * 2 ^ exponent) :
    other + mantissa * 2 ^ exponent ≤ 2 * lowest mantissa exponent := by
  have positive := two_zpow_pos exponent
  rw [lowest]
  rcases valid.next_below on below with step | ⟨power, normal, half⟩
  · split <;> linarith
  · rw [if_pos ⟨power, normal⟩]
    linarith

theorem InBinary64.highest_spec (valid : InBinary64 mantissa exponent) (on : OnBinaryGrid other)
    (above : mantissa * 2 ^ exponent < other) :
    2 * highest mantissa exponent ≤ other + mantissa * 2 ^ exponent := by
  have step := valid.next_above on above
  rw [highest]
  linarith

theorem abs_sub_le_of_below {number value : ℚ} (below : other < value)
    (middle : other + value ≤ 2 * number) : |number - value| ≤ |number - other| :=
  (abs_le.mpr ⟨by linarith, by linarith⟩).trans (le_abs_self (number - other))

theorem abs_sub_lt_of_below {number value : ℚ} (below : other < value)
    (middle : other + value < 2 * number) : |number - value| < |number - other| :=
  (abs_lt.mpr ⟨by linarith, by linarith⟩).trans_le (le_abs_self (number - other))

theorem abs_sub_le_of_above {number value : ℚ} (above : value < other)
    (middle : 2 * number ≤ other + value) : |number - value| ≤ |number - other| := by
  rw [abs_sub_comm number other]
  exact (abs_le.mpr ⟨by linarith, by linarith⟩).trans (le_abs_self (other - number))

theorem abs_sub_lt_of_above {number value : ℚ} (above : value < other)
    (middle : 2 * number < other + value) : |number - value| < |number - other| := by
  rw [abs_sub_comm number other]
  exact (abs_lt.mpr ⟨by linarith, by linarith⟩).trans_le (le_abs_self (other - number))

/-- What lies between the midpoints rounds to the double; the midpoints themselves do if the
mantissa is even. -/
theorem InBinary64.roundsTo (valid : InBinary64 mantissa exponent) {number : ℚ}
    (between : if mantissa % 2 = 0 then
        lowest mantissa exponent ≤ number ∧ number ≤ highest mantissa exponent
      else lowest mantissa exponent < number ∧ number < highest mantissa exponent) :
    RoundsTo number mantissa (mantissa * 2 ^ exponent) := by
  intro other on apart
  by_cases even : mantissa % 2 = 0
  · rw [if_pos even] at between
    have near : |number - mantissa * 2 ^ exponent| ≤ |number - other| := by
      rcases lt_or_gt_of_ne apart with below | above
      · have middle := valid.lowest_spec on below
        exact abs_sub_le_of_below below (by linarith)
      · have middle := valid.highest_spec on above
        exact abs_sub_le_of_above above (by linarith)
    exact near.lt_or_eq.imp id (And.intro even)
  · rw [if_neg even] at between
    left
    rcases lt_or_gt_of_ne apart with below | above
    · have middle := valid.lowest_spec on below
      exact abs_sub_lt_of_below below (by linarith)
    · have middle := valid.highest_spec on above
      exact abs_sub_lt_of_above above (by linarith)

theorem RoundsTo.not_below {number : ℚ} (valid : InBinary64 mantissa exponent)
    (otherValid : InBinary64 significand place)
    (first : RoundsTo number mantissa (mantissa * 2 ^ exponent))
    (second : RoundsTo number significand (significand * 2 ^ place)) :
    ¬(mantissa : ℚ) * 2 ^ exponent < significand * 2 ^ place := by
  intro less
  have near := first _ otherValid.onBinaryGrid less.ne'
  have otherNear := second _ valid.onBinaryGrid less.ne
  obtain ⟨even, otherEven, equal⟩ : mantissa % 2 = 0 ∧ significand % 2 = 0 ∧
      |number - mantissa * 2 ^ exponent| = |number - significand * 2 ^ place| := by
    rcases near with nearer | ⟨even, equal⟩
    · rcases otherNear with farther | ⟨-, equal⟩
      · exact absurd farther (lt_asymm nearer)
      · exact absurd equal nearer.ne'
    · rcases otherNear with farther | ⟨otherEven, -⟩
      · exact absurd equal farther.ne'
      · exact ⟨even, otherEven, equal⟩
  -- Both are as near, so the rational is in the middle.  If they are not next to each other, the
  -- number of the grid that follows the lower one is nearer; if they are, one of them is odd.
  have middle : 2 * number = mantissa * 2 ^ exponent + significand * 2 ^ place := by
    rcases abs_eq_abs.mp equal with same | opposite
    · linarith
    · linarith
  have step := valid.next_above otherValid.onBinaryGrid less
  rcases step.lt_or_eq with between | next
  · have positive := two_zpow_pos exponent
    have above : (mantissa : ℚ) * 2 ^ exponent < (mantissa + 1) * 2 ^ exponent := by linarith
    have farther : |number - (mantissa + 1) * 2 ^ exponent| <
        |number - mantissa * 2 ^ exponent| := by
      rw [abs_of_pos (by linarith : 0 < number - mantissa * 2 ^ exponent)]
      exact abs_lt.mpr ⟨by linarith, by linarith⟩
    rcases first _ valid.onBinaryGrid_next above.ne' with nearer | ⟨-, same⟩
    · exact lt_asymm nearer farther
    · exact farther.ne' same
  · rcases valid.odd_of_next otherValid next with odd | odd
    · omega
    · omega

theorem RoundsTo.unique {number : ℚ} (valid : InBinary64 mantissa exponent)
    (otherValid : InBinary64 significand place)
    (first : RoundsTo number mantissa (mantissa * 2 ^ exponent))
    (second : RoundsTo number significand (significand * 2 ^ place)) :
    mantissa = significand ∧ exponent = place :=
  valid.unique otherValid (le_antisymm (not_lt.mp (second.not_below otherValid valid first))
    (not_lt.mp (first.not_below valid otherValid second)))

theorem OnBinaryGrid.neg {number : ℚ} (on : OnBinaryGrid number) : OnBinaryGrid (-number) := by
  obtain ⟨mantissa, exponent, bounded, least, rfl⟩ := on
  exact ⟨-mantissa, exponent, by rwa [abs_neg], least, by rw [Int.cast_neg, neg_mul]⟩

theorem RoundsTo.neg {number value : ℚ} {mantissa : Nat} (rounds : RoundsTo number mantissa value) :
    RoundsTo (-number) mantissa (-value) := by
  intro other on apart
  have opposite := rounds (-other) on.neg fun same => apart (by rw [← same, neg_neg])
  have self : |-number - -value| = |number - value| := by rw [neg_sub_neg, abs_sub_comm]
  have others : |-number - other| = |number - -other| := by
    rw [sub_neg_eq_add, ← neg_add', abs_neg]
  rwa [self, others]

theorem roundsTo_self (mantissa : Nat) (value : ℚ) : RoundsTo value mantissa value := by
  intro other _ apart
  rw [sub_self, abs_zero]
  exact .inl (abs_pos.mpr (sub_ne_zero.mpr (Ne.symm apart)))

end Grid

end SqlMetrics
