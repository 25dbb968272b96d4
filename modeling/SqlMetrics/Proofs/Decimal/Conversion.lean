import SqlMetrics.Proofs.Decimal.Arithmetic

/-! # Integers as doubles

An integer of at most 53 bits times a power of two is the value of a double
(`isDouble_mul_two_zpow`), and such an integer is converted without rounding (`denotes_ofNat`,
`denotes_ofInt`). -/
set_option autoImplicit false
namespace SqlMetrics

open Float.Model (Format totalExponent UnpackedFloat)
open Float.Model.UnpackedFloat

/-! ## Exact integers -/

theorem isDouble_zero : IsDouble 0 :=
  ⟨0, -1074, ⟨by decide, le_refl _, fun above => absurd above (lt_irrefl _)⟩, by decide, by simp⟩

/-- A number of at most 53 bits is the value of a double, where its places are those of doubles. -/
theorem isDouble_mul_two_zpow {number place : Int} (bounded : number.natAbs ≤ 2 ^ 53)
    (low : -1022 ≤ place) (high : place ≤ 970) : IsDouble (number * 2 ^ place) := by
  have unit := two_zpow_pos place
  have magnitude : |(number : ℚ) * 2 ^ place| = number.natAbs * 2 ^ place := by
    rw [abs_mul, abs_of_pos unit, Nat.cast_natAbs, Int.cast_abs]
  rcases Nat.eq_zero_or_pos number.natAbs with zero | filled
  · obtain rfl : number = 0 := Int.natAbs_eq_zero.mp zero
    rw [Int.cast_zero, zero_mul]
    exact isDouble_zero
  rcases bounded.lt_or_eq with less | same
  · -- All bits of the mantissa are used when the highest bit of the number stands first.
    obtain ⟨lower, upper⟩ := (Nat.log2_eq_iff filled.ne').mp (rfl : number.natAbs.log2 = _)
    have short : number.natAbs.log2 < 53 := (Nat.log2_lt filled.ne').mpr less
    obtain ⟨shift, sum⟩ := Nat.exists_eq_add_of_le (Nat.le_of_lt_succ short)
    have least := Nat.mul_le_mul_right (2 ^ shift) lower
    have greatest := Nat.mul_lt_mul_of_pos_right upper (Nat.two_pow_pos shift)
    rw [← Nat.pow_add, ← sum] at least
    rw [← Nat.pow_add, Nat.add_right_comm, ← sum] at greatest
    refine ⟨number.natAbs * 2 ^ shift, place - shift, ⟨greatest, by omega, fun _ => least⟩,
      by omega, ?_⟩
    rw [magnitude, two_zpow_of_le (show place - shift ≤ place by omega), sub_sub_cancel,
      Int.toNat_natCast]
    push_cast
    ring
  · refine ⟨2 ^ 52, place + 1, ⟨by decide, by omega, fun _ => le_refl _⟩, by omega, ?_⟩
    rw [magnitude, same, zpow_add_one₀ (by norm_num)]
    push_cast
    ring

theorem isDouble_intCast {number : Int} (bounded : number.natAbs ≤ 2 ^ 53) : IsDouble number := by
  have double := isDouble_mul_two_zpow bounded (show -1022 ≤ 0 by decide) (by decide)
  rwa [zpow_zero, mul_one] at double

/-! ## Literals -/

theorem denotes_of_parts {value : Float} {mantissa : Nat} {exponent : Int}
    (parts : BinaryParts.ofFloat value = .finite false mantissa exponent) :
    Denotes value (mantissa * 2 ^ exponent) := by
  have above : (0 : ℚ) ≤ mantissa * 2 ^ exponent :=
    mul_nonneg (Nat.cast_nonneg mantissa) (two_zpow_pos exponent).le
  exact ⟨mantissa, exponent, by rw [parts, decide_eq_false (not_lt.mpr above)], abs_of_nonneg above⟩

theorem denotes_one : Denotes 1 1 := by
  have parts : BinaryParts.ofFloat 1 = .finite false (2 ^ 52) (-52) := by rfl
  have denotes := denotes_of_parts parts
  norm_num at denotes
  exact denotes

section Conversion
variable {count : Nat}

theorem denotes_toFloat (small : count < 2 ^ 53) : Denotes count.toUInt64.toFloat count := by
  have word : count.toUInt64.toNat = count := by
    rw [UInt64.toNat_ofNat']
    omega
  have double : IsDouble (((count : Int) : ℚ) * 2 ^ (0 : Int)) := by
    rw [zpow_zero, mul_one]
    exact isDouble_intCast (show (count : Int).natAbs ≤ 2 ^ 53 from small.le)
  have converted := hasValue_normalize double
  rw [zpow_zero, mul_one, Int.cast_natCast] at converted
  refine HasValue.denotes ?_
  change HasValue (UnpackedFloat.unpack .binary64 (UnpackedFloat.pack .binary64
    (UnpackedFloat.normalize .binary64 count.toUInt64.toNat 0 .positive))) _
  rw [word, converted.unpack_pack]
  exact converted

theorem ofNat_eq_mul (small : count < 2 ^ 53) :
    Float.ofNat count = count.toUInt64.toFloat * 1 := by
  change Float.ofScientific count false 0 = _
  rw [Float.ofScientific, dif_pos ⟨small, by decide⟩]
  rfl

theorem denotes_ofNat (small : count < 2 ^ 53) : Denotes (Float.ofNat count) count := by
  have converted := denotes_toFloat small
  have product := converted.mul denotes_one one_pos (by rw [mul_one]; exact converted.isDouble)
  rw [mul_one] at product
  rwa [ofNat_eq_mul small]

theorem denotes_ofInt {number : Int} (small : number.natAbs < 2 ^ 53) :
    Denotes (Float.ofInt number) number := by
  cases number with
  | ofNat count => exact denotes_ofNat small
  | negSucc count =>
      have converted := denotes_ofNat (show count + 1 < 2 ^ 53 from small)
      rw [Int.cast_negSucc]
      exact converted.neg (by exact_mod_cast Nat.succ_ne_zero count)

end Conversion

end SqlMetrics
