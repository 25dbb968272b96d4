import SqlMetrics.Proofs.Decimal.Texts

/-! # The digits of numbers

As many digits of a number as fit into 64 bits form its significand.  An integer of 64 bits fits as
a whole, and it is the value of its own text (`value?_ofInt`). -/
set_option autoImplicit false
namespace SqlMetrics
namespace Numeral

def digitsFrom (start : Nat) (digits : List Char) : Nat :=
  digits.foldl (fun value digit => value * 10 + (digit.toNat - 48)) start

section Digits
variable {start : Nat} {digits : List Char}

theorem le_digitsFrom (start : Nat) (digits : List Char) : start ≤ digitsFrom start digits := by
  induction digits generalizing start with
  | nil => exact le_refl start
  | cons digit rest ih => exact le_trans (by omega) (ih (start * 10 + (digit.toNat - 48)))

theorem digitsFrom_eq (start : Nat) (digits : List Char) :
    digitsFrom start digits = start * 10 ^ digits.length + digitsValue digits := by
  induction digits generalizing start with
  | nil => simp [digitsFrom, digitsValue]
  | cons digit rest ih =>
      have first := ih (start * 10 + (digit.toNat - 48))
      have again := ih (0 * 10 + (digit.toNat - 48))
      change digitsFrom _ rest = _ + digitsFrom _ rest
      rw [first, again, List.length_cons, Nat.pow_succ]
      ring

theorem foldl_addWholeDigit_of_fits (fits : digitsFrom start digits < wordLimit) :
    digits.foldl addWholeDigit (start, 0) = (digitsFrom start digits, 0) := by
  induction digits generalizing start with
  | nil => rfl
  | cons digit rest ih =>
      have next : start * 10 + (digit.toNat - 48) < wordLimit :=
        lt_of_le_of_lt (le_digitsFrom _ rest) fits
      rw [List.foldl_cons, addWholeDigit]
      simp only [next, decide_true, Bool.and_self, if_true]
      exact ih fits

theorem foldl_addWholeDigit_lt {state : Nat × Int} (small : state.1 < wordLimit) :
    (digits.foldl addWholeDigit state).1 < wordLimit := by
  induction digits generalizing state with
  | nil => exact small
  | cons digit rest ih =>
      refine ih ?_
      rw [addWholeDigit]
      split_ifs with fits
      · simp only [Bool.and_eq_true, decide_eq_true_eq] at fits
        exact fits.2
      · exact small

end Digits

/-! ## Integers -/

section Integers
variable {numeral : Numeral} {value : Int}

theorem value?_ofInt (least : -(signedLimit : Int) ≤ value) (greatest : value < wordLimit) :
    (ofInt value).value? = some (.whole value) := by
  have signed : signedLimit = 2 ^ 63 := rfl
  have word : wordLimit = 2 ^ 64 := rfl
  have number : digitsFrom 0 (digitText value.natAbs) = value.natAbs :=
    digitsValue_digitText value.natAbs
  have digits : (digitText value.natAbs).foldl addWholeDigit (0, 0) = (value.natAbs, 0) := by
    rw [foldl_addWholeDigit_of_fits (by omega), number]
  rw [ofInt, value?]
  simp only [digits, List.isEmpty_nil, Option.isNone_none, decide_true, Bool.and_self, if_true]
  by_cases below : value < 0
  · have fits : ¬ (value.natAbs = 0 || decide (signedLimit < value.natAbs)) = true := by
      simp only [Bool.or_eq_true, decide_eq_true_eq]
      omega
    rw [decide_eq_true below, if_neg fits]
    simp only [Bool.not_true, Bool.false_eq_true, if_false]
    congr 2
    omega
  · rw [decide_eq_false below]
    simp only [Bool.not_false, if_true]
    congr 2
    omega

theorem range_of_value? (found : numeral.value? = some (.whole value)) :
    -(signedLimit : Int) ≤ value ∧ value < wordLimit := by
  have small : (numeral.whole.foldl addWholeDigit (0, 0)).1 < wordLimit :=
    foldl_addWholeDigit_lt (by decide)
  have signed : signedLimit = 2 ^ 63 := rfl
  have word : wordLimit = 2 ^ 64 := rfl
  rw [value?] at found
  dsimp only at found
  split_ifs at found with whole positive least
  · cases found
    omega
  · cases found
  · simp only [Bool.or_eq_true, decide_eq_true_eq, not_or] at least
    cases found
    omega
  · simp at found
  · simp at found

end Integers

end Numeral
end SqlMetrics
