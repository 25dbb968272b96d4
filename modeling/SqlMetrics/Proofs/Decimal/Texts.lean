import Mathlib.Data.List.Basic
import SqlMetrics.Decimal.Format
import SqlMetrics.Json.Value
import SqlMetrics.Proofs.Json.Numerals

/-! # The texts of integers and decimals

Integers and decimals are written as proper numerals with their values (`toRat_ofInt`,
`toRat_ofDecimal`), whatever the style of the decimal. -/
set_option autoImplicit false
namespace SqlMetrics

theorem intText_eq (value : Int) : Json.intText value = (toString value).toList := by
  cases value with
  | ofNat number => exact Nat.toList_repr.symm
  | negSucc number =>
      have text : (toString (Int.negSucc number)).toList =
          '-' :: (Nat.repr (number + 1)).toList := by
        change ("-" ++ Nat.repr (number + 1)).toList = _
        rw [String.toList_append]
        rfl
      rw [text, Nat.toList_repr, Json.intText, if_pos (Int.negSucc_lt_zero number), digitText]
      rfl

namespace Numeral

variable {style : FloatStyle} {negative : Bool} {decimal : Decimal}

def ofInt (value : Int) : Numeral :=
  ⟨value < 0, digitText value.natAbs, [], none⟩

theorem text_ofInt (value : Int) (plus : Bool) : (ofInt value).text plus = Json.intText value := by
  by_cases below : value < 0 <;> simp [text, ofInt, signText, pointText, exponentText,
    Json.intText, below]

theorem proper_digitText (negative : Bool) (number : Nat) :
    Proper ⟨negative, digitText number, [], none⟩ where
  filled := digitText_ne_nil number
  whole := fun _ => isDigit_of_mem_digitText
  fraction := nofun
  single := head?_digitText

theorem proper_ofInt (value : Int) : (ofInt value).Proper :=
  proper_digitText _ _

theorem toRat_ofInt (value : Int) : (ofInt value).toRat = value := by
  simp only [toRat, ofInt, List.append_nil, digitsValue_digitText, Option.getD_none,
    List.length_nil, Nat.cast_zero, sub_self, zpow_zero, mul_one, decide_eq_true_eq]
  split
  · rename_i below
    have magnitude : (value.natAbs : Int) = -value := Int.ofNat_natAbs_of_nonpos below.le
    rw [← Int.cast_natCast, magnitude, Int.cast_neg, neg_one_mul, neg_neg]
  · rename_i above
    have magnitude : (value.natAbs : Int) = value := Int.natAbs_of_nonneg (not_lt.mp above)
    rw [← Int.cast_natCast, magnitude, one_mul]

/-- The digits of a decimal behind the zeros that bring them past its point. -/
def paddedDigits (decimal : Decimal) : List Char :=
  List.replicate ((-decimal.exponent).toNat + 1 - (digitText decimal.digits).length) '0' ++
    digitText decimal.digits

theorem length_paddedDigits (decimal : Decimal) : (paddedDigits decimal).length =
    max ((-decimal.exponent).toNat + 1) (digitText decimal.digits).length := by
  rw [paddedDigits, List.length_append, List.length_replicate]
  omega

theorem isDigit_of_mem_zeros {count : Nat} : ∀ c ∈ List.replicate count '0', c.isDigit = true := by
  intro c among
  rw [List.eq_of_mem_replicate among]
  rfl

theorem isDigit_of_mem_paddedDigits : ∀ c ∈ paddedDigits decimal, c.isDigit = true := fun c among =>
  (List.mem_append.mp among).elim (isDigit_of_mem_zeros c) isDigit_of_mem_digitText

theorem digitsValue_paddedDigits (decimal : Decimal) :
    digitsValue (paddedDigits decimal) = decimal.digits := by
  rw [paddedDigits, digitsValue_append, digitsValue_zeros, Nat.zero_mul, Nat.zero_add,
    digitsValue_digitText]

def digitsBefore (decimal : Decimal) : List Char :=
  (paddedDigits decimal).take ((paddedDigits decimal).length - (-decimal.exponent).toNat)

def digitsBehind (decimal : Decimal) : List Char :=
  (paddedDigits decimal).drop ((paddedDigits decimal).length - (-decimal.exponent).toNat)

theorem digitsBefore_append_digitsBehind (decimal : Decimal) :
    digitsBefore decimal ++ digitsBehind decimal = paddedDigits decimal :=
  List.take_append_drop _ _

theorem length_digitsBehind (decimal : Decimal) :
    (digitsBehind decimal).length = (-decimal.exponent).toNat := by
  rw [digitsBehind, List.length_drop, length_paddedDigits]
  omega

theorem digitsBefore_ne_nil (decimal : Decimal) : digitsBefore decimal ≠ [] := by
  intro nothing
  have behind := congrArg List.length (digitsBefore_append_digitsBehind decimal)
  rw [nothing, List.nil_append, length_digitsBehind, length_paddedDigits] at behind
  omega

theorem digitsBefore_single (leading : (digitsBefore decimal).head? = some '0') :
    digitsBefore decimal = ['0'] := by
  have long := length_paddedDigits decimal
  rw [digitsBefore] at leading ⊢
  by_cases short : (digitText decimal.digits).length ≤ (-decimal.exponent).toNat
  · have single : (paddedDigits decimal).length - (-decimal.exponent).toNat = 1 := by
      omega
    rw [single] at leading ⊢
    cases padded : paddedDigits decimal with
    | nil =>
        rw [padded] at leading
        cases leading
    | cons first others =>
        rw [padded] at leading
        rw [Option.some.inj leading]
        rfl
  · have same : paddedDigits decimal = digitText decimal.digits := by
      have noPadding : (-decimal.exponent).toNat + 1 - (digitText decimal.digits).length = 0 := by
        omega
      rw [paddedDigits, noPadding]
      rfl
    rw [same, List.head?_take, if_neg (by omega)] at leading
    have text := head?_digitText leading
    have whole : (-decimal.exponent).toNat = 0 := by
      rw [text, List.length_singleton] at short
      omega
    rw [same, text, whole]
    rfl

def ofPlain (wholeHasPoint negative : Bool) (decimal : Decimal) : Numeral :=
  if 0 ≤ decimal.exponent then
    ⟨negative, digitText decimal.digits ++ List.replicate decimal.exponent.toNat '0',
      if wholeHasPoint then ['0'] else [], none⟩
  else ⟨negative, digitsBefore decimal, digitsBehind decimal, none⟩

def ofScientific (negative : Bool) (decimal : Decimal) : Numeral :=
  let digits := digitText decimal.digits
  ⟨negative, digits.take 1, digits.drop 1, some (decimal.exponent + digits.length - 1)⟩

theorem text_ofPlain (wholeHasPoint plus : Bool) :
    (ofPlain wholeHasPoint negative decimal).text plus =
      signText negative ++ plainText wholeHasPoint decimal := by
  rw [ofPlain, plainText]
  split
  · cases wholeHasPoint <;> simp [text, pointText, exponentText]
  · rename_i below
    have filled : ¬ (digitsBehind decimal).isEmpty := by
      intro nothing
      have places := length_digitsBehind decimal
      rw [List.isEmpty_iff.mp nothing, List.length_nil] at places
      omega
    rw [text, pointText, if_neg filled, exponentText, List.append_nil]
    rfl

theorem text_ofScientific (plus : Bool) : (ofScientific negative decimal).text plus =
    signText negative ++ scientificText plus decimal := by
  rw [ofScientific, scientificText, text]
  generalize text : digitText decimal.digits = digits
  have filled : digits ≠ [] := text ▸ digitText_ne_nil decimal.digits
  obtain ⟨first, others, rfl⟩ := List.exists_cons_of_ne_nil filled
  cases others <;> simp [pointText, exponentText]

/-- The numeral of a decimal as a style writes it. -/
def ofDecimal (style : FloatStyle) (negative : Bool) (decimal : Decimal) : Numeral :=
  let magnitude := decimal.exponent + (digitText decimal.digits).length - 1
  match style.plainBounds with
  | none => ofPlain style.wholeHasPoint negative decimal
  | some bounds =>
      if bounds.1 ≤ magnitude && magnitude ≤ bounds.2 then
        ofPlain style.wholeHasPoint negative decimal
      else ofScientific negative decimal

theorem ofDecimal_induction {motive : Numeral → Prop}
    (plain : motive (ofPlain style.wholeHasPoint negative decimal))
    (scientific : motive (ofScientific negative decimal)) :
    motive (ofDecimal style negative decimal) := by
  rw [ofDecimal]
  split
  · exact plain
  · split
    · exact plain
    · exact scientific

theorem negative_ofDecimal : (ofDecimal style negative decimal).negative = negative :=
  ofDecimal_induction (motive := fun numeral => numeral.negative = negative)
    (by rw [ofPlain]; split <;> rfl) rfl

theorem text_ofDecimal : (ofDecimal style negative decimal).text style.exponentHasPlus =
    (signed negative (style.decimalText decimal)).toList := by
  have text : (ofDecimal style negative decimal).text style.exponentHasPlus =
      signText negative ++ style.decimalText decimal := by
    rw [ofDecimal, FloatStyle.decimalText]
    cases style.plainBounds with
    | none => exact text_ofPlain _ _
    | some bounds =>
        dsimp only
        split
        · exact text_ofPlain _ _
        · exact text_ofScientific _
  rw [text, signed, String.toList_ofList, signText]
  cases negative <;> rfl

/-- A decimal without a power of ten has no leading zero, unless it is a zero with more zeros
behind it. -/
theorem proper_ofPlain {wholeHasPoint : Bool}
    (whole : decimal.digits = 0 → decimal.exponent ≤ 0) :
    (ofPlain wholeHasPoint negative decimal).Proper := by
  rw [ofPlain]
  split
  · rename_i above
    have filled := digitText_ne_nil decimal.digits
    refine ⟨by simp [filled], ?_, ?_, ?_⟩
    · intro c among
      exact (List.mem_append.mp among).elim isDigit_of_mem_digitText (isDigit_of_mem_zeros c)
    · cases wholeHasPoint <;> simp
    · intro leading
      rw [List.head?_append_of_ne_nil _ filled] at leading
      have text := head?_digitText leading
      have number := digitsValue_digitText decimal.digits
      rw [text] at number
      have noExponent : decimal.exponent.toNat = 0 := by
        have bound := whole number.symm
        omega
      dsimp only
      rw [text, noExponent]
      rfl
  · exact ⟨digitsBefore_ne_nil decimal,
      fun c among => isDigit_of_mem_paddedDigits c (List.mem_of_mem_take among),
      fun c among => isDigit_of_mem_paddedDigits c (List.mem_of_mem_drop among),
      digitsBefore_single⟩

theorem proper_ofScientific : (ofScientific negative decimal).Proper := by
  have filled := digitText_ne_nil decimal.digits
  have digit : ∀ c ∈ digitText decimal.digits, c.isDigit = true := fun _ => isDigit_of_mem_digitText
  obtain ⟨first, others, text⟩ := List.exists_cons_of_ne_nil filled
  refine ⟨by simp [ofScientific, filled], fun c among => digit c (List.mem_of_mem_take among),
    fun c among => digit c (List.mem_of_mem_drop among), ?_⟩
  rw [ofScientific, text]
  intro leading
  rw [Option.some.inj leading]
  rfl

theorem proper_ofDecimal (whole : decimal.digits = 0 → decimal.exponent ≤ 0) :
    (ofDecimal style negative decimal).Proper :=
  ofDecimal_induction (proper_ofPlain whole) proper_ofScientific

end Numeral

def Decimal.toRat (decimal : Decimal) : ℚ :=
  decimal.digits * 10 ^ decimal.exponent

namespace Numeral

variable {style : FloatStyle} {negative : Bool} {decimal : Decimal}

theorem toRat_ofPlain {wholeHasPoint : Bool} : (ofPlain wholeHasPoint negative decimal).toRat =
    (if negative then -1 else 1) * decimal.toRat := by
  rw [ofPlain]
  split
  · rename_i above
    obtain ⟨places, exponent⟩ := Int.eq_ofNat_of_zero_le above
    have value : digitsValue (digitText decimal.digits ++ List.replicate places '0') =
        decimal.digits * 10 ^ places := by
      rw [digitsValue_append, digitsValue_digitText, digitsValue_zeros, List.length_replicate,
        Nat.add_zero]
    have point : digitsValue (digitText decimal.digits ++ List.replicate places '0' ++ ['0']) =
        decimal.digits * 10 ^ places * 10 := by
      rw [digitsValue_append, value]
      rfl
    rw [exponent, toRat, Decimal.toRat, exponent]
    dsimp only
    cases wholeHasPoint with
    | true =>
        rw [if_pos rfl, Int.toNat_natCast, point]
        push_cast
        rw [zpow_natCast, Option.getD_none, List.length_singleton, Nat.cast_one, zero_sub,
          zpow_neg_one]
        ring
    | false =>
        rw [if_neg Bool.false_ne_true, List.append_nil, Int.toNat_natCast, value]
        push_cast
        rw [zpow_natCast, Option.getD_none, List.length_nil, Nat.cast_zero, sub_zero, zpow_zero]
        ring
  · rename_i below
    have places : (0 : Int) - ((digitsBehind decimal).length : Nat) = decimal.exponent := by
      rw [length_digitsBehind]
      omega
    rw [toRat, Decimal.toRat]
    dsimp only
    rw [digitsBefore_append_digitsBehind, digitsValue_paddedDigits, Option.getD_none, places,
      mul_assoc]

theorem toRat_ofScientific : (ofScientific negative decimal).toRat =
    (if negative then -1 else 1) * decimal.toRat := by
  have filled := List.length_pos_iff.mpr (digitText_ne_nil decimal.digits)
  have exponent : decimal.exponent + (digitText decimal.digits).length - 1 -
      ((digitText decimal.digits).drop 1).length = decimal.exponent := by
    rw [List.length_drop]
    omega
  rw [toRat, ofScientific]
  dsimp only
  rw [List.take_append_drop, digitsValue_digitText, Option.getD_some, exponent, Decimal.toRat,
    mul_assoc]

theorem toRat_ofDecimal : (ofDecimal style negative decimal).toRat =
    (if negative then -1 else 1) * decimal.toRat :=
  ofDecimal_induction (motive := fun numeral => numeral.toRat = _) toRat_ofPlain toRat_ofScientific

end Numeral
end SqlMetrics
