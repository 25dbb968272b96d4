import Mathlib.Algebra.Order.Field.Basic
import Mathlib.Data.Rat.Cast.Order
import Mathlib.Tactic.Ring
import SqlMetrics.Proofs.Json.Rules

/-! # Written numbers are read back

A numeral has a text (`Numeral.text`) and an exact value (`Numeral.toRat`).  The text of a proper
numeral is read as that numeral (`Reads.numeral`). -/
set_option autoImplicit false
namespace SqlMetrics

/-! ## Digits -/

theorem digitsValue_eq (digits : List Char) :
    digitsValue digits = Nat.ofDigitChars 10 digits 0 := by
  simp only [digitsValue, Nat.ofDigitChars_eq_foldl, Nat.mul_comm 10]
  rfl

theorem digitsValue_append (front behind : List Char) : digitsValue (front ++ behind) =
    digitsValue front * 10 ^ behind.length + digitsValue behind := by
  simp only [digitsValue_eq]
  rw [Nat.ofDigitChars_append, Nat.ofDigitChars_eq_ofDigitChars_zero, Nat.mul_comm]

theorem digitsValue_zeros (count : Nat) : digitsValue (List.replicate count '0') = 0 := by
  rw [digitsValue_eq, Nat.ofDigitChars_replicate_zero, Nat.mul_zero]

theorem digitsValue_digitText (number : Nat) : digitsValue (digitText number) = number := by
  rw [digitsValue_eq, digitText, Nat.ofDigitChars_ten_toDigits]

theorem isDigit_of_mem_digitText {number : Nat} {c : Char} (among : c ∈ digitText number) :
    c.isDigit = true :=
  Nat.isDigit_of_mem_toDigits (by decide) (by decide) among

theorem digitText_ne_nil (number : Nat) : digitText number ≠ [] :=
  Nat.toDigits_ne_nil

theorem digit_le_nine {digit : Char} (range : digit.isDigit = true) : digit.toNat - 48 ≤ 9 := by
  simp only [Char.isDigit, Bool.and_eq_true, decide_eq_true_eq] at range
  have upper : digit.toNat ≤ 57 := range.2
  omega

theorem digitsValue_lt {digits : List Char} (all : ∀ c ∈ digits, c.isDigit = true) :
    digitsValue digits < 10 ^ digits.length := by
  induction digits with
  | nil => decide
  | cons digit rest ih =>
      have later := ih fun c among => all c (List.mem_cons_of_mem digit among)
      have small : digitsValue [digit] < 10 := by
        have place := digit_le_nine (all digit List.mem_cons_self)
        simp only [digitsValue, List.foldl_cons, List.foldl_nil]
        omega
      have split := digitsValue_append [digit] rest
      rw [List.singleton_append] at split
      rw [split, List.length_cons, pow_succ]
      calc digitsValue [digit] * 10 ^ rest.length + digitsValue rest
          < digitsValue [digit] * 10 ^ rest.length + 10 ^ rest.length :=
            Nat.add_lt_add_left later _
        _ = (digitsValue [digit] + 1) * 10 ^ rest.length := (Nat.succ_mul _ _).symm
        _ ≤ 10 * 10 ^ rest.length := Nat.mul_le_mul_right _ small
        _ = 10 ^ rest.length * 10 := Nat.mul_comm _ _

theorem head?_digitText {number : Nat} (zero : (digitText number).head? = some '0') :
    digitText number = ['0'] := by
  cases text : digitText number with
  | nil => exact absurd text (digitText_ne_nil number)
  | cons first rest =>
      rw [text] at zero
      obtain rfl : first = '0' := Option.some.inj zero
      cases rest with
      | nil => rfl
      | cons second others =>
          have value : digitsValue (second :: others) = number := by
            have split := digitsValue_append ['0'] (second :: others)
            have nothing : digitsValue ['0'] = 0 := by decide
            rw [List.singleton_append, ← text, digitsValue_digitText, nothing, Nat.zero_mul,
              Nat.zero_add] at split
            exact split.symm
          have small : number < 10 ^ (second :: others).length := by
            rw [← value]
            refine digitsValue_lt fun c among => @isDigit_of_mem_digitText number c ?_
            rw [text]
            exact List.mem_cons_of_mem '0' among
          have short := (Nat.length_toDigits_le_iff (by decide) (by simp)).mpr small
          rw [← digitText, text] at short
          simp at short

/-! ## Numerals -/

def EndsDigits (rest : List Char) : Prop :=
  ∀ c ∈ rest.head?, c.isDigit = false

/-- A number could not go on with this. -/
def EndsNumber (rest : List Char) : Prop :=
  ∀ c ∈ rest.head?, c.isDigit = false ∧ c ≠ '.' ∧ c ≠ 'e' ∧ c ≠ 'E'

theorem EndsNumber.endsDigits {rest : List Char} (ends : EndsNumber rest) : EndsDigits rest :=
  fun c first => (ends c first).1

theorem EndsDigits.takeWhile_append {rest digits : List Char} (ends : EndsDigits rest)
    (all : ∀ c ∈ digits, c.isDigit = true) :
    (digits ++ rest).takeWhile Char.isDigit = digits := by
  rw [List.takeWhile_append_of_pos all]
  cases rest with
  | nil => rw [List.takeWhile_nil, List.append_nil]
  | cons c more =>
      rw [List.takeWhile_cons, ends c rfl]
      exact List.append_nil digits

namespace Numeral

def signText (negative : Bool) : List Char :=
  if negative then ['-'] else []

def pointText (fraction : List Char) : List Char :=
  if fraction.isEmpty then [] else '.' :: fraction

def exponentText (plus : Bool) : Option Int → List Char
  | none => []
  | some exponent =>
      'e' :: ((if exponent < 0 then ['-'] else if plus then ['+'] else [])
        ++ digitText exponent.natAbs)

def text (plus : Bool) (numeral : Numeral) : List Char :=
  signText numeral.negative ++
    (numeral.whole ++ (pointText numeral.fraction ++ exponentText plus numeral.exponent))

/-- The numerals of the grammar: there are digits before the point, without a leading zero. -/
structure Proper (numeral : Numeral) : Prop where
  filled : numeral.whole ≠ []
  whole : ∀ c ∈ numeral.whole, c.isDigit = true
  fraction : ∀ c ∈ numeral.fraction, c.isDigit = true
  single : numeral.whole.head? = some '0' → numeral.whole = ['0']

def toRat (numeral : Numeral) : ℚ :=
  (if numeral.negative then -1 else 1) * digitsValue (numeral.whole ++ numeral.fraction) *
    10 ^ (numeral.exponent.getD 0 - numeral.fraction.length)

end Numeral

namespace Document

open Numeral

variable {rest : List Char}

theorem readExponent_signed {sign digits : List Char} (ends : EndsDigits rest)
    (signs : sign = [] ∨ sign = ['+'] ∨ sign = ['-']) (filled : digits ≠ [])
    (all : ∀ c ∈ digits, c.isDigit = true) (negative : Bool) (whole fraction : List Char)
    (size : Nat) :
    readExponent negative whole fraction size ('e' :: (sign ++ (digits ++ rest))) =
      (.number ⟨negative, whole, fraction,
          some (if sign = ['-'] then -(digitsValue digits : Int) else digitsValue digits)⟩,
        some (size + 1 + sign.length + digits.length)) := by
  have found : ((sign ++ (digits ++ rest)).take 1).filter (fun c => c = '+' || c = '-') = sign := by
    rcases signs with rfl | rfl | rfl
    · obtain ⟨first, others, rfl⟩ := List.exists_cons_of_ne_nil filled
      have digit := all first List.mem_cons_self
      have other : ¬(first = '+' ∨ first = '-') := by
        rintro (rfl | rfl) <;> exact absurd digit (by decide)
      simpa using other
    · rfl
    · rfl
  rw [readExponent, if_pos (by decide)]
  dsimp only
  rw [found, List.drop_left, ends.takeWhile_append all, if_neg (by simpa using filled)]

theorem readExponent_text (ends : EndsNumber rest) (plus negative : Bool)
    (whole fraction : List Char) (size : Nat) (exponent : Option Int) :
    readExponent negative whole fraction size (exponentText plus exponent ++ rest) =
      (.number ⟨negative, whole, fraction, exponent⟩,
        some (size + (exponentText plus exponent).length)) := by
  cases exponent with
  | none =>
      cases rest with
      | nil => rfl
      | cons c more =>
          obtain ⟨-, -, small, capital⟩ := ends c rfl
          rw [exponentText, List.nil_append, readExponent, if_neg (by simp [small, capital])]
          rfl
  | some exponent =>
      let sign : List Char := if exponent < 0 then ['-'] else if plus then ['+'] else []
      have signs : sign = [] ∨ sign = ['+'] ∨ sign = ['-'] := by
        simp only [sign]
        split_ifs <;> simp
      have value : (if sign = ['-'] then -(digitsValue (digitText exponent.natAbs) : Int)
          else digitsValue (digitText exponent.natAbs)) = exponent := by
        rw [digitsValue_digitText]
        simp only [sign]
        split_ifs <;> first | contradiction | omega
      have read := readExponent_signed ends.endsDigits signs (digitText_ne_nil exponent.natAbs)
        (fun _ => isDigit_of_mem_digitText) negative whole fraction size
      rw [value] at read
      rw [exponentText, List.cons_append, List.append_assoc, read, List.length_cons,
        List.length_append]
      simp only [Prod.mk.injEq, Option.some.injEq, true_and, sign]
      omega

theorem endsDigits_exponentText (ends : EndsNumber rest) (plus : Bool) (exponent : Option Int) :
    EndsDigits (exponentText plus exponent ++ rest) ∧
      (exponentText plus exponent ++ rest).head? ≠ some '.' := by
  cases exponent with
  | none => exact ⟨ends.endsDigits, fun point => (ends '.' point).2.1 rfl⟩
  | some exponent =>
      refine ⟨?_, by simp [exponentText]⟩
      intro c first
      obtain rfl : 'e' = c := Option.some.inj first
      rfl

theorem readUnsigned_text {numeral : Numeral} (proper : numeral.Proper) (ends : EndsNumber rest)
    (plus : Bool) (size : Nat) :
    readUnsigned numeral.negative size (numeral.whole ++
        (pointText numeral.fraction ++ exponentText plus numeral.exponent) ++ rest) =
      (.number numeral, some (size + (numeral.whole ++
        (pointText numeral.fraction ++ exponentText plus numeral.exponent)).length)) := by
  obtain ⟨endsDigits, noPoint⟩ := endsDigits_exponentText ends plus numeral.exponent
  have long : ¬(numeral.whole.head? = some '0' && decide (1 < numeral.whole.length)) = true := by
    intro both
    simp only [Bool.and_eq_true, decide_eq_true_eq] at both
    have single := proper.single both.1
    rw [single] at both
    exact absurd both.2 (by decide)
  have filled := proper.filled
  cases fraction : numeral.fraction with
  | nil =>
      have whole := endsDigits.takeWhile_append proper.whole
      simp only [pointText, List.isEmpty_nil, if_true, List.nil_append, List.append_assoc]
      rw [readUnsigned]
      dsimp only
      rw [whole, List.drop_left, if_neg (by simpa using filled), if_neg long, if_neg noPoint,
        readExponent_text ends, List.length_append, ← fraction, Nat.add_assoc]
  | cons digit others =>
      have point : EndsDigits ('.' :: (digit :: others ++
          (exponentText plus numeral.exponent ++ rest))) := by
        intro c first
        obtain rfl : '.' = c := Option.some.inj first
        rfl
      have whole := point.takeWhile_append proper.whole
      have behind := endsDigits.takeWhile_append proper.fraction
      rw [fraction] at behind
      have remaining : ('.' :: (digit :: others ++
          (exponentText plus numeral.exponent ++ rest))).drop (1 + (digit :: others).length) =
            exponentText plus numeral.exponent ++ rest := by
        rw [Nat.add_comm, List.drop_succ_cons, List.drop_left]
      simp only [pointText, List.isEmpty_cons, Bool.false_eq_true, if_false, List.cons_append,
        List.append_assoc] at whole remaining behind ⊢
      rw [readUnsigned]
      dsimp only
      rw [whole, List.drop_left, if_neg (by simpa using filled), if_neg long, List.head?_cons,
        if_pos rfl, List.drop_one, List.tail_cons, behind, remaining, if_neg (by simp),
        readExponent_text ends, ← fraction]
      refine congrArg₂ Prod.mk rfl (congrArg some ?_)
      simp only [List.length_append, List.length_cons, fraction]
      omega

theorem readNumber_text {numeral : Numeral} (proper : numeral.Proper) (ends : EndsNumber rest)
    (plus : Bool) : readNumber (numeral.text plus ++ rest) =
      (.number numeral, some (numeral.text plus).length) := by
  have read := readUnsigned_text proper ends plus
  obtain ⟨first, others, whole⟩ := List.exists_cons_of_ne_nil proper.filled
  have digit := proper.whole first (whole ▸ List.mem_cons_self)
  rw [Numeral.text, readNumber]
  cases negative : numeral.negative with
  | true =>
      have sign : signText true = ['-'] := rfl
      rw [negative] at read
      rw [sign, List.singleton_append, List.cons_append, List.head?_cons, if_pos rfl, List.drop_one,
        List.tail_cons, read, List.length_cons, Nat.add_comm]
  | false =>
      have unsigned : first ≠ '-' := by
        rintro rfl
        exact absurd digit (by decide)
      have noSign : signText false = [] := rfl
      rw [negative] at read
      rw [noSign, List.nil_append, if_neg (by simpa [whole] using unsigned), read, Nat.zero_add]

theorem Reads.numeral {numeral : Numeral} (proper : numeral.Proper) (ends : EndsNumber rest)
    (plus : Bool) : Reads (numeral.text plus ++ rest) (.number numeral) rest := by
  have read := readNumber_text proper ends plus
  have starts : ∃ c more, numeral.text plus = c :: more ∧ (c = '-' ∨ c.isDigit) := by
    obtain ⟨first, others, whole⟩ := List.exists_cons_of_ne_nil proper.filled
    have digit := proper.whole first (whole ▸ List.mem_cons_self)
    rw [Numeral.text, signText, whole]
    cases numeral.negative with
    | true => exact ⟨'-', _, rfl, .inl rfl⟩
    | false => exact ⟨first, _, rfl, .inr digit⟩
  obtain ⟨c, more, text, numeric⟩ := starts
  have visible : isSpace c = false := by
    cases space : isSpace c with
    | false => rfl
    | true =>
        simp only [isSpace, Bool.or_eq_true, decide_eq_true_eq] at space
        rcases space with ((rfl | rfl) | rfl) | rfl <;> exact absurd numeric (by decide)
  rw [text, List.cons_append] at read ⊢
  have all := Reads.number (skipSpace_cons visible) numeric read
  rwa [List.drop_left] at all

end Document

end SqlMetrics
