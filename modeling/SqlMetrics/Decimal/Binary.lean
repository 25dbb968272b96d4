/-!
# Doubles taken apart

A double is a sign with an integer times a power of two, an infinity, or not a number. All decimal
texts are made from these parts in exact integer arithmetic.
-/

set_option autoImplicit false

namespace SqlMetrics

/-- A double taken apart; the exact value of a finite one is `mantissa * 2 ^ exponent`. -/
inductive BinaryParts where
  | notANumber
  | infinite (negative : Bool)
  | finite (negative : Bool) (mantissa : Nat) (exponent : Int)
  deriving DecidableEq, Repr

def signWeight : Nat := 0x8000000000000000

/-- The weight of the lowest bit of the exponent: the fraction has the 52 bits below it. -/
def exponentWeight : Nat := 0x10000000000000

/-- The parts of a double, read off its 64 bits. -/
def BinaryParts.ofFloat (value : Float) : BinaryParts :=
  let bits := value.toBits.toNat
  let negative := signWeight ≤ bits
  let biased := bits / exponentWeight % 2048
  let fraction := bits % exponentWeight
  if biased = 2047 then if fraction = 0 then .infinite negative else .notANumber
  else if biased = 0 then .finite negative fraction (-1074)
  else .finite negative (exponentWeight + fraction) ((biased : Int) - 1075)

/-- A power with an integer exponent as a numerator and a denominator. -/
def powerRatio (base : Nat) (exponent : Int) : Nat × Nat :=
  (Nat.pow base exponent.toNat, Nat.pow base (-exponent).toNat)

/-- The integer nearest to a quotient; of two that are equally near, the even one. -/
def roundHalfEven (numerator denominator : Nat) : Nat :=
  let quotient := numerator / denominator
  let double := 2 * (numerator % denominator)
  if double < denominator then quotient
  else if denominator < double then quotient + 1
  else if quotient % 2 = 0 then quotient else quotient + 1

end SqlMetrics
