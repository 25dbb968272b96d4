import SqlMetrics.Decimal.Reading
import SqlMetrics.Json.Fault
import SqlMetrics.Json.Value

/-!
# Numbers in JSON texts

The parts of a number as they are written (`Numeral`), and the number they stand for. An integer
of 64 bits is exact. Any other number is a double found in two steps: as many leading digits as
fit into 64 bits, converted to a double, are scaled by a power of ten. The result is not always
the nearest double.
-/

set_option autoImplicit false

namespace SqlMetrics

/-- A number as it is written. -/
structure Numeral where
  negative : Bool
  whole : List Char
  /-- The digits behind the point; none if there is no point. -/
  fraction : List Char
  /-- The exponent, if there is one. -/
  exponent : Option Int
  deriving Repr

namespace Numeral

def wordLimit : Nat := 0x10000000000000000

def signedLimit : Nat := 0x8000000000000000

/-- The digits of a number as `significand * 10 ^ exponent`. Once a digit no longer fits, a digit
before the point only raises the exponent. -/
def addWholeDigit (state : Nat × Int) (digit : Char) : Nat × Int :=
  let next := state.1 * 10 + (digit.toNat - 48)
  if state.2 = 0 && next < wordLimit then (next, 0) else (state.1, state.2 + 1)

/-- Adds the digits behind the point, as long as they fit. -/
def addFraction (state : Nat × Int) : List Char → Nat × Int
  | [] => state
  | digit :: rest =>
      let next := state.1 * 10 + (digit.toNat - 48)
      if next < wordLimit then addFraction (next, state.2 - 1) rest else state

/-- The significand and the exponent that the digits of a number form. -/
def scaled (numeral : Numeral) : Nat × Int :=
  addFraction (numeral.whole.foldl addWholeDigit (0, 0)) numeral.fraction

def tenPower (exponent : Nat) : Float :=
  Float.ofScientific 1 false exponent

/-- The double `value * 10 ^ exponent`; none if it is too great. -/
def scale? (value : Float) (exponent : Int) : Option Float :=
  if 308 < exponent then if value == 0 then some value else none
  else if 0 ≤ exponent then
    let product := value * tenPower exponent.toNat
    if product.isInf then none else some product
  else if -308 ≤ exponent then some (value / tenPower (-exponent).toNat)
  else if value == 0 then some value
  else scale? (value / tenPower 308) (exponent + 308)
termination_by (-exponent).toNat
decreasing_by omega

/-- The number that a numeral stands for; none if it is beyond the doubles. -/
def value? (numeral : Numeral) : Option JsonNumber :=
  let digits := numeral.whole.foldl addWholeDigit (0, 0)
  if numeral.fraction.isEmpty && numeral.exponent.isNone && digits.2 = 0 then
    if !numeral.negative then some (.whole digits.1)
    else if digits.1 = 0 || signedLimit < digits.1 then some (.real (-(Float.ofNat digits.1)))
    else some (.whole (-(digits.1 : Int)))
  else
    let parts := numeral.scaled
    (scale? (Float.ofNat parts.1) (parts.2 + numeral.exponent.getD 0)).map fun value =>
      .real (if numeral.negative then -value else value)

end Numeral

def JsonNumber.toFloat : JsonNumber → Float
  | .whole value => Float.ofInt value
  | .real value => value

end SqlMetrics
