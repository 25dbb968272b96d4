import SqlMetrics.Decimal.Shortest

/-!
# Doubles as text

Two families of texts: the shortest decimal that reads back (`FloatStyle.render`), with a power of
ten where the number is very great or small, and a fixed number of places (`fixedText`), which
rounds the exact value and lets a half go to the even neighbour.
-/

set_option autoImplicit false

namespace SqlMetrics

def digitText (number : Nat) : List Char :=
  Nat.toDigits 10 number

/-- How the shortest decimal is written. -/
structure FloatStyle where
  /-- Numbers `d.ddd * 10 ^ e` with `e` between these two are written without a power of ten;
  all numbers are, if there are no bounds. -/
  plainBounds : Option (Int × Int)
  /-- A whole number ends in `.0`. -/
  wholeHasPoint : Bool
  /-- A positive exponent has a plus sign. -/
  exponentHasPlus : Bool

def plainText (wholeHasPoint : Bool) (decimal : Decimal) : List Char :=
  let digits := digitText decimal.digits
  if 0 ≤ decimal.exponent then
    let ending := if wholeHasPoint then ['.', '0'] else []
    digits ++ List.replicate decimal.exponent.toNat '0' ++ ending
  else
    let places := (-decimal.exponent).toNat
    let padded := List.replicate (places + 1 - digits.length) '0' ++ digits
    padded.take (padded.length - places) ++ '.' :: padded.drop (padded.length - places)

/-- The text of a decimal with a power of ten and one digit before the point. -/
def scientificText (exponentHasPlus : Bool) (decimal : Decimal) : List Char :=
  let digits := digitText decimal.digits
  let exponent := decimal.exponent + digits.length - 1
  let point := if digits.length = 1 then [] else ['.']
  let sign := if exponent < 0 then ['-'] else if exponentHasPlus then ['+'] else []
  digits.take 1 ++ point ++ digits.drop 1 ++ 'e' :: sign ++ digitText exponent.natAbs

def FloatStyle.decimalText (style : FloatStyle) (decimal : Decimal) : List Char :=
  let magnitude := decimal.exponent + (digitText decimal.digits).length - 1
  match style.plainBounds with
  | none => plainText style.wholeHasPoint decimal
  | some bounds =>
      if bounds.1 ≤ magnitude && magnitude ≤ bounds.2 then
        plainText style.wholeHasPoint decimal
      else scientificText style.exponentHasPlus decimal

/-- A sign before a text. -/
def signed (negative : Bool) (text : List Char) : String :=
  String.ofList (if negative then '-' :: text else text)

def FloatStyle.render (style : FloatStyle) (value : Float) : String :=
  match BinaryParts.ofFloat value with
  | .notANumber => "NaN"
  | .infinite negative => signed negative ['i', 'n', 'f']
  | .finite negative mantissa exponent =>
      let decimal := if mantissa = 0 then ⟨0, 0⟩ else shortestDecimal mantissa exponent
      signed negative (style.decimalText decimal)

/-- Numbers in data: a power of ten from 10^16 on and below 10^-5, and a point in every number
without one. -/
def FloatStyle.data : FloatStyle :=
  ⟨some (-5, 15), true, true⟩

/-- Numbers in tables of comma-separated values: as in data, but without a plus sign. -/
def FloatStyle.table : FloatStyle :=
  ⟨some (-5, 15), true, false⟩

/-- Numbers in running text: never a power of ten, and no point in whole numbers. -/
def FloatStyle.prose : FloatStyle :=
  ⟨none, false, false⟩

/-- The text of a double with a fixed number of places. The sign stays where the number rounds to
zero. -/
def fixedText (places : Nat) (value : Float) : String :=
  match BinaryParts.ofFloat value with
  | .notANumber => "NaN"
  | .infinite negative => signed negative ['i', 'n', 'f']
  | .finite negative mantissa exponent =>
      let power := powerRatio 2 exponent
      let rounded := roundHalfEven (mantissa * power.1 * Nat.pow 10 places) power.2
      signed negative (plainText false ⟨rounded, -(places : Int)⟩)

end SqlMetrics
