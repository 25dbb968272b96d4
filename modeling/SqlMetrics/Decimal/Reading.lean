/-!
# Reading doubles

A decimal text is an optional sign, digits with at most one point among or around them, and an
optional power of ten; besides there are names for the infinities and for what is not a number.
The double is the one nearest to the decimal.
-/

set_option autoImplicit false

namespace SqlMetrics

def digitsValue (digits : List Char) : Nat :=
  digits.foldl (fun number digit => number * 10 + (digit.toNat - 48)) 0

/-- The double nearest to `digits * 10 ^ exponent`, where `digits` has `count` digits and none of
them is a leading zero. -/
def nearestFloat (digits count : Nat) (exponent : Int) : Float :=
  if digits = 0 then 0
  else if 400 < exponent + count then 1 / 0
  else if exponent + count < -400 then 0
  else Float.ofScientific digits (exponent < 0) exponent.natAbs

def readExponent? (text : List Char) : Option Int :=
  let digits := match text with
    | '+' :: rest => rest
    | '-' :: rest => rest
    | _ => text
  if digits.isEmpty || !digits.all Char.isDigit then none
  else if text.head? = some '-' then some (-(digitsValue digits : Int))
  else some (digitsValue digits)

def readUnsigned? (text : List Char) : Option Float :=
  let whole := text.takeWhile Char.isDigit
  let behind := text.drop whole.length
  let fraction := if behind.head? = some '.' then (behind.drop 1).takeWhile Char.isDigit else []
  let rest := if behind.head? = some '.' then behind.drop (fraction.length + 1) else behind
  let digits := whole ++ fraction
  if digits.isEmpty then none
  else
    let count := (digits.dropWhile (· = '0')).length
    let make := fun exponent : Int =>
      nearestFloat (digitsValue digits) count (exponent - fraction.length)
    match rest with
    | [] => some (make 0)
    | mark :: exponent =>
        if mark = 'e' || mark = 'E' then (readExponent? exponent).map make else none

def readFloat? (text : String) : Option Float :=
  let unsigned := match text.toList with
    | '+' :: rest => rest
    | '-' :: rest => rest
    | whole => whole
  let value := match String.ofList (unsigned.map Char.toLower) with
    | "inf" => some (1 / 0)
    | "infinity" => some (1 / 0)
    | "nan" => some (0 / 0)
    | _ => readUnsigned? unsigned
  if text.toList.head? = some '-' then value.map Float.neg else value

end SqlMetrics
