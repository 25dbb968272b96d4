import SqlMetrics.Decimal.Binary

/-!
# The shortest decimal of a double

Of the decimals that read back as a given double, `shortestDecimal` yields the one with the fewest
digits, and of several such the nearest. The reals that round to a double are an interval, whose
ends belong to it if the mantissa is even. The multiples of a power of ten form a grid; the
shortest decimal lies on the coarsest grid that has a point in the interval.
-/

set_option autoImplicit false

namespace SqlMetrics

/-- The decimal `digits * 10 ^ exponent`. -/
structure Decimal where
  digits : Nat
  exponent : Int
  deriving DecidableEq, Repr

/-- The reals that round to a double: those from `low / scale` to `high / scale`, around the exact
value `middle / scale`. -/
structure RoundingInterval where
  low : Nat
  middle : Nat
  high : Nat
  scale : Nat
  closed : Bool
  deriving Repr

namespace RoundingInterval

/-- The interval of a finite double; it is narrower below a power of two. -/
def ofParts (mantissa : Nat) (exponent : Int) : RoundingInterval :=
  let power := powerRatio 2 (exponent - 2)
  let below := if mantissa = exponentWeight && -1074 < exponent then 1 else 2
  { low := (4 * mantissa - below) * power.1
    middle := 4 * mantissa * power.1
    high := (4 * mantissa + 2) * power.1
    scale := power.2
    closed := mantissa % 2 = 0 }

/-- The point `digits * 10 ^ exponent` lies in the interval. -/
def contains (interval : RoundingInterval) (point : Decimal) : Bool :=
  let power := powerRatio 10 point.exponent
  let place := point.digits * power.1 * interval.scale
  let low := interval.low * power.2
  let high := interval.high * power.2
  if interval.closed then low ≤ place && place ≤ high else low < place && place < high

/-- The point of the grid of `10 ^ exponent` that is nearest to the value among its two neighbours
in the interval; of two that are equally near, the one with the even last digit. -/
def nearestOnGrid? (interval : RoundingInterval) (exponent : Int) : Option Decimal :=
  let power := powerRatio 10 exponent
  let numerator := interval.middle * power.2
  let denominator := interval.scale * power.1
  let below : Decimal := ⟨numerator / denominator, exponent⟩
  let above : Decimal := ⟨numerator / denominator + 1, exponent⟩
  if interval.contains below && interval.contains above then
    some ⟨roundHalfEven numerator denominator, exponent⟩
  else if interval.contains below then some below
  else if interval.contains above then some above
  else none

/-- The first grid with a point in the interval, from `10 ^ exponent` on to finer ones. -/
def coarsest (interval : RoundingInterval) (exponent : Int) : Nat → Decimal
  | 0 => ⟨0, 0⟩
  | steps + 1 =>
      match interval.nearestOnGrid? exponent with
      | some point => point
      | none => interval.coarsest (exponent - 1) steps

end RoundingInterval

/-- A power of ten above `mantissa * 2 ^ exponent`, by its exponent. -/
def decimalBound (mantissa : Nat) (exponent : Int) : Int :=
  let magnitude := (mantissa.log2 : Int) + exponent
  if 0 ≤ magnitude then magnitude / 3 + 2 else magnitude * 3 / 10 + 2

/-- The shortest decimal that reads back as the double `mantissa * 2 ^ exponent`, which is not
zero. All grids that may be needed are tried: the last digit of a double has at least the place
10^-1074. -/
def shortestDecimal (mantissa : Nat) (exponent : Int) : Decimal :=
  let bound := decimalBound mantissa exponent
  (RoundingInterval.ofParts mantissa exponent).coarsest bound (bound + 1100).toNat

end SqlMetrics
