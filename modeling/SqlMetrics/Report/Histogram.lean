/-!
# Histograms

Ten bins of equal width from the least to the greatest value. Where all values are equal the range
is widened by a half on either side. A bin holds the values from its start up to its end, without
the end, except that the last bin has its end too. The arithmetic is a parameter: reports use
doubles.
-/

set_option autoImplicit false

namespace SqlMetrics

/-- The arithmetic of values and bin bounds. -/
class BinArithmetic (α : Type) extends Add α, Sub α, Mul α, Div α where
  ofNat : Nat → α
  half : α
  least : List α → α
  greatest : List α → α
  equal : α → α → Bool
  /-- The number of whole units in a value, none if it is negative. -/
  wholeUnits : α → Nat

/-- The lesser of two doubles; what is not a number does not count, and of equal ones the second
is kept. -/
def lesser (left right : Float) : Float :=
  if right.isNaN then left else if left < right then left else right

/-- The greater of two doubles; what is not a number does not count, and of equal ones the second
is kept. -/
def greater (left right : Float) : Float :=
  if right.isNaN then left else if right < left then left else right

/-- The least double of a list; infinity if there is none. -/
def leastFloat (values : List Float) : Float :=
  values.foldl lesser (1 / 0)

/-- The greatest double of a list; negative infinity if there is none. -/
def greatestFloat (values : List Float) : Float :=
  values.foldl greater (-1 / 0)

/-- The arithmetic of doubles; what is not a number has no whole units. -/
instance : BinArithmetic Float where
  ofNat := Float.ofNat
  half := 0.5
  least := leastFloat
  greatest := greatestFloat
  equal left right := left == right
  wholeUnits value := value.toUInt64.toNat

structure Bin (α : Type) where
  start : α
  stop : α
  count : Nat
  isLast : Bool

namespace Histogram

variable {α : Type} [BinArithmetic α]

def binCount : Nat := 10

def range (values : List α) : α × α :=
  let low := BinArithmetic.least values
  let high := BinArithmetic.greatest values
  if BinArithmetic.equal low high then (low - BinArithmetic.half, high + BinArithmetic.half)
  else (low, high)

def width (bounds : α × α) : α :=
  (bounds.2 - bounds.1) / BinArithmetic.ofNat binCount

def binOf (bounds : α × α) (value : α) : Nat :=
  min (BinArithmetic.wholeUnits ((value - bounds.1) / width bounds)) (binCount - 1)

def startOf (bounds : α × α) (number : Nat) : α :=
  bounds.1 + width bounds * BinArithmetic.ofNat number

def bin (values : List α) (bounds : α × α) (number : Nat) : Bin α where
  start := startOf bounds number
  stop := if number + 1 = binCount then bounds.2 else startOf bounds (number + 1)
  count := values.countP fun value => binOf bounds value = number
  isLast := number + 1 = binCount

/-- The bins of a list of values; there are none without values. -/
def bins (values : List α) : List (Bin α) :=
  if values.isEmpty then []
  else (List.range binCount).map (bin values (range values))

end Histogram

end SqlMetrics
