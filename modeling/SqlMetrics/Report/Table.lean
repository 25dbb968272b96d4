import SqlMetrics.Assessment
import SqlMetrics.Report.Histogram

/-!
# The figures of a report

What a report tells about a list of assessments, before it is written: for each count its least
and greatest value, its mean and how often it is not zero, and how often each value occurs; for the
complexity and the length of the queries the bounds, the mean and a histogram.
-/

set_option autoImplicit false

namespace SqlMetrics

/-- The sum of doubles from left to right, beginning with negative zero. -/
def sumFloats (values : List Float) : Float :=
  values.foldl (· + ·) (-0.0)

/-- The mean of doubles, zero if there are none. -/
def meanFloat (values : List Float) : Float :=
  if values.isEmpty then 0 else sumFloats values / Float.ofNat values.length

/-- The values of a count in the order of the assessments. -/
def featureValues (assessed : List Assessment) (feature : Feature) : List Int :=
  assessed.map fun assessment => assessment.features.value feature

/-- The figures of a count. -/
structure FeatureSummary where
  least : Int
  greatest : Int
  mean : Float
  nonZero : Nat

def FeatureSummary.of (values : List Int) : FeatureSummary where
  least := values.min?.getD 0
  greatest := values.max?.getD 0
  mean := meanFloat (values.map Float.ofInt)
  nonZero := values.countP (· != 0)

/-- Counts one more occurrence of a value; the values are in ascending order. -/
def tally (value : Int) : List (Int × Nat) → List (Int × Nat)
  | [] => [(value, 1)]
  | entry :: rest =>
      if value = entry.1 then (value, entry.2 + 1) :: rest
      else if value < entry.1 then (value, 1) :: entry :: rest
      else entry :: tally value rest

/-- Each value with the number of its occurrences, in ascending order. -/
def distribution (values : List Int) : List (Int × Nat) :=
  values.foldl (fun counted value => tally value counted) []

def share (count total : Nat) : Float :=
  Float.ofNat count / Float.ofNat total * 100

def complexities (assessed : List Assessment) : List Float :=
  assessed.map Assessment.complexity

def lineCounts (assessed : List Assessment) : List Float :=
  assessed.map fun assessment => Float.ofNat assessment.length.lines

def characterCounts (assessed : List Assessment) : List Float :=
  assessed.map fun assessment => Float.ofNat assessment.length.characters

end SqlMetrics
