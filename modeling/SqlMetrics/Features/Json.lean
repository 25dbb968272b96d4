import SqlMetrics.Features
import SqlMetrics.Json.Reading

/-!
# Feature counts as JSON

An object with a member for each count, in their order. In reading, members may stand in any order
and others are skipped, but each count has to occur once; an array of the seven counts is read
too. A count is an integer of 64 bits, with a sign only for subqueries.
-/

set_option autoImplicit false

namespace SqlMetrics

namespace Features

def toJson (features : Features) : Json :=
  .object (Feature.all.map fun feature => (feature.name, .number (.whole (features.get feature))))

def inRange (feature : Feature) (count : Int) : Bool :=
  if feature = .subqueries then -Numeral.signedLimit ≤ count && count < Numeral.signedLimit
  else 0 ≤ count && count < Numeral.wordLimit

def countIn (feature : Feature) (document : Document) : Except JsonFault Int :=
  match document with
  | .number numeral => do
      match ← Document.numberOf numeral with
      | .whole count => if inRange feature count then .ok count else .error .unsuitable
      | .real _ => .error .unsuitable
  | other => .error other.mismatch

/-- Sets the counts that members name, and tells which these are; `seen` are those named before. -/
def setMembers (features : Features) (seen : List Feature) :
    List Member → Except JsonFault (Features × List Feature)
  | [] => .ok (features, seen)
  | (name, document) :: rest => do
      match Feature.ofName? (← name) with
      | none =>
          match document.skipFault? with
          | some fault => .error fault
          | none => setMembers features seen rest
      | some feature =>
          if seen.contains feature then .error .unsuitable
          else
            let count ← countIn feature document
            setMembers (features.set feature count) (feature :: seen) rest

/-- Sets the counts in their order to the items of an array, which has one for each. -/
def setItems (features : Features) (ending : Option Breakage) :
    List Feature → List Document → Except JsonFault Features
  | [], [] => do
      Document.closed ending
      return features
  | [], _ :: _ => .error .malformed
  | _ :: _, [] => do
      Document.closed ending
      .error .unsuitable
  | feature :: others, item :: rest => do
      let count ← countIn feature item
      setItems (features.set feature count) ending others rest

def ofDocument : Document → Except JsonFault Features
  | .object members ending => do
      let (features, seen) ← setMembers {} [] members
      Document.closed ending
      if Feature.all.all seen.contains then return features else .error .unsuitable
  | .array items ending => setItems {} ending Feature.all items
  | document => .error document.mismatch

def read (text : String) : Except JsonFault Features :=
  Document.decode ofDocument text

end Features

end SqlMetrics
