import SqlMetrics.Features
import SqlMetrics.Json.Reading
import SqlMetrics.TextLength

/-!
# Weights and scores

The complexity of a query is the sum of its counts, each times its weight. All arithmetic is that
of doubles, and the terms are added in the order of the counts. A weights file names the weights
it changes; the others keep their defaults.
-/

set_option autoImplicit false

namespace SqlMetrics

/-- What each count adds to the complexity of a query. -/
structure Weights where
  joins : Float := 1.5
  subqueries : Float := 2
  whereConditions : Float := 1
  functions : Float := 1.5
  tables : Float := 1
  groupBy : Float := 1
  orderBy : Float := 1
  lines : Float := 0
  characters : Float := 0

/-- One of the weights: that of a count, or that of a length. -/
inductive Weight where
  | feature (feature : Feature)
  | lines
  | characters
  deriving DecidableEq, Repr

namespace Weight

def all : List Weight :=
  Feature.all.map feature ++ [lines, characters]

def name : Weight → String
  | feature counted => counted.name
  | lines => "lines"
  | characters => "characters"

def ofName? (name : String) : Option Weight :=
  all.find? fun weight => weight.name = name

end Weight

namespace Weights

def get (weights : Weights) : Weight → Float
  | .feature .joins => weights.joins
  | .feature .subqueries => weights.subqueries
  | .feature .whereConditions => weights.whereConditions
  | .feature .functions => weights.functions
  | .feature .tables => weights.tables
  | .feature .groupBy => weights.groupBy
  | .feature .orderBy => weights.orderBy
  | .lines => weights.lines
  | .characters => weights.characters

def set (weights : Weights) (weight : Weight) (value : Float) : Weights :=
  match weight with
  | .feature .joins => { weights with joins := value }
  | .feature .subqueries => { weights with subqueries := value }
  | .feature .whereConditions => { weights with whereConditions := value }
  | .feature .functions => { weights with functions := value }
  | .feature .tables => { weights with tables := value }
  | .feature .groupBy => { weights with groupBy := value }
  | .feature .orderBy => { weights with orderBy := value }
  | .lines => { weights with lines := value }
  | .characters => { weights with characters := value }

/-! ## Scores -/

/-- The weighted sum of the seven counts. -/
def scoreFeatures (weights : Weights) (features : Features) : Float :=
  Float.ofNat features.joins * weights.joins
    + Float.ofInt features.subqueries * weights.subqueries
    + Float.ofNat features.whereConditions * weights.whereConditions
    + Float.ofNat features.functions * weights.functions
    + Float.ofNat features.tables * weights.tables
    + Float.ofNat features.groupBy * weights.groupBy
    + Float.ofNat features.orderBy * weights.orderBy

def score (weights : Weights) (features : Features) (length : TextLength) : Float :=
  weights.scoreFeatures features
    + Float.ofNat length.lines * weights.lines
    + Float.ofNat length.characters * weights.characters

/-! ## Weights as JSON -/

/-- A weight in a document: any number. -/
def numberIn (document : Document) : Except JsonFault Float :=
  match document with
  | .number numeral => (Document.numberOf numeral).map JsonNumber.toFloat
  | other => .error other.mismatch

/-- Sets the weights that members name; `seen` are those named before. -/
def setMembers (weights : Weights) (seen : List Weight) :
    List Member → Except JsonFault Weights
  | [] => .ok weights
  | (name, document) :: rest => do
      match Weight.ofName? (← name) with
      | none => .error .unsuitable
      | some weight =>
          if seen.contains weight then .error .unsuitable
          else
            let value ← numberIn document
            setMembers (weights.set weight value) (weight :: seen) rest

/-- Sets the weights in their order to the items of an array. -/
def setItems (weights : Weights) : List Weight → List Document → Except JsonFault Weights
  | _, [] => .ok weights
  | [], _ :: _ => .error .malformed
  | weight :: others, item :: rest => do
      let value ← numberIn item
      setItems (weights.set weight value) others rest

/-- The weights in a document: the default weights as an object or an array changes them. -/
def ofDocument : Document → Except JsonFault Weights
  | .object members ending => do
      let weights ← setMembers {} [] members
      Document.closed ending
      return weights
  | .array items ending => do
      let weights ← setItems {} Weight.all items
      Document.closed ending
      return weights
  | document => .error document.mismatch

def read (text : String) : Except JsonFault Weights :=
  Document.decode ofDocument text

def toJson (weights : Weights) : Json :=
  .object (Weight.all.map fun weight => (weight.name, .number (.real (weights.get weight))))

end Weights

def Features.complexity (features : Features) : Float :=
  Weights.scoreFeatures {} features

end SqlMetrics
