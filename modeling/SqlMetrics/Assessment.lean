import SqlMetrics.Features.Counters
import SqlMetrics.Weights

/-!
# Assessing queries

A profile is a dialect with weights. It assesses a single query, or a batch of queries each on its
own: those that cannot be parsed are skipped, the others are assessed in their order.
-/

set_option autoImplicit false

namespace SqlMetrics

/-- What is found out about a query. -/
structure Assessment where
  query : String
  features : Features
  length : TextLength
  complexity : Float

/-- A query of a batch that cannot be parsed. -/
structure Skipped where
  /-- The number of queries before it. -/
  index : Nat
  error : ParseError
  deriving DecidableEq, Repr

/-- What is found out about a batch of queries. -/
structure Batch where
  assessed : List Assessment := []
  skipped : List Skipped := []

/-- A dialect by its name, with weights. -/
structure Profile where
  dialectName : String
  dialect : Dialect
  weights : Weights
  named : Dialect.ofName? dialectName = some dialect

namespace Profile

/-- The profile of a dialect name, if there is such a dialect. -/
def ofName? (name : String) (weights : Weights) : Option Profile :=
  match named : Dialect.ofName? name with
  | none => none
  | some dialect => some ⟨name, dialect, weights, named⟩

def assessStatement (profile : Profile) (query : String) (statement : Statement) : Assessment :=
  let features := statement.features
  let length := TextLength.of query
  ⟨query, features, length, profile.weights.score features length⟩

def assess (profile : Profile) (query : String) : Except ParseError Assessment :=
  (Statement.parse profile.dialect query).map (profile.assessStatement query)

/-- Puts the outcome of a query before those of the queries that follow it. -/
def record (index : Nat) (outcome : Except ParseError Assessment) (others : Batch) : Batch :=
  match outcome with
  | .ok assessment => { others with assessed := assessment :: others.assessed }
  | .error error => { others with skipped := ⟨index, error⟩ :: others.skipped }

/-- The outcomes of a batch of which `index` queries came before. -/
def assessFrom (profile : Profile) (index : Nat) : List String → Batch
  | [] => {}
  | query :: rest =>
      record index (profile.assess query) (profile.assessFrom (index + 1) rest)

def assessAll (profile : Profile) (queries : List String) : Batch :=
  profile.assessFrom 0 queries

end Profile

end SqlMetrics
