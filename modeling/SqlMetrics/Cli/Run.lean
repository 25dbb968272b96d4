import SqlMetrics.Cli.Event
import SqlMetrics.Cli.Options
import SqlMetrics.QueryTable
import SqlMetrics.Results

/-!
# A run of the program

The queries are loaded, the weights file is read, the dialect is looked up, the queries are
assessed and the results are written. The first of these that fails ends the run, and nothing is
written before the last.
-/

set_option autoImplicit false

namespace SqlMetrics

namespace Cli

/-- What a run reported, and its error if it failed. -/
structure Outcome where
  events : List Event
  error : Option Error

namespace Outcome

/-- The outcome of a run that reported events and then failed. -/
def failed (events : List Event) (error : Error) : Outcome :=
  ⟨events ++ [.failed error], some error⟩

def exitCode (outcome : Outcome) : Nat :=
  if outcome.error.isSome then 2 else 0

end Outcome

def defaultName (input : Path) : String :=
  match input.stem? with
  | none => "queries"
  | some stem => if stem.isEmpty then "queries" else stem

def Options.outputName (options : Options) : String :=
  options.name.getD (defaultName options.input)

variable {m : Type → Type} [Monad m] [Files m]

def loadWeights (options : Options) : m (Except Error Weights) :=
  match options.weights with
  | none => return .ok {}
  | some path => do
      let contents ← Files.readFile path
      return (textFrom path contents).bind fun text => (Weights.read text).mapError .weights

def profileOf (options : Options) (weights : Weights) : Except Error Profile :=
  match Profile.ofName? options.dialect weights with
  | none => .error (.unknownDialect options.dialect)
  | some profile => .ok profile

def batchEvents (profile : Profile) (batch : Batch) : List Event :=
  batch.skipped.map .skipped
    ++ [.analyzed batch.assessed.length batch.skipped.length profile.dialectName]

/-- Assesses queries and writes the results; `events` were reported before. -/
def finish (options : Options) (events : List Event) (queries : List String) (profile : Profile) :
    m Outcome := do
  let batch := profile.assessAll queries
  let reported := events ++ batchEvents profile batch
  match ← writeBatch options.outputDirectory options.outputName batch with
  | .error error => return .failed reported error
  | .ok () =>
      let written : Event :=
        .wrote options.outputName batch.assessed.length batch.skipped.length
          options.outputDirectory
      return ⟨reported ++ [written], none⟩

def run (options : Options) : m Outcome := do
  match ← QueryTable.load options.input with
  | .error error => return .failed [] error
  | .ok queries =>
      let events := [.loaded queries.length options.input]
      match ← loadWeights options with
      | .error error => return .failed events error
      | .ok weights =>
          match profileOf options weights with
          | .error error => return .failed events error
          | .ok profile => finish options events queries profile

end Cli

end SqlMetrics
