import SqlMetrics.Cli.Filter
import SqlMetrics.Cli.Run

/-!
# The program

Reads the command line, runs on the files of the system, and shows the events of the run.
-/

set_option autoImplicit false

namespace SqlMetrics

/-- The number of an error of the system, which some operations report as a negative number. -/
def errorNumber (code : UInt32) : Nat :=
  if code < 0x80000000 then code.toNat else (0 - code).toNat

def faultOf (error : IO.Error) : FileFault :=
  match error with
  | .noFileOrDirectory _ _ _ => .notFound
  | .alreadyExists _ _ _ => .alreadyExists
  | .inappropriateType _ code _ =>
      if errorNumber code = 20 then .notDirectory
      else if errorNumber code = 21 then .isDirectory
      else .other (toString error)
  | .invalidArgument _ code _ =>
      if errorNumber code = 36 then .nameTooLong else .other (toString error)
  | other => .other (toString other)

def outcomeOf {α : Type} (action : IO α) : IO (Except FileFault α) := do
  match ← action.toBaseIO with
  | .ok value => return .ok value
  | .error error => return .error (faultOf error)

instance : Files IO where
  readFile path := outcomeOf (IO.FS.readBinFile path)
  createDirectories path :=
    if path.isEmpty then return .ok () else outcomeOf (IO.FS.createDirAll path)
  writeFile path contents := outcomeOf (IO.FS.writeBinFile path contents)

def usage : String :=
  String.intercalate "\n" [
    "Score SQL queries by structural complexity",
    "",
    "Usage: sql-complexity [OPTIONS] <INPUT>",
    "",
    "Arguments:",
    "  <INPUT>  Input table (.csv or .json) with a `sql` column",
    "",
    "Options:",
    "      --output-dir <OUTPUT_DIR>  Output directory [default: sql-complexity-output]",
    "      --name <NAME>              Base name for output files (defaults to the input file stem)",
    "      --dialect <DIALECT>        SQL dialect used for tokenizing [default: generic]",
    "      --weights <WEIGHTS>        JSON file overriding the default score weights",
    "      --verbose                  Print verbose diagnostics",
    "  -h, --help                     Print help",
    ""]

/-- Shows an event. -/
def showEvent (event : Cli.Event) : IO Unit :=
  IO.eprintln (event.level.text ++ " " ++ event.target ++ ": " ++ event.text)

end SqlMetrics

open SqlMetrics

/-- The program: the exit code is 2 if the command line is wrong or the run fails. -/
def main (arguments : List String) : IO UInt32 := do
  match Cli.invocationOf arguments with
  | .help =>
      IO.print usage
      return 0
  | .misuse =>
      IO.eprint usage
      return 2
  | .run options =>
      let outcome : Cli.Outcome ← Cli.run options
      let filter := Cli.filterFor options.verbose (← IO.getEnv "SQL_COMPLEXITY_LOG")
      for event in outcome.events.filter (Cli.Event.isShown filter) do
        showEvent event
      return outcome.exitCode.toUInt32
