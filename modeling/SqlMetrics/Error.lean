import SqlMetrics.Csv.Grammar
import SqlMetrics.Files.Store
import SqlMetrics.Json.Fault

/-!
# Errors of a run

Why a table of queries cannot be loaded, a setting is refused, or results cannot be written. A
query that cannot be parsed is no error of a run: it is skipped.
-/

set_option autoImplicit false

namespace SqlMetrics

def queryColumn : String := "sql"

/-- Why a file of text cannot be read or written. -/
inductive AccessFault where
  | file (fault : FileFault)
  | notText
  deriving DecidableEq, Repr

def AccessFault.message : AccessFault → String
  | .file fault => fault.message
  | .notText => "stream did not contain valid UTF-8"

/-- Why a table of comma-separated values cannot be read or written. -/
inductive CsvFault where
  | file (fault : FileFault)
  /-- A record has another number of fields than the header. -/
  | unequalLengths (mark : Csv.Mark) (found expected : Nat)
  /-- The field with this number is text only up to this byte. -/
  | notText (mark : Csv.Mark) (field validLength : Nat)
  /-- No column is named exactly like the one with the queries. -/
  | missingColumn (mark : Csv.Mark)
  /-- Two columns are. -/
  | repeatedColumn (mark : Csv.Mark)
  deriving DecidableEq, Repr

/-- A place in a table, as it is named in most messages. -/
def markText (mark : Csv.Mark) : String :=
  "record " ++ toString mark.record ++ " (line: " ++ toString mark.line
    ++ ", byte: " ++ toString mark.byte ++ "): "

def CsvFault.message : CsvFault → String
  | .file fault => fault.message
  | .unequalLengths mark found expected =>
      "CSV error: " ++ markText mark ++ "found record with " ++ toString found
        ++ " fields, but the previous record has " ++ toString expected ++ " fields"
  | .notText mark field validLength =>
      "CSV parse error: record " ++ toString mark.record ++ " (line " ++ toString mark.line
        ++ ", field: " ++ toString field ++ ", byte: " ++ toString mark.byte
        ++ "): invalid utf-8: invalid UTF-8 in field " ++ toString field
        ++ " near byte index " ++ toString validLength
  | .missingColumn mark =>
      "CSV deserialize error: " ++ markText mark ++ "missing field \x60" ++ queryColumn ++ "\x60"
  | .repeatedColumn mark =>
      "CSV deserialize error: " ++ markText mark ++ "duplicate field \x60" ++ queryColumn ++ "\x60"

/-- Why a name for output files is refused. -/
inductive NameFault where
  | blank
  | absolute
  | traversal
  | separator
  deriving DecidableEq, Repr

def NameFault.message : NameFault → String
  | .blank => "name must not be empty"
  | .absolute => "absolute paths are not allowed"
  | .traversal => "traversal segments are not allowed"
  | .separator => "path separators are not allowed"

/-- Why a run fails. -/
inductive Error where
  | access (path : Path) (fault : AccessFault)
  | csv (path : Path) (fault : CsvFault)
  | json (path : Path) (fault : JsonFault)
  | missingColumn (path : Path)
  | unsupportedFormat (path : Path)
  | unknownDialect (name : String)
  | weights (fault : JsonFault)
  | outputName (name : String) (fault : NameFault)
  deriving DecidableEq, Repr

def JsonFault.message : JsonFault → String
  | .malformed => "malformed text"
  | .unsuitable => "unexpected value"
  | .cutShort => "unexpected end of text"

def Error.message : Error → String
  | .access path fault => "failed to access " ++ path ++ ": " ++ fault.message
  | .csv path fault => "CSV error in " ++ path ++ ": " ++ fault.message
  | .json path fault => "JSON error in " ++ path ++ ": " ++ fault.message
  | .missingColumn path =>
      "input " ++ path ++ " has no \x60" ++ queryColumn ++ "\x60 column"
  | .unsupportedFormat path =>
      "unsupported input format for " ++ path ++ ": expected .csv or .json"
  | .unknownDialect name => "unknown SQL dialect \x60" ++ name ++ "\x60"
  | .weights fault => "invalid complexity weights: " ++ fault.message
  | .outputName name fault => "invalid output name '" ++ name ++ "': " ++ fault.message

end SqlMetrics
