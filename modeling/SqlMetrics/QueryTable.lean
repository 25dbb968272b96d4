import SqlMetrics.Error
import SqlMetrics.Json.Reading
import SqlMetrics.Text.Blank
import SqlMetrics.Text.Casing
import SqlMetrics.Text.Utf8

/-!
# Tables of queries

The input is a table with a column of queries: comma-separated values or an array of JSON objects,
by the extension of the file. All of a table is read or none of it.
-/

set_option autoImplicit false

namespace SqlMetrics

namespace QueryTable

/-! ## Comma-separated values -/

/-- The texts of the fields of a record; `number` fields stand before them. -/
def decodeFields (mark : Csv.Mark) (number : Nat) :
    List (List UInt8) → Except CsvFault (List String)
  | [] => .ok []
  | field :: rest =>
      match decodeUtf8 field.toByteArray with
      | .error validLength => .error (.notText mark number validLength)
      | .ok text => (decodeFields mark (number + 1) rest).map (text :: ·)

def cellOf (header : List String) (record : Csv.Record) : Except CsvFault String :=
  if record.fields.length ≠ header.length then
    .error (.unequalLengths record.mark record.fields.length header.length)
  else
    match decodeFields record.mark 0 record.fields with
    | .error fault => .error fault
    | .ok fields =>
        match (header.zip fields).filter fun cell => cell.1 = queryColumn with
        | [] => .error (.missingColumn record.mark)
        | [cell] => .ok cell.2
        | _ => .error (.repeatedColumn record.mark)

/-- The fields of a header that may be that of the column of queries. -/
def namesQueries (name : String) : Bool :=
  trimBlank name.toList = queryColumn.toList

/-- The header of a table; a file without records has an empty one. -/
def headerOf (records : List Csv.Record) : Except CsvFault (List String) :=
  match records with
  | [] => .ok []
  | header :: _ => decodeFields header.mark 0 header.fields

/-- The queries in the contents of a table of comma-separated values. -/
def ofCsv (path : Path) (contents : ByteArray) : Except Error (List String) :=
  let records := Csv.read contents.toList
  match headerOf records with
  | .error fault => .error (.csv path fault)
  | .ok header =>
      if header.any namesQueries then
        ((records.drop 1).mapM (cellOf header)).mapError (.csv path)
      else .error (.missingColumn path)

/-! ## JSON -/

/-- The query that a JSON value stands for: a string is its own text, `null` is the empty one, and
any other value is its compact text. -/
def textOf : Json → String
  | .text value => value
  | .null => ""
  | other => String.ofList other.compact

def memberOf (path : Path) (members : List (String × Json)) : Except Error String :=
  match members.lookup queryColumn with
  | none => .error (.missingColumn path)
  | some value => .ok (textOf value)

def ofJson (path : Path) (text : String) : Except Error (List String) :=
  match Document.decode Document.toObjects text with
  | .error fault => .error (.json path fault)
  | .ok objects => objects.mapM (memberOf path)

/-! ## Files -/

inductive Format where
  | csv
  | json
  deriving DecidableEq, Repr

/-- The form of the table at a path, by its extension in any letter case. -/
def formatOf? (path : Path) : Option Format :=
  match path.extension? with
  | none => none
  | some extension =>
      if sameLetters extension "csv" then some .csv
      else if sameLetters extension "json" then some .json
      else none

/-- The queries in a file of comma-separated values, given what reading the file yielded. That a
directory cannot be read is found only while the table is read. -/
def fromCsv (path : Path) : Except FileFault ByteArray → Except Error (List String)
  | .ok contents => ofCsv path contents
  | .error .isDirectory => .error (.csv path (.file .isDirectory))
  | .error fault => .error (.access path (.file fault))

end QueryTable

/-- The text of a file, given what reading the file yielded. -/
def textFrom (path : Path) : Except FileFault ByteArray → Except Error String
  | .error fault => .error (.access path (.file fault))
  | .ok contents =>
      match decodeUtf8 contents with
      | .error _ => .error (.access path .notText)
      | .ok text => .ok text

namespace QueryTable

def load {m : Type → Type} [Monad m] [Files m] (path : Path) :
    m (Except Error (List String)) :=
  match formatOf? path with
  | none => return .error (.unsupportedFormat path)
  | some .csv => return fromCsv path (← Files.readFile path)
  | some .json => return (textFrom path (← Files.readFile path)).bind (ofJson path)

end QueryTable

end SqlMetrics
