import SqlMetrics.Assessment
import SqlMetrics.Csv.Text
import SqlMetrics.Error
import SqlMetrics.Report.Markdown
import SqlMetrics.Text.Blank

/-!
# Result files

The assessments of a batch are written as a table of comma-separated values and as a JSON array
with the same columns, and the figures of the batch as a report. The three files have one name in
one directory, which is created if it is missing. The name has to be a plain file name.
-/

set_option autoImplicit false

namespace SqlMetrics

/-! ## Rows -/

inductive Cell where
  | text (value : String)
  | count (value : Int)
  | score (value : Float)

namespace Cell

def csvText : Cell → List Char
  | .text value => value.toList
  | .count value => Json.intText value
  | .score value => (FloatStyle.table.render value).toList

def toJson : Cell → Json
  | .text value => .text value
  | .count value => .number (.whole value)
  | .score value => .number (.real value)

end Cell

def resultColumns : List String :=
  "query" :: Feature.all.map Feature.name ++ ["lines", "characters", "complexity"]

def Assessment.cells (assessment : Assessment) : List Cell :=
  .text assessment.query
    :: Feature.all.map (fun feature => .count (assessment.features.get feature))
  ++ [.count assessment.length.lines, .count assessment.length.characters,
    .score assessment.complexity]

def resultCsv (assessed : List Assessment) : String :=
  String.ofList (Csv.tableText
    (resultColumns.map String.toList
      :: assessed.map fun assessment => assessment.cells.map Cell.csvText))

def resultJson (assessed : List Assessment) : Json :=
  .array (assessed.map fun assessment =>
    .object (resultColumns.zip (assessment.cells.map Cell.toJson)))

/-! ## Names -/

def checkOutputName (name : String) : Except NameFault Unit :=
  if (trimBlank name.toList).isEmpty then .error .blank
  else if Path.isAbsolute name then .error .absolute
  else if (Path.components name).contains ".." then .error .traversal
  else if name.toList.contains '/' || name.toList.contains '\\' then .error .separator
  else .ok ()

/-- The files that are written, in their order. -/
inductive ResultFile where
  | csv
  | json
  | report
  deriving DecidableEq, Repr

namespace ResultFile

def fileName (file : ResultFile) (name : String) : String :=
  match file with
  | .csv => name ++ "_analysis.csv"
  | .json => name ++ "_analysis.json"
  | .report => name ++ "_report.md"

def path (file : ResultFile) (directory : Path) (name : String) : Path :=
  Path.join directory (file.fileName name)

def contents (file : ResultFile) (batch : Batch) : String :=
  match file with
  | .csv => resultCsv batch.assessed
  | .json => String.ofList ((resultJson batch.assessed).pretty 0)
  | .report => Report.render batch.assessed batch.skipped.length

def failure (file : ResultFile) (path : Path) (fault : FileFault) : Error :=
  match file with
  | .csv => .csv path (.file fault)
  | .json => .access path (.file fault)
  | .report => .access path (.file fault)

end ResultFile

/-! ## Writing -/

variable {m : Type → Type} [Monad m] [Files m]

def writeResult (directory : Path) (name : String) (batch : Batch) (file : ResultFile) :
    m (Except Error Unit) := do
  let path := file.path directory name
  match ← Files.writeFile path (file.contents batch).toUTF8 with
  | .ok () => return .ok ()
  | .error fault => return .error (file.failure path fault)

/-- Writes files one after the other up to the first that fails. -/
def writeResults (directory : Path) (name : String) (batch : Batch) :
    List ResultFile → m (Except Error Unit)
  | [] => return .ok ()
  | file :: rest => do
      match ← writeResult directory name batch file with
      | .error error => return .error error
      | .ok () => writeResults directory name batch rest

def writeBatch (directory : Path) (name : String) (batch : Batch) : m (Except Error Unit) :=
  match checkOutputName name with
  | .error fault => return .error (.outputName name fault)
  | .ok () => do
      match ← Files.createDirectories directory with
      | .error fault => return .error (.access directory (.file fault))
      | .ok () => writeResults directory name batch [.csv, .json, .report]

end SqlMetrics
