import Mathlib.Data.List.Forall2
import SqlMetrics.Proofs.Csv.Tables
import SqlMetrics.Proofs.Json.Written
import SqlMetrics.Results

/-! # The result tables decode to the batch

The bytes of both tables are read back (`result_tables_decode`): the comma-separated values as the
header and a record for each assessment, the JSON array as an object for each assessment.  The two
have the same columns in the same order, the same query texts and the same integers, and the number
under `complexity` rounds to the score and to no other double. -/
set_option autoImplicit false
namespace SqlMetrics

def Assessment.counts (assessment : Assessment) : List Int :=
  [assessment.features.joins, assessment.features.subqueries, assessment.features.whereConditions,
    assessment.features.functions, assessment.features.tables, assessment.features.groupBy,
    assessment.features.orderBy, assessment.length.lines, assessment.length.characters]

def Assessment.texts (assessment : Assessment) : List String :=
  assessment.query :: assessment.counts.map toString
    ++ [FloatStyle.table.render assessment.complexity]

def Numeral.IsInteger (value : Int) (numeral : Numeral) : Prop :=
  numeral.fraction = [] ∧ numeral.exponent = none ∧ numeral.toRat = value

/-- The object of an assessment: its members have the names of the columns in their order, and the
query text, the integers and the score as values.  The numeral of the score spells no other
double. -/
def Assessment.IsObject (assessment : Assessment) (object : Document) : Prop :=
  ∃ numerals score,
    object = .object ((resultColumns.map .ok).zip
      (.text (.ok assessment.query) :: numerals.map .number ++ [.number score])) none ∧
    List.Forall₂ Numeral.IsInteger assessment.counts numerals ∧
    ∀ value, score.Spells value ↔ value = assessment.complexity

theorem csvText_cells (assessment : Assessment) :
    (assessment.cells.map Cell.csvText).map String.ofList = assessment.texts := by
  simp only [Assessment.cells, Feature.all, Cell.csvText, intText_eq, Assessment.texts,
    Assessment.counts, Features.get, List.map_cons, List.map_nil, List.cons_append,
    List.nil_append, String.ofList_toList]

theorem visible_cells (assessment : Assessment) :
    Csv.Visible (assessment.cells.map Cell.csvText) := by
  simp [Csv.Visible, Assessment.cells, Feature.all]

theorem resultCsv_texts (assessed : List Assessment) :
    QueryTable.texts (Csv.read (resultCsv assessed).toUTF8.toList) =
      .ok (resultColumns :: assessed.map Assessment.texts) := by
  have visible : ∀ fields ∈ resultColumns.map String.toList ::
      assessed.map (fun assessment => assessment.cells.map Cell.csvText), Csv.Visible fields := by
    intro fields among
    rcases List.mem_cons.mp among with rfl | among
    · exact ⟨nofun, nofun⟩
    · obtain ⟨assessment, -, rfl⟩ := List.mem_map.mp among
      exact visible_cells assessment
  have starts : ∃ more, Csv.tableText (resultColumns.map String.toList ::
      assessed.map fun assessment => assessment.cells.map Cell.csvText) = 'q' :: more :=
    ⟨_, rfl⟩
  obtain ⟨more, starts⟩ := starts
  have header : (resultColumns.map String.toList).map String.ofList = resultColumns := by
    simp
  have rows : (assessed.map fun assessment => assessment.cells.map Cell.csvText).map
      (fun fields => fields.map String.ofList) = assessed.map Assessment.texts := by
    rw [List.map_map]
    exact List.map_congr_left fun assessment _ => csvText_cells assessment
  rw [resultCsv, toList_toUTF8, QueryTable.texts_read visible starts (by decide), List.map_cons,
    header, rows]

theorem isInteger_ofInt (value : Int) : (Numeral.ofInt value).IsInteger value :=
  ⟨rfl, rfl, Numeral.toRat_ofInt value⟩

theorem isObject_document {assessment : Assessment}
    (finite : assessment.complexity.isFinite = true) :
    assessment.IsObject
      (Json.object (resultColumns.zip (assessment.cells.map Cell.toJson))).document := by
  obtain ⟨score, document, -, -, spells⟩ := Document.numberDocument_finite finite
  refine ⟨assessment.counts.map .ofInt, score, ?_, ?_, spells.iff_eq⟩
  · rw [← document]
    rfl
  · exact List.forall₂_map_right_iff.mpr
      (List.forall₂_same.mpr fun value _ => isInteger_ofInt value)

/-- A text is read to its end as a number that spells a double. -/
def SpellsDouble (text : String) (value : Float) : Prop :=
  ∃ numeral, Document.readNumber text.toList = (.number numeral, some text.toList.length) ∧
    numeral.Spells value

theorem spellsDouble_render (style : FloatStyle) {value : Float} (finite : value.isFinite = true) :
    SpellsDouble (style.render value) value := by
  obtain ⟨numeral, text, proper, spells⟩ := render_spells style finite
  have read := Document.readNumber_text proper (show EndsNumber [] from nofun) style.exponentHasPlus
  rw [List.append_nil, text] at read
  exact ⟨numeral, read, spells⟩

theorem SpellsDouble.iff_eq {text : String} {value : Float} (spells : SpellsDouble text value)
    (other : Float) : SpellsDouble text other ↔ other = value := by
  obtain ⟨numeral, read, spelled⟩ := spells
  constructor
  · rintro ⟨again, readAgain, otherSpelled⟩
    obtain rfl : numeral = again :=
      Document.number.inj (Prod.ext_iff.mp (read.symm.trans readAgain)).1
    exact (spelled.iff_eq other).mp otherSpelled
  · rintro rfl
    exact ⟨numeral, read, spelled⟩

/-- The tables are read back: the bytes of the one as the header and a record for each assessment,
where the score's text spells the score and nothing else; the bytes of the other as an array with an
object for each assessment. -/
theorem result_tables_decode (batch : Batch)
    (finite : ∀ assessment ∈ batch.assessed, assessment.complexity.isFinite = true) :
    QueryTable.texts (Csv.read (ResultFile.csv.contents batch).toUTF8.toList) =
      .ok (resultColumns :: batch.assessed.map Assessment.texts) ∧
    (∀ assessment ∈ batch.assessed, ∀ value,
      SpellsDouble (FloatStyle.table.render assessment.complexity) value ↔
        value = assessment.complexity) ∧
    ∃ text objects, decodeUtf8 (ResultFile.json.contents batch).toUTF8 = .ok text ∧
      Document.read text = (.array objects none, false) ∧
      List.Forall₂ Assessment.IsObject batch.assessed objects := by
  refine ⟨resultCsv_texts batch.assessed,
    fun assessment among => (spellsDouble_render .table (finite assessment among)).iff_eq,
    ResultFile.json.contents batch, batch.assessed.map fun assessment =>
      (Json.object (resultColumns.zip (assessment.cells.map Cell.toJson))).document,
    decodeUtf8_toUTF8 _, ?_, ?_⟩
  · rw [ResultFile.contents, Document.read_pretty, resultJson, Json.document,
      Json.itemDocuments_map]
  · exact List.forall₂_map_right_iff.mpr
      (List.forall₂_same.mpr fun assessment among => isObject_document (finite assessment among))

def markedAssessment : Assessment where
  query := "SELECT \"a,b\"\r\n\x01"
  features := { subqueries := -1, tables := 2 }
  length := ⟨2, 16⟩
  complexity := 2.5

theorem decode_of_marked_query : markedAssessment.complexity.isFinite = true ∧
    QueryTable.texts (Csv.read (ResultFile.csv.contents ⟨[markedAssessment], []⟩).toUTF8.toList) =
      .ok [["query", "joins", "subqueries", "where_conditions", "functions", "tables", "group_by",
          "order_by", "lines", "characters", "complexity"],
        ["SELECT \"a,b\"\r\n\x01", "0", "-1", "0", "0", "2", "0", "0", "2", "16", "2.5"]] := by
  have finite : markedAssessment.complexity.isFinite = true := by decide
  have row : markedAssessment.texts =
      ["SELECT \"a,b\"\r\n\x01", "0", "-1", "0", "0", "2", "0", "0", "2", "16", "2.5"] := by
    decide
  have decoded := (result_tables_decode ⟨[markedAssessment], []⟩ fun assessment among => by
    rw [List.mem_singleton.mp among]
    exact finite).1
  refine ⟨finite, decoded.trans ?_⟩
  rw [List.map_singleton, row]
  rfl

end SqlMetrics
