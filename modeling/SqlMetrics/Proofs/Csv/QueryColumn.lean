import Mathlib.Control.Monad.Basic
import Mathlib.Data.List.Forall2
import SqlMetrics.Proofs.Csv.Tables

/-! # The column of queries

A table whose file is a text has texts for fields, because no byte that ends a field or a record is
part of another character (`ofTexts_read`).  Its header is checked with the white space around
the names left out, but the cells of a row are found by the exact name: `fromCsv_of_text` tells what
is loaded from it. -/
set_option autoImplicit false
namespace SqlMetrics
namespace Csv

section Texts
variable {behind : List UInt8} {byte : UInt8} {place : Place} {c : Char} {text : List Char}

/-! ## Fields of a text -/

/-- Where a byte of a character beyond ASCII leaves the reader. -/
def Place.inside : Place → Place
  | .quoted => .quoted
  | _ => .unquoted

theorem step_of_great (great : 0x80 ≤ byte.toNat) (place : Place) :
    step place byte = .keep place.inside := by
  have other {ascii : UInt8} (small : ascii.toNat < 0x80) : byte ≠ ascii := by
    rintro rfl
    omega
  have notComma : byte ≠ comma := other (by decide)
  have notQuote : byte ≠ quote := other (by decide)
  have notLineFeed : byte ≠ lineFeed := other (by decide)
  have notReturn : byte ≠ 0x0d := other (by decide)
  have kept : plainStep byte = .keep .unquoted := by
    simp [plainStep, endsRecord, notComma, notLineFeed, notReturn]
  cases place <;> simp [step, notQuote, kept, Place.inside]

theorem readLine_of_great {bytes : List UInt8} (great : ∀ byte ∈ bytes, 0x80 ≤ byte.toNat)
    (filled : bytes ≠ []) (place : Place) :
    readLine place (bytes ++ behind) =
      (readLine place.inside behind).before bytes bytes.length := by
  obtain ⟨first, more, rfl⟩ := List.exists_cons_of_ne_nil filled
  have within : place.inside.inside = place.inside := by cases place <;> rfl
  have kept : ∀ byte ∈ more, step place.inside byte = .keep place.inside := by
    intro byte among
    rw [step_of_great (great byte (List.mem_cons_of_mem first among)), within]
  rw [List.cons_append, readLine, step_of_great (great first List.mem_cons_self)]
  dsimp only
  rw [readLine_keep kept]
  rfl

theorem exists_readLine_utf8 (text : List Char) :
    ∀ place, ∃ field fields front back, text = front ++ back ∧
      readLine place (utf8 text) = ⟨(field :: fields).map utf8, (utf8 front).length⟩ := by
  induction text with
  | nil =>
      intro place
      exact ⟨[], [], [], [], rfl, rfl⟩
  | cons c rest ih =>
      intro place
      by_cases ascii : c.toNat < 0x80
      · have one : String.utf8EncodeChar c = [UInt8.ofNat c.toNat] := utf8EncodeChar_of_lt ascii
        have size (front : List Char) : (utf8 (c :: front)).length = (utf8 front).length + 1 := by
          rw [utf8_cons, one, List.singleton_append, List.length_cons]
        rw [utf8_cons, one, List.singleton_append, readLine]
        cases move : step place (UInt8.ofNat c.toNat) with
        | endRecord =>
            refine ⟨[], [], [c], rest, rfl, ?_⟩
            rw [size]
            rfl
        | endField =>
            obtain ⟨field, fields, front, back, parts, line⟩ := ih .start
            refine ⟨[], field :: fields, c :: front, back, by rw [parts]; rfl, ?_⟩
            dsimp only
            rw [line, size]
            rfl
        | keep next =>
            obtain ⟨field, fields, front, back, parts, line⟩ := ih next
            refine ⟨c :: field, fields, c :: front, back, by rw [parts]; rfl, ?_⟩
            dsimp only
            rw [line, size, List.map_cons, addByte, List.map_cons, utf8_cons, one]
            rfl
        | drop next =>
            obtain ⟨field, fields, front, back, parts, line⟩ := ih next
            refine ⟨field, fields, c :: front, back, by rw [parts]; rfl, ?_⟩
            dsimp only
            rw [line, size]
      · have great : ∀ byte ∈ String.utf8EncodeChar c, 0x80 ≤ byte.toNat := fun byte among =>
          le_of_mem_utf8EncodeChar (Nat.le_of_not_lt ascii) among
        obtain ⟨field, fields, front, back, parts, line⟩ := ih place.inside
        refine ⟨c :: field, fields, c :: front, back, by rw [parts]; rfl, ?_⟩
        rw [utf8_cons, readLine_of_great great String.utf8EncodeChar_ne_nil, line, Line.before,
          List.map_cons, foldr_addByte, List.map_cons, utf8_cons, utf8_cons, List.length_append,
          Nat.add_comm]

theorem readLine_size_pos (place : Place) (byte : UInt8) (rest : List UInt8) :
    0 < (readLine place (byte :: rest)).size := by
  rw [readLine]
  cases step place byte <;> exact Nat.succ_pos _

theorem exists_takeWhile_utf8 (text : List Char) :
    ∃ front back, text = front ++ back ∧ (utf8 text).takeWhile endsRecord = utf8 front := by
  induction text with
  | nil => exact ⟨[], [], rfl, rfl⟩
  | cons c rest ih =>
      cases first : String.utf8EncodeChar c with
      | nil => exact absurd first String.utf8EncodeChar_ne_nil
      | cons byte more =>
          by_cases ends : endsRecord byte = true
          · have ascii : c.toNat < 0x80 := by
              apply Nat.lt_of_not_le
              intro great
              have among : byte ∈ String.utf8EncodeChar c := by
                rw [first]
                exact List.mem_cons_self
              have high := le_of_mem_utf8EncodeChar great among
              rw [endsRecord, Bool.or_eq_true, decide_eq_true_eq, decide_eq_true_eq] at ends
              rcases ends with rfl | rfl <;> exact absurd high (by decide)
            have one := utf8EncodeChar_of_lt ascii
            rw [first, List.cons.injEq] at one
            obtain ⟨front, back, parts, taken⟩ := ih
            refine ⟨c :: front, back, by rw [parts]; rfl, ?_⟩
            rw [utf8_cons, utf8_cons, first, one.2, List.singleton_append,
              List.takeWhile_cons_of_pos ends, taken, List.singleton_append]
          · refine ⟨[], c :: rest, rfl, ?_⟩
            rw [utf8_cons, first, List.cons_append, List.takeWhile_cons_of_neg ends]
            rfl

end Texts

/-- The fields of a record are texts. -/
def OfTexts (record : Record) : Prop :=
  ∃ fields : List (List Char), record.fields = fields.map utf8

theorem readFrom_utf8 (text : List Char) (mark : Mark) :
    readFrom mark (utf8 text) = [] ∨
      ∃ record back next, OfTexts record ∧ back.length < text.length ∧
        readFrom mark (utf8 text) = record :: readFrom next (utf8 back) := by
  obtain ⟨empty, filled, parts, taken⟩ := exists_takeWhile_utf8 text
  obtain ⟨field, fields, front, back, pieces, line⟩ := exists_readLine_utf8 filled .start
  have left : (utf8 text).drop (utf8 empty).length = utf8 filled := by
    rw [parts, utf8_append, List.drop_left]
  cases bytes : utf8 text with
  | nil =>
      rw [readFrom]
      exact Or.inl rfl
  | cons first rest =>
      rw [bytes] at taken left
      rw [readFrom]
      simp only [taken, left, line]
      split
      · exact Or.inl rfl
      · next more =>
          have positive : 0 < (utf8 front).length := by
            cases filledBytes : utf8 filled with
            | nil => simp [filledBytes] at more
            | cons byte others =>
                have least := readLine_size_pos .start byte others
                rwa [← filledBytes, line] at least
          have behind : rest.drop ((utf8 empty).length + (utf8 front).length - 1) = utf8 back := by
            have whole : (first :: rest).drop ((utf8 empty).length + (utf8 front).length) =
                utf8 back := by
              rw [← List.drop_drop, left, pieces, utf8_append, List.drop_left]
            obtain ⟨size, sum⟩ : ∃ size, (utf8 empty).length + (utf8 front).length = size + 1 :=
              Nat.exists_eq_succ_of_ne_zero (by omega)
            rw [sum, List.drop_succ_cons] at whole
            rw [sum, Nat.add_sub_cancel, whole]
          have notEmpty : front ≠ [] := by
            rintro rfl
            exact Nat.lt_irrefl 0 positive
          have shorter := List.length_pos_iff.mpr notEmpty
          rw [behind]
          refine Or.inr ⟨_, back, _, ⟨field :: fields, rfl⟩, ?_, rfl⟩
          rw [parts, pieces, List.length_append, List.length_append]
          omega

theorem ofTexts_readFrom (size : Nat) : ∀ (text : List Char) (mark : Mark),
    text.length < size → ∀ record ∈ readFrom mark (utf8 text), OfTexts record := by
  -- Each record takes at least a character, so the length of the text bounds the records.
  induction size with
  | zero =>
      intro text mark within
      exact absurd within (Nat.not_lt_zero _)
  | succ size ih =>
      intro text mark within record among
      rcases readFrom_utf8 text mark with noTexts | ⟨first, back, next, texts, shorter, run⟩
      · rw [noTexts] at among
        cases among
      · rw [run] at among
        rcases List.mem_cons.mp among with rfl | among
        · exact texts
        · exact ih back next (by omega) record among

theorem exists_drop_mark {text : List Char} (marked : byteOrderMark.isPrefixOf (utf8 text) = true) :
    ∃ rest, (utf8 text).drop 3 = utf8 rest := by
  obtain ⟨behind, parts⟩ := List.isPrefixOf_iff_prefix.mp marked
  cases text with
  | nil => cases parts
  | cons c rest =>
      have head : (String.utf8EncodeChar c).head? = some 0xef := by
        cases bytes : String.utf8EncodeChar c with
        | nil => exact absurd bytes String.utf8EncodeChar_ne_nil
        | cons first more =>
            rw [utf8_cons, bytes] at parts
            exact congrArg some (List.cons.inj parts).1.symm
      have three : (String.utf8EncodeChar c).length = 3 :=
        length_utf8EncodeChar_of_head head (by decide)
      refine ⟨rest, ?_⟩
      rw [utf8_cons, ← three, List.drop_left]

theorem ofTexts_read (text : List Char) : ∀ record ∈ read (utf8 text), OfTexts record := by
  intro record among
  rw [read] at among
  split at among
  · next marked =>
      obtain ⟨rest, dropped⟩ := exists_drop_mark marked
      rw [dropped] at among
      have all := ofTexts_readFrom _ rest {} (Nat.lt_succ_self _)
      split at among
      · cases among
      · next first more run =>
          rw [run] at all
          rcases List.mem_cons.mp among with rfl | among
          · exact all record List.mem_cons_self
          · obtain ⟨moved, inside, rfl⟩ := List.mem_map.mp among
            exact all moved (List.mem_cons_of_mem first inside)
  · exact ofTexts_readFrom _ text {} (Nat.lt_succ_self _) record among

end Csv

open Csv

namespace QueryTable

/-! ## Rows of a table -/

/-- The record holds the texts of the row, in whichever place of a table it stands. -/
def Holds (record : Record) (row : List String) : Prop :=
  ∀ mark number, decodeFields mark number record.fields = .ok row

section Rows
variable {records : List Record} {record : Record} {header row : List String}

theorem length_decodeFields (mark : Mark) (fields : List (List UInt8)) :
    ∀ number row, decodeFields mark number fields = .ok row → fields.length = row.length := by
  induction fields with
  | nil =>
      intro number row decoded
      cases decoded
      rfl
  | cons field rest ih =>
      intro number row decoded
      rw [decodeFields] at decoded
      split at decoded
      · cases decoded
      · cases others : decodeFields mark (number + 1) rest with
        | error fault =>
            rw [others] at decoded
            cases decoded
        | ok texts =>
            rw [others] at decoded
            cases decoded
            exact congrArg (· + 1) (ih (number + 1) texts others)

theorem Holds.length_eq (holds : Holds record row) : record.fields.length = row.length :=
  length_decodeFields {} record.fields 0 row (holds {} 0)

theorem exists_rows (texts : ∀ record ∈ records, OfTexts record) :
    ∃ table, QueryTable.texts records = .ok table ∧ List.Forall₂ Holds records table := by
  induction records with
  | nil => exact ⟨[], rfl, .nil⟩
  | cons record rest ih =>
      obtain ⟨fields, same⟩ := texts record List.mem_cons_self
      obtain ⟨table, decoded, rows⟩ := ih fun other among =>
        texts other (List.mem_cons_of_mem record among)
      have holds : Holds record (fields.map String.ofList) := by
        intro mark number
        rw [same, decodeFields_utf8]
      refine ⟨fields.map String.ofList :: table, ?_, .cons holds rows⟩
      rw [QueryTable.texts] at decoded
      rw [QueryTable.texts, List.mapM_cons, holds, decoded]
      rfl

/-! ## The cells of a column -/

/-- The named column is the only one whose name, without the white space around it, asks for
queries. -/
structure OnlyColumn (header : List String) (column : Nat) (name : String) : Prop where
  there : header[column]? = some name
  named : namesQueries name = true
  only : ∀ other cell, header[other]? = some cell → namesQueries cell = true → other = column

theorem namesQueries_queryColumn : namesQueries queryColumn = true := by decide

section OnlyColumn
variable {column : Nat} {name : String}

theorem OnlyColumn.exact (only : OnlyColumn header column name) (other : Nat)
    (found : header[other]? = some queryColumn) : other = column :=
  only.only other queryColumn found namesQueries_queryColumn

theorem OnlyColumn.absent (only : OnlyColumn header column name) (padded : name ≠ queryColumn) :
    ∀ cell ∈ header, cell ≠ queryColumn := by
  rintro cell among rfl
  obtain ⟨place, found⟩ := List.mem_iff_getElem?.mp among
  have there := only.there
  rw [← only.exact place found, found] at there
  exact padded (Option.some.inj there).symm

end OnlyColumn

theorem filter_zip_of_absent (absent : ∀ name ∈ header, name ≠ queryColumn) (row : List String) :
    (header.zip row).filter (fun cell => cell.1 = queryColumn) = [] := by
  rw [List.filter_eq_nil_iff]
  intro cell among found
  exact absent cell.1 (List.of_mem_zip among).1 (of_decide_eq_true found)

theorem filter_zip_of_only {column : Nat} (even : row.length = header.length)
    (there : header[column]? = some queryColumn)
    (only : ∀ other, header[other]? = some queryColumn → other = column) :
    ∃ cell, row[column]? = some cell ∧
      (header.zip row).filter (fun cell => cell.1 = queryColumn) = [(queryColumn, cell)] := by
  induction header generalizing row column with
  | nil => cases there
  | cons name names ih =>
      obtain ⟨cell, cells, rfl⟩ := List.exists_cons_of_length_eq_add_one even
      have evenRest : cells.length = names.length := Nat.succ.inj even
      rw [List.zip_cons_cons]
      cases column with
      | zero =>
          cases there
          have absent : ∀ name ∈ names, name ≠ queryColumn := by
            rintro name among rfl
            obtain ⟨place, found⟩ := List.mem_iff_getElem?.mp among
            exact absurd (only (place + 1) found) (Nat.succ_ne_zero place)
          refine ⟨cell, rfl, ?_⟩
          have rest := filter_zip_of_absent absent cells
          rw [List.filter_cons_of_pos (by simp), rest]
      | succ column =>
          have other : name ≠ queryColumn := by
            rintro rfl
            exact absurd (only 0 rfl) (Nat.succ_ne_zero column).symm
          obtain ⟨found, inRow, rest⟩ := ih evenRest there fun place same =>
            Nat.succ.inj (only (place + 1) same)
          refine ⟨found, inRow, ?_⟩
          rw [List.filter_cons_of_neg (by simpa using other), rest]

theorem cellOf_of_absent (holds : Holds record row) (even : row.length = header.length)
    (absent : ∀ name ∈ header, name ≠ queryColumn) :
    cellOf header record = .error (.missingColumn record.mark) := by
  have size : record.fields.length = header.length := holds.length_eq.trans even
  rw [cellOf, if_neg (not_not_intro size), holds]
  dsimp only
  rw [filter_zip_of_absent absent]

theorem cellOf_of_only {column : Nat} (holds : Holds record row)
    (even : row.length = header.length) (there : header[column]? = some queryColumn)
    (only : ∀ other, header[other]? = some queryColumn → other = column) :
    ∃ cell, row[column]? = some cell ∧ cellOf header record = .ok cell := by
  have size : record.fields.length = header.length := holds.length_eq.trans even
  obtain ⟨cell, inRow, found⟩ := filter_zip_of_only even there only
  refine ⟨cell, inRow, ?_⟩
  rw [cellOf, if_neg (not_not_intro size), holds]
  dsimp only
  rw [found]

/-- Where one column has exactly the asked name, its cells are loaded. -/
theorem mapM_cellOf {column : Nat} {table : List (List String)}
    (rows : List.Forall₂ Holds records table) (even : ∀ row ∈ table, row.length = header.length)
    (there : header[column]? = some queryColumn)
    (only : ∀ other, header[other]? = some queryColumn → other = column) :
    ∃ queries, records.mapM (cellOf header) = .ok queries ∧
      queries.map some = table.map (·[column]?) := by
  induction rows with
  | nil => exact ⟨[], rfl, rfl⟩
  | @cons record row records table holds _ ih =>
      obtain ⟨cell, inRow, found⟩ :=
        cellOf_of_only holds (even row List.mem_cons_self) there only
      obtain ⟨queries, read, cells⟩ := ih fun other among =>
        even other (List.mem_cons_of_mem row among)
      refine ⟨cell :: queries, ?_, ?_⟩
      · rw [List.mapM_cons, found, read]
        rfl
      · rw [List.map_cons, List.map_cons, inRow, cells]

theorem mapM_cellOf_of_absent (more : List Record) (holds : Holds record row)
    (even : row.length = header.length) (absent : ∀ name ∈ header, name ≠ queryColumn) :
    (record :: more).mapM (cellOf header) = .error (.missingColumn record.mark) := by
  rw [List.mapM_cons, cellOf_of_absent holds even absent]
  rfl

end Rows

/-! ## Loading a table -/

section Load
variable {path : Path} {contents : ByteArray} {records : List Record} {record : Record}
  {header : List String}

theorem fromCsv_of_header (read : Csv.read contents.toList = record :: records)
    (holds : Holds record header) :
    fromCsv path (.ok contents) =
      if header.any namesQueries then (records.mapM (cellOf header)).mapError (.csv path)
      else .error (.missingColumn path) := by
  rw [fromCsv, ofCsv, read, headerOf, holds]
  rfl

end Load

/-- A table whose file is a text is read without a fault.  Without a column whose trimmed name asks
for queries it is refused as a whole.  With one such column, and rows as long as the header, the
cells of that column are loaded if its name has no white space around it; otherwise every row lacks
the column, and the table is refused at the first one. -/
theorem fromCsv_of_text (path : Path) (text : String) :
    ∃ table, texts (Csv.read text.toUTF8.toList) = .ok table ∧
      ((∀ name ∈ table.headD [], namesQueries name = false) →
        fromCsv path (.ok text.toUTF8) = .error (.missingColumn path)) ∧
      ∀ header rows column name, table = header :: rows →
        (∀ row ∈ rows, row.length = header.length) → OnlyColumn header column name →
        (name = queryColumn ∨ rows = [] → ∃ queries,
          fromCsv path (.ok text.toUTF8) = .ok queries ∧
            queries.map some = rows.map (·[column]?)) ∧
        (name ≠ queryColumn → rows ≠ [] → ∃ record,
          (Csv.read text.toUTF8.toList)[1]? = some record ∧
            fromCsv path (.ok text.toUTF8) = .error (.csv path (.missingColumn record.mark))) := by
  have bytes : text.toUTF8.toList = utf8 text.toList := by
    rw [← toList_toUTF8, String.ofList_toList]
  obtain ⟨table, decoded, rows⟩ := exists_rows (ofTexts_read text.toList)
  rw [← bytes] at decoded rows
  refine ⟨table, decoded, ?_, ?_⟩
  · intro noneNames
    cases read : Csv.read text.toUTF8.toList with
    | nil =>
        rw [fromCsv, ofCsv, read]
        rfl
    | cons record records =>
        rw [read] at rows
        cases rows with
        | @cons _ header _ _ holds _ =>
            have unnamed : ¬ header.any namesQueries = true := by
              rw [List.any_eq_true]
              rintro ⟨name, among, named⟩
              rw [noneNames name among] at named
              cases named
            rw [fromCsv_of_header read holds, if_neg unnamed]
  · rintro header others column name rfl even only
    cases read : Csv.read text.toUTF8.toList with
    | nil =>
        rw [read] at rows
        cases rows
    | cons record records =>
        rw [read] at rows
        obtain ⟨holds, rows⟩ := List.forall₂_cons.mp rows
        have named : header.any namesQueries = true :=
          List.any_eq_true.mpr ⟨name, List.mem_of_getElem? only.there, only.named⟩
        rw [fromCsv_of_header read holds, if_pos named]
        refine ⟨?_, ?_⟩
        · rintro (rfl | rfl)
          · obtain ⟨queries, loaded, cells⟩ := mapM_cellOf rows even only.there only.exact
            refine ⟨queries, ?_, cells⟩
            rw [loaded]
            rfl
          · cases rows
            exact ⟨[], rfl, rfl⟩
        · intro padded filled
          cases rows with
          | nil => exact absurd rfl filled
          | @cons first row more table firstHolds rest =>
              have refused := mapM_cellOf_of_absent more firstHolds
                (even row List.mem_cons_self) (only.absent padded)
              refine ⟨first, rfl, ?_⟩
              rw [refused]
              rfl

/-- Cells with commas and line breaks in them, an empty cell, and an empty line between rows. -/
theorem loaded_of_two_rows :
    ∃ table queries, texts (Csv.read "id,sql\r\n\n1,\x22a,\né\x22\n2,".toUTF8.toList) = .ok table ∧
      table = [["id", "sql"], ["1", "a,\né"], ["2", ""]] ∧
      OnlyColumn ["id", "sql"] 1 "sql" ∧
      fromCsv "q.csv" (.ok "id,sql\r\n\n1,\x22a,\né\x22\n2,".toUTF8) = .ok queries ∧
      queries.map some = [some "a,\né", some ""] := by
  obtain ⟨table, decoded, -, loaded⟩ :=
    fromCsv_of_text "q.csv" "id,sql\r\n\n1,\x22a,\né\x22\n2,"
  have cells : texts (Csv.read "id,sql\r\n\n1,\x22a,\né\x22\n2,".toUTF8.toList) =
      .ok [["id", "sql"], ["1", "a,\né"], ["2", ""]] := by decide +kernel
  have same := Except.ok.inj (decoded.symm.trans cells)
  have only : OnlyColumn ["id", "sql"] 1 "sql" := by
    refine ⟨rfl, by decide, ?_⟩
    intro other cell found named
    cases other with
    | zero =>
        cases found
        exact absurd named (by decide)
    | succ other =>
        cases other with
        | zero => rfl
        | succ other => cases found
  obtain ⟨queries, read, loads⟩ :=
    (loaded _ _ 1 "sql" same (by simp) only).1 (Or.inl rfl)
  exact ⟨table, queries, decoded, same, only, read, loads⟩

/-- With white space before the name of its only column, a table is refused. -/
theorem padded_column_refused :
    OnlyColumn [" sql"] 0 " sql" ∧
      texts (Csv.read " sql\nSELECT 1\n".toUTF8.toList) = .ok [[" sql"], ["SELECT 1"]] ∧
      fromCsv "q.csv" (.ok " sql\nSELECT 1\n".toUTF8) =
        .error (.csv "q.csv" (.missingColumn ⟨1, 1, 5⟩)) := by
  refine ⟨⟨rfl, by decide, ?_⟩, by decide +kernel, by decide +kernel⟩
  intro other cell found _
  cases other with
  | zero => rfl
  | succ other => cases found

end QueryTable

end SqlMetrics
