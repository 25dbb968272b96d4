import SqlMetrics.Csv.Text
import SqlMetrics.Proofs.Utf8
import SqlMetrics.QueryTable

/-! # Written tables are read back

The reader of comma-separated values yields the fields that were written, whatever characters they
hold: first a run of bytes of one field (`readLine_keep`, `readLine_quoted`), then a field
(`readLine_fieldText`), a record (`readLine_recordText`) and a table (`texts_read`). -/
set_option autoImplicit false
namespace SqlMetrics
namespace Csv

/-- A line that begins with more bytes of its first field, from `size` bytes of the text. -/
def Line.before (bytes : List UInt8) (size : Nat) (line : Line) : Line :=
  ⟨bytes.foldr addByte line.fields, line.size + size⟩

theorem Line.before_before (line : Line) (bytes behind : List UInt8) (size more : Nat) :
    (line.before behind more).before bytes size = line.before (bytes ++ behind) (size + more) := by
  simp only [before, List.foldr_append, Line.mk.injEq, true_and]
  omega

theorem foldr_addByte (bytes field : List UInt8) (fields : List (List UInt8)) :
    bytes.foldr addByte (field :: fields) = (bytes ++ field) :: fields := by
  induction bytes with
  | nil => rfl
  | cons byte rest ih => rw [List.foldr_cons, ih, addByte, List.cons_append]

section Fields
variable {field : List Char} {behind rest : List UInt8} {byte : UInt8} {place : Place}

/-! ## Bytes of one field -/

theorem readLine_keep {bytes : List UInt8} (kept : ∀ byte ∈ bytes, step place byte = .keep place) :
    readLine place (bytes ++ behind) = (readLine place behind).before bytes bytes.length := by
  induction bytes with
  | nil => rfl
  | cons byte rest ih =>
      have others := ih fun other among => kept other (List.mem_cons_of_mem byte among)
      rw [List.cons_append, readLine, kept byte List.mem_cons_self]
      dsimp only
      rw [others]
      rfl

theorem ne_of_mem_utf8 {c : Char} {text : List Char} (small : c.toNat < 0x80) (apart : c ∉ text)
    (among : byte ∈ utf8 text) : byte ≠ UInt8.ofNat c.toNat := by
  rintro rfl
  have number : (UInt8.ofNat c.toNat).toNat = c.toNat := by
    rw [UInt8.toNat_ofNat']
    omega
  have inside := eq_of_mem_utf8 (by rw [number]; exact small) among
  rw [number, Char.ofNat_toNat] at inside
  exact apart inside

theorem readLine_quoted : readLine .quoted (utf8 (field.flatMap quoteChar) ++ quote :: behind) =
    (readLine .behindQuote behind).before (utf8 field)
      (utf8 (field.flatMap quoteChar ++ ['\x22'])).length := by
  induction field with
  | nil => rfl
  | cons c rest ih =>
      rw [List.flatMap_cons, utf8_append, List.append_assoc]
      by_cases doubled : c = '\x22'
      · -- The first of the two quotes adds no byte to the field.
        subst doubled
        change (((readLine .quoted (utf8 (rest.flatMap quoteChar) ++ quote :: behind)).before
          [quote] 1).before [] 1) = _
        rw [ih, Line.before_before, Line.before_before]
        have text : quoteChar '\x22' ++ rest.flatMap quoteChar ++ ['\x22'] =
            '\x22' :: '\x22' :: (rest.flatMap quoteChar ++ ['\x22']) := rfl
        have size : (utf8 ('\x22' :: '\x22' :: (rest.flatMap quoteChar ++ ['\x22']))).length =
            1 + 1 + (utf8 (rest.flatMap quoteChar ++ ['\x22'])).length := by
          rw [utf8_cons, utf8_cons, List.length_append, List.length_append, ← Nat.add_assoc]
          rfl
        rw [text, size]
        rfl
      · have single : quoteChar c = [c] := if_neg doubled
        rw [single, readLine_keep, ih, Line.before_before]
        · simp [Line.before]
        · intro byte among
          have other : byte ≠ quote := ne_of_mem_utf8 (c := '\x22') (by decide)
            (by simpa using Ne.symm doubled) among
          rw [step, if_neg other]

theorem step_of_plain (plain : ∀ c ∈ field, needsQuotes c = false) (among : byte ∈ utf8 field)
    (place : Place) (outside : place = .start ∨ place = .unquoted) :
    step place byte = .keep .unquoted := by
  have other {c : Char} (small : c.toNat < 0x80) (special : needsQuotes c = true) :
      byte ≠ UInt8.ofNat c.toNat := by
    refine ne_of_mem_utf8 small (fun inside => ?_) among
    rw [plain c inside] at special
    cases special
  have notComma : byte ≠ comma := other (c := ',') (by decide) (by decide)
  have notQuote : byte ≠ quote := other (c := '\x22') (by decide) (by decide)
  have notLineFeed : byte ≠ lineFeed := other (c := '\n') (by decide) (by decide)
  have notReturn : byte ≠ 0x0d := other (c := '\r') (by decide) (by decide)
  have kept : plainStep byte = .keep .unquoted := by
    simp [plainStep, endsRecord, notComma, notLineFeed, notReturn]
  rcases outside with rfl | rfl
  · rw [step, if_neg notQuote, kept]
  · rw [step, kept]

def Closing (byte : UInt8) : Prop :=
  byte = comma ∨ endsRecord byte = true

theorem step_closing (closing : Closing byte) (outside : place ≠ .quoted) :
    step place byte = plainStep byte := by
  have notQuote : byte ≠ quote := by
    rintro rfl
    rcases closing with same | ends
    · exact absurd same (by decide)
    · exact absurd ends (by decide)
  cases place with
  | start => exact if_neg notQuote
  | unquoted => rfl
  | quoted => exact absurd rfl outside
  | behindQuote => exact if_neg notQuote

theorem readLine_closing (closing : Closing byte) (outside : place ≠ .quoted) :
    readLine place (byte :: rest) = readLine .unquoted (byte :: rest) := by
  have first : step .unquoted byte = plainStep byte := rfl
  rw [readLine, readLine, step_closing closing outside, first]

theorem fieldText_eq (field : List Char) :
    fieldText field = '\x22' :: (field.flatMap quoteChar ++ ['\x22']) ∨
    fieldText field = field ∧ ∀ c ∈ field, needsQuotes c = false := by
  rw [fieldText]
  split
  · exact .inl rfl
  · rename_i plain
    exact .inr ⟨rfl, by simpa using plain⟩

def quotedText (field : List Char) : List Char :=
  '\x22' :: (field.flatMap quoteChar ++ ['\x22'])

theorem readLine_quotedText : readLine .start (utf8 (quotedText field) ++ behind) =
    (readLine .behindQuote behind).before (utf8 field) (utf8 (quotedText field)).length := by
  have bytes : utf8 (quotedText field) ++ behind =
      quote :: (utf8 (field.flatMap quoteChar) ++ quote :: behind) := by
    rw [quotedText, utf8_cons, utf8_append, List.append_assoc, List.append_assoc]
    rfl
  rw [bytes]
  change (readLine .quoted _).before [] 1 = _
  rw [readLine_quoted, Line.before_before, quotedText, utf8_cons, List.length_append]
  rfl

/-- A written field is read up to what closes it. -/
theorem readLine_fieldText (closing : Closing byte) :
    readLine .start (utf8 (fieldText field) ++ byte :: rest) =
      (readLine .unquoted (byte :: rest)).before (utf8 field) (utf8 (fieldText field)).length := by
  rcases fieldText_eq field with text | ⟨text, plain⟩
  · change fieldText field = quotedText field at text
    rw [text, readLine_quotedText, readLine_closing closing (by decide)]
  · rw [text]
    cases bytes : utf8 field with
    | nil => exact readLine_closing closing (by decide)
    | cons first more =>
        have kept {byte : UInt8} (among : byte ∈ first :: more) :=
          step_of_plain plain (bytes ▸ among)
        rw [List.cons_append, readLine, kept List.mem_cons_self .start (.inl rfl)]
        dsimp only
        rw [readLine_keep fun byte among =>
          kept (List.mem_cons_of_mem first among) .unquoted (.inr rfl)]
        rfl

end Fields

/-! ## Records -/

section Records
variable {fields : List (List Char)} {rest : List UInt8}

theorem readLine_recordText (filled : fields ≠ []) (rest : List UInt8) :
    readLine .start (utf8 (recordText fields) ++ rest) =
      ⟨fields.map utf8, (utf8 (recordText fields)).length⟩ := by
  induction fields with
  | nil => exact absurd rfl filled
  | cons field others ih =>
      cases others with
      | nil =>
          have bytes : utf8 (recordText [field]) ++ rest =
              utf8 (fieldText field) ++ lineFeed :: rest := by
            rw [recordText, fieldsText, utf8_append, List.append_assoc]
            rfl
          rw [bytes, readLine_fieldText (.inr (by decide))]
          change (⟨[[]], 1⟩ : Line).before _ _ = _
          rw [Line.before, foldr_addByte, List.append_nil, recordText, fieldsText, utf8_append,
            List.length_append, Nat.add_comm]
          rfl
      | cons next more =>
          have text : recordText (field :: next :: more) =
              fieldText field ++ ',' :: recordText (next :: more) := by
            rw [recordText, fieldsText, List.append_assoc, List.cons_append, recordText]
          have bytes : utf8 (recordText (field :: next :: more)) ++ rest =
              utf8 (fieldText field) ++ comma :: (utf8 (recordText (next :: more)) ++ rest) := by
            rw [text, utf8_append, List.append_assoc, utf8_cons, List.append_assoc]
            rfl
          rw [bytes, readLine_fieldText (.inl rfl)]
          change (⟨[] :: (readLine .start _).fields, (readLine .start _).size + 1⟩ : Line).before
            _ _ = _
          rw [ih (List.cons_ne_nil next more), Line.before, foldr_addByte, List.append_nil, text,
            utf8_append, List.length_append, utf8_cons, List.length_append]
          simp only [List.map_cons, Line.mk.injEq, true_and]
          change _ + 1 + _ = _ + (1 + _)
          omega

/-- Fields whose text is not an empty line. -/
def Visible (fields : List (List Char)) : Prop :=
  fields ≠ [] ∧ fields ≠ [[]]

theorem fieldText_starts {field : List Char} (filled : field ≠ []) :
    ∃ byte more, utf8 (fieldText field) = byte :: more ∧ endsRecord byte = false := by
  rcases fieldText_eq field with text | ⟨text, plain⟩
  · exact ⟨quote, utf8 (field.flatMap quoteChar ++ ['\x22']), by rw [text]; rfl, by decide⟩
  · rw [text]
    cases bytes : utf8 field with
    | nil =>
        obtain ⟨c, more, rfl⟩ := List.exists_cons_of_ne_nil filled
        rw [utf8_cons, List.append_eq_nil_iff] at bytes
        exact absurd bytes.1 String.utf8EncodeChar_ne_nil
    | cons first more =>
        refine ⟨first, more, rfl, ?_⟩
        have kept := step_of_plain plain (bytes ▸ List.mem_cons_self) .unquoted (.inr rfl)
        cases ends : endsRecord first with
        | false => rfl
        | true =>
            simp only [step, plainStep, ends, if_true] at kept
            split at kept <;> cases kept

theorem recordText_starts (visible : Visible fields) :
    ∃ byte more, utf8 (recordText fields) = byte :: more ∧ endsRecord byte = false := by
  obtain ⟨field, others, rfl⟩ := List.exists_cons_of_ne_nil visible.1
  by_cases filled : field = []
  · subst filled
    cases others with
    | nil => exact absurd rfl visible.2
    | cons next more =>
        exact ⟨comma, utf8 (fieldsText (next :: more) ++ ['\n']), rfl, by decide⟩
  · obtain ⟨byte, more, bytes, outside⟩ := fieldText_starts filled
    have text : ∃ behind, recordText (field :: others) = fieldText field ++ behind := by
      cases others with
      | nil => exact ⟨['\n'], rfl⟩
      | cons next more =>
          exact ⟨',' :: fieldsText (next :: more) ++ ['\n'], List.append_assoc _ _ _⟩
    obtain ⟨behind, text⟩ := text
    refine ⟨byte, more ++ utf8 behind, ?_, outside⟩
    rw [text, utf8_append, bytes, List.cons_append]

theorem readFrom_recordText (visible : Visible fields) (mark : Mark) :
    readFrom mark (utf8 (recordText fields) ++ rest) =
      ⟨mark, fields.map utf8⟩ :: readFrom (mark.next (utf8 (recordText fields))) rest := by
  have read := readLine_recordText visible.1 rest
  obtain ⟨first, more, bytes, outside⟩ := recordText_starts visible
  rw [bytes, List.cons_append] at read ⊢
  rw [readFrom]
  simp only [List.takeWhile_cons, outside, Bool.false_eq_true, if_false, List.length_nil,
    List.drop_zero, List.isEmpty_cons, read, Nat.zero_add, List.length_cons, Nat.add_sub_cancel,
    List.take_succ_cons, List.take_left, List.drop_left]

end Records

end Csv

/-! ## Tables -/

open Csv

theorem QueryTable.decodeFields_utf8 (mark : Mark) (number : Nat) (fields : List (List Char)) :
    decodeFields mark number (fields.map utf8) = .ok (fields.map String.ofList) := by
  induction fields generalizing number with
  | nil => rfl
  | cons field others ih =>
      rw [List.map_cons, decodeFields, decodeUtf8_utf8]
      dsimp only
      rw [ih]
      rfl

/-- The texts of the fields of all records. -/
def QueryTable.texts (records : List Record) : Except CsvFault (List (List String)) :=
  records.mapM fun record => decodeFields record.mark 0 record.fields

theorem QueryTable.texts_readFrom {records : List (List (List Char))}
    (visible : ∀ fields ∈ records, Visible fields) (mark : Mark) :
    texts (readFrom mark (utf8 (tableText records))) =
      .ok (records.map fun fields => fields.map String.ofList) := by
  induction records generalizing mark with
  | nil =>
      rw [tableText, List.flatMap_nil, utf8_nil, readFrom]
      rfl
  | cons fields others ih =>
      have later := ih (fun other among => visible other (List.mem_cons_of_mem fields among))
        (mark.next (utf8 (recordText fields)))
      rw [texts] at later
      rw [tableText, List.flatMap_cons, utf8_append,
        readFrom_recordText (visible fields List.mem_cons_self), texts, List.mapM_cons,
        decodeFields_utf8]
      change (texts _ >>= fun _ => _) = _
      rw [texts, ← tableText, later]
      rfl

theorem QueryTable.texts_read {records : List (List (List Char))} {first : Char} {more : List Char}
    (visible : ∀ fields ∈ records, Visible fields) (text : tableText records = first :: more)
    (small : first.toNat < 0x80) :
    texts (read (utf8 (tableText records))) =
      .ok (records.map fun fields => fields.map String.ofList) := by
  have noMark : byteOrderMark.isPrefixOf (utf8 (tableText records)) = false := by
    have apart : UInt8.ofNat first.toNat ≠ 0xef := by
      intro same
      have number := congrArg UInt8.toNat same
      rw [UInt8.toNat_ofNat'] at number
      change _ = 239 at number
      omega
    rw [text, utf8_cons, utf8EncodeChar_of_lt small]
    simp [byteOrderMark, List.isPrefixOf, Ne.symm apart]
  rw [Csv.read, noMark]
  exact texts_readFrom visible {}

end SqlMetrics
