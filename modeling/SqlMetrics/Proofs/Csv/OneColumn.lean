import Mathlib.Data.List.TakeWhile
import Mathlib.Data.Option.Basic
import SqlMetrics.Proofs.Csv.QueryColumn

/-! # Tables with one column

A table that has queries only is loaded as these queries, whatever characters they hold and however
its lines end (`fromCsv_columnText`): every cell stands between quotes on lines of its own. -/
set_option autoImplicit false
namespace SqlMetrics
namespace Csv

section Records
variable {lead filled text behind more : List UInt8} {byte : UInt8}
  {field : List Char} {fields : List (List UInt8)} {size : Nat}

/-! ## Empty lines -/

/-- The bytes end lines and nothing else. -/
def Blank (bytes : List UInt8) : Prop :=
  ∀ byte ∈ bytes, endsRecord byte = true

theorem Blank.drop {bytes : List UInt8} (blank : Blank bytes) (count : Nat) :
    Blank (bytes.drop count) :=
  fun byte among => blank byte (List.mem_of_mem_drop among)

theorem Blank.append {bytes : List UInt8} (blank : Blank bytes) (others : Blank lead) :
    Blank (bytes ++ lead) := by
  intro byte among
  rcases List.mem_append.mp among with first | second
  · exact blank byte first
  · exact others byte second

theorem readFrom_blank (mark : Mark) (blank : Blank lead) : readFrom mark lead = [] := by
  cases lead with
  | nil => rw [readFrom]
  | cons first rest =>
      have whole : (first :: rest).takeWhile endsRecord = first :: rest :=
        List.takeWhile_eq_self_iff.mpr blank
      rw [readFrom]
      simp only [whole, List.drop_length, List.isEmpty_nil, if_true]

theorem exists_readFrom (mark : Mark) (blank : Blank lead) (starts : filled = byte :: more)
    (visible : endsRecord byte = false) (read : readLine .start filled = ⟨fields, size + 1⟩) :
    ∃ next, readFrom mark (lead ++ filled) =
      ⟨mark, fields⟩ :: readFrom next (filled.drop (size + 1)) := by
  have nonempty : filled.isEmpty = false := by rw [starts, List.isEmpty_cons]
  have empty : (lead ++ filled).takeWhile endsRecord = lead := by
    rw [List.takeWhile_append_of_pos blank, starts, List.takeWhile_cons, visible]
    exact List.append_nil lead
  have found : (lead ++ filled).drop lead.length = filled := List.drop_left
  have rest : (lead ++ filled).drop (lead.length + (size + 1)) = filled.drop (size + 1) := by
    rw [← List.drop_drop, found]
  cases whole : lead ++ filled with
  | nil =>
      rw [starts] at whole
      simp at whole
  | cons first others =>
      rw [whole] at empty found rest
      rw [← Nat.add_assoc, List.drop_succ_cons] at rest
      rw [readFrom]
      simp only [empty, found, nonempty, read, Bool.false_eq_true, if_false]
      rw [← Nat.add_assoc, Nat.add_sub_cancel, rest]
      exact ⟨_, rfl⟩

/-! ## Cells -/

theorem readLine_ending (ends : endsRecord byte = true) :
    readLine .unquoted (byte :: more) = ⟨[[]], 1⟩ := by
  have other : byte ≠ comma := by
    rintro rfl
    exact absurd ends (by decide)
  rw [readLine, step, plainStep, if_neg other, if_pos ends]

/-- A text is read as a field by itself, and up to the end of a line. -/
structure Spells (text : List UInt8) (field : List Char) : Prop where
  starts : ∃ byte more, text = byte :: more ∧ endsRecord byte = false
  alone : readLine .start text = ⟨[utf8 field], text.length⟩
  closed : ∀ byte rest, endsRecord byte = true →
    readLine .start (text ++ byte :: rest) = ⟨[utf8 field], text.length + 1⟩

theorem spells_quotedText (field : List Char) : Spells (utf8 (quotedText field)) field where
  starts := ⟨quote, utf8 (field.flatMap quoteChar ++ ['\x22']), rfl, by decide⟩
  alone := by
    have read := @readLine_quotedText field []
    rw [List.append_nil] at read
    rw [read, readLine, Line.before, foldr_addByte, List.append_nil, Nat.zero_add]
  closed := by
    intro byte rest ends
    rw [readLine_quotedText, readLine_closing (.inr ends) (by decide), readLine_ending ends,
      Line.before, foldr_addByte, List.append_nil, Nat.add_comm]

theorem spells_queryColumn : Spells (utf8 queryColumn.toList) queryColumn.toList where
  starts := ⟨0x73, [0x71, 0x6c], by decide, by decide⟩
  alone := by rfl
  closed := by
    intro byte rest ends
    have plain : fieldText queryColumn.toList = queryColumn.toList := by decide
    have read := @readLine_fieldText queryColumn.toList rest byte (.inr ends)
    rw [plain] at read
    rw [read, readLine_ending ends, Line.before, foldr_addByte, List.append_nil, Nat.add_comm]

def linesBehind (ending last : List UInt8) : List (List UInt8) → List UInt8
  | [] => last
  | text :: rest => ending ++ (text ++ linesBehind ending last rest)

section Lines
variable {ending last : List UInt8}

theorem linesBehind_cases (ends : Blank ending) (apart : ending ≠ []) (ended : Blank last)
    (texts : List (List UInt8)) : linesBehind ending last texts = [] ∨
      ∃ byte rest, linesBehind ending last texts = byte :: rest ∧ endsRecord byte = true := by
  cases texts with
  | nil =>
      cases last with
      | nil => exact .inl rfl
      | cons byte rest => exact .inr ⟨byte, rest, rfl, ended byte List.mem_cons_self⟩
  | cons text rest =>
      obtain ⟨byte, more, rfl⟩ := List.exists_cons_of_ne_nil apart
      exact .inr ⟨byte, _, rfl, ends byte List.mem_cons_self⟩

/-- A line of one cell is a record of one field; at most one byte of its end is taken with it. -/
theorem Spells.exists_readFrom (spells : Spells text field) (mark : Mark) (blank : Blank lead)
    (ends : behind = [] ∨ ∃ byte rest, behind = byte :: rest ∧ endsRecord byte = true) :
    ∃ next, readFrom mark (lead ++ (text ++ behind)) =
      ⟨mark, [utf8 field]⟩ :: readFrom next (behind.drop 1) := by
  obtain ⟨first, others, starts, visible⟩ := spells.starts
  rcases ends with rfl | ⟨byte, rest, rfl, ends⟩
  · have read := spells.alone
    have size : text.length = others.length + 1 := by rw [starts, List.length_cons]
    rw [size] at read
    rw [List.append_nil]
    obtain ⟨next, records⟩ := Csv.exists_readFrom mark blank starts visible read
    refine ⟨next, ?_⟩
    rw [records, ← size, List.drop_length, List.drop_nil]
  · have whole : text ++ byte :: rest = first :: (others ++ byte :: rest) := by
      rw [starts, List.cons_append]
    obtain ⟨next, records⟩ := Csv.exists_readFrom mark blank whole visible
      (spells.closed byte rest ends)
    refine ⟨next, ?_⟩
    rw [records, ← List.drop_drop, List.drop_left]

end Lines

end Records
end Csv

namespace QueryTable

open Csv

theorem holds_lines {ending last : List UInt8} (ends : Blank ending) (apart : ending ≠ [])
    (ended : Blank last) {field : List Char} {fields : List (List Char)} {text : List UInt8}
    {texts : List (List UInt8)} (spells : Spells text field)
    (others : List.Forall₂ Spells texts fields) {lead : List UInt8} (blank : Blank lead)
    (mark : Mark) :
    List.Forall₂ Holds (readFrom mark (lead ++ (text ++ linesBehind ending last texts)))
      ((field :: fields).map fun field => [String.ofList field]) := by
  have holds {field : List Char} (mark : Mark) :
      Holds ⟨mark, [utf8 field]⟩ [String.ofList field] := by
    intro mark number
    exact decodeFields_utf8 mark number [field]
  induction others generalizing text field lead mark with
  | nil =>
      obtain ⟨next, records⟩ :=
        spells.exists_readFrom mark blank (linesBehind_cases ends apart ended [])
      rw [records, linesBehind, readFrom_blank next (ended.drop 1)]
      exact .cons (holds mark) .nil
  | @cons other cell texts fields first others ih =>
      obtain ⟨next, records⟩ :=
        spells.exists_readFrom mark blank (linesBehind_cases ends apart ended (other :: texts))
      have rest : (linesBehind ending last (other :: texts)).drop 1 =
          ending.drop 1 ++ (other ++ linesBehind ending last texts) := by
        obtain ⟨byte, more, rfl⟩ := List.exists_cons_of_ne_nil apart
        rfl
      rw [records, rest]
      exact .cons (holds mark) (ih first (ends.drop 1) next)

/-! ## Queries -/

def BlankText (text : List Char) : Prop :=
  ∀ c ∈ text, c = '\n' ∨ c = '\r'

theorem blank_utf8 {text : List Char} (blank : BlankText text) : Blank (utf8 text) := by
  induction text with
  | nil => exact nofun
  | cons c rest ih =>
      have others := ih fun other among => blank other (List.mem_cons_of_mem c among)
      rw [utf8_cons]
      rcases blank c List.mem_cons_self with rfl | rfl
      · exact .append (List.forall_mem_singleton.mpr rfl) others
      · exact .append (List.forall_mem_singleton.mpr rfl) others

/-- A table with the column of queries only, each between quotes. -/
def columnText (ending last : List Char) (queries : List String) : String :=
  String.ofList (queryColumn.toList ++
    (queries.flatMap (fun query => ending ++ quotedText query.toList) ++ last))

theorem linesBehind_utf8 (ending last : List Char) (queries : List String) :
    linesBehind (utf8 ending) (utf8 last)
      (queries.map fun query => utf8 (quotedText query.toList)) =
      utf8 (queries.flatMap (fun query => ending ++ quotedText query.toList) ++ last) := by
  induction queries with
  | nil => rfl
  | cons query rest ih =>
      rw [List.map_cons, linesBehind, ih, List.flatMap_cons]
      simp only [utf8_append, List.append_assoc]

theorem fromCsv_columnText {ending last : List Char} (ends : BlankText ending)
    (apart : ending ≠ []) (ended : BlankText last) (path : Path) (queries : List String) :
    fromCsv path (.ok (columnText ending last queries).toUTF8) = .ok queries := by
  have apartBytes : utf8 ending ≠ [] := by
    obtain ⟨c, rest, rfl⟩ := List.exists_cons_of_ne_nil apart
    rw [utf8_cons]
    exact List.append_ne_nil_of_left_ne_nil String.utf8EncodeChar_ne_nil _
  have cells : List.Forall₂ Spells (queries.map fun query => utf8 (quotedText query.toList))
      (queries.map String.toList) :=
    List.forall₂_map_left_iff.mpr (List.forall₂_map_right_iff.mpr
      (List.forall₂_same.mpr fun query _ => spells_quotedText query.toList))
  have bytes : (columnText ending last queries).toUTF8.toList =
      utf8 queryColumn.toList ++ linesBehind (utf8 ending) (utf8 last)
        (queries.map fun query => utf8 (quotedText query.toList)) := by
    rw [columnText, toList_toUTF8, utf8_append, linesBehind_utf8]
  have noMark (rest : List UInt8) :
      byteOrderMark.isPrefixOf (utf8 queryColumn.toList ++ rest) = false := rfl
  have rows := holds_lines (blank_utf8 ends) apartBytes (blank_utf8 ended) spells_queryColumn cells
    (show Blank [] from nofun) {}
  have table : (queryColumn.toList :: queries.map String.toList).map
      (fun field => [String.ofList field]) = [queryColumn] :: queries.map fun query => [query] := by
    simp
  rw [List.nil_append, table] at rows
  have single (other : Nat) (found : [queryColumn][other]? = some queryColumn) : other = 0 := by
    cases other with
    | zero => rfl
    | succ other => cases found
  have whole : Csv.read (columnText ending last queries).toUTF8.toList =
      readFrom {} (utf8 queryColumn.toList ++ linesBehind (utf8 ending) (utf8 last)
        (queries.map fun query => utf8 (quotedText query.toList))) := by
    rw [bytes, Csv.read, noMark]
    rfl
  rw [← whole] at rows
  cases read : Csv.read (columnText ending last queries).toUTF8.toList with
  | nil =>
      rw [read] at rows
      cases rows
  | cons record records =>
      rw [read] at rows
      obtain ⟨header, others⟩ := List.forall₂_cons.mp rows
      obtain ⟨loaded, found, cells⟩ := mapM_cellOf others (by simp)
        (show [queryColumn][0]? = some queryColumn from rfl) single
      have same : loaded.map some = queries.map some := by
        rw [cells, List.map_map]
        rfl
      rw [fromCsv_of_header read header, if_pos (by decide), found,
        List.map_injective_iff.mpr (Option.some_injective String) same]
      rfl

end QueryTable
end SqlMetrics
