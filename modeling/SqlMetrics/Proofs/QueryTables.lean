import SqlMetrics.Proofs.Csv.OneColumn
import SqlMetrics.Proofs.Json.Compact

/-! # Tables of queries

A table of JSON objects is loaded as a whole or not at all: every object gives one query if every
object has a member for it, and of several such members the last counts.  Texts nested too deep, and
those with a number or an escape that has no value, are refused (`query_tables_faithful`,
`named_rows_refused`).  Queries written as JSON objects and queries written between quotes in a
column of comma-separated values are loaded alike. -/
set_option autoImplicit false
namespace SqlMetrics
namespace QueryTable

open Document

def loaded (store : FileStore) (path : Path) : Except Error (List String) :=
  ((load path : StateM FileStore (Except Error (List String))).run store).1

def Named (row : List (String × Json)) : Prop :=
  queryColumn ∈ row.map Prod.fst

/-- The query is what the last such member of the row stands for. -/
def HasQuery (row : List (String × Json)) (query : String) : Prop :=
  ∃ value, row.reverse.lookup queryColumn = some value ∧ textOf value = query

section Loaded
variable {store : FileStore} {path : Path} {text : String} {row : List (String × Json)}
  {rows : List (List (String × Json))} {document : Document}

/-! ## Files -/

theorem loaded_json (format : formatOf? path = some .json)
    (read : store.readFile path = .ok text.toUTF8) : loaded store path = ofJson path text := by
  rw [loaded, load, format]
  change (textFrom path (store.readFile path)).bind (ofJson path) = _
  rw [read, textFrom, decodeUtf8_toUTF8]
  rfl

theorem loaded_csv (format : formatOf? path = some .csv) :
    loaded store path = fromCsv path (store.readFile path) := by
  rw [loaded, load, format]
  rfl

/-! ## Rows -/

theorem named_iff : Named row ↔ ∃ query, HasQuery row query := by
  have found : Named row ↔ (row.reverse.lookup queryColumn).isSome := by
    rw [List.lookup_isSome_iff, Named, List.mem_map]
    exact exists_congr fun member =>
      and_congr List.mem_reverse.symm (eq_comm.trans beq_iff_eq.symm)
  rw [found, Option.isSome_iff_exists]
  simp [HasQuery]

theorem memberOf_eq_ok (path : Path) {query : String} :
    memberOf path (sortMembers row) = .ok query ↔ HasQuery row query := by
  rw [memberOf, lookup_sortMembers, HasQuery]
  cases row.reverse.lookup queryColumn <;> simp

theorem memberOf_of_unnamed (unnamed : ¬ Named row) :
    memberOf path (sortMembers row) = .error (.missingColumn path) := by
  rw [memberOf, lookup_sortMembers]
  cases found : row.reverse.lookup queryColumn with
  | none => rfl
  | some value => exact absurd (named_iff.mpr ⟨textOf value, value, found, rfl⟩) unnamed

theorem mapM_memberOf {queries : List String} :
    (rows.map sortMembers).mapM (memberOf path) = .ok queries ↔
      List.Forall₂ HasQuery rows queries := by
  induction rows generalizing queries with
  | nil => cases queries <;> simp [pure, Except.pure]
  | cons row rest ih =>
      rw [List.map_cons, List.mapM_cons, List.forall₂_cons_left_iff]
      simp only [← ih, ← memberOf_eq_ok path]
      cases memberOf path (sortMembers row) with
      | error fault => simp [bind, Except.bind]
      | ok query =>
          cases (rest.map sortMembers).mapM (memberOf path) with
          | error fault => simp [bind, Except.bind]
          | ok all => simp [bind, Except.bind, pure, Except.pure, eq_comm]

theorem exists_queries :
    (∃ queries, List.Forall₂ HasQuery rows queries) ↔ ∀ row ∈ rows, Named row :=
  exists_forall₂.trans (forall₂_congr fun _ _ => named_iff.symm)

theorem mapM_memberOf_of_unnamed (unnamed : ∃ row ∈ rows, ¬ Named row) :
    (rows.map sortMembers).mapM (memberOf path) = .error (.missingColumn path) := by
  induction rows with
  | nil =>
      obtain ⟨row, among, -⟩ := unnamed
      cases among
  | cons row rest ih =>
      rw [List.map_cons, List.mapM_cons]
      by_cases named : Named row
      · obtain ⟨query, has⟩ := named_iff.mp named
        obtain ⟨other, among, lacks⟩ := unnamed
        have later : other ∈ rest :=
          (List.mem_cons.mp among).resolve_left fun same => lacks (same ▸ named)
        rw [(memberOf_eq_ok path).mpr has, ih ⟨other, later, lacks⟩]
        rfl
      · rw [memberOf_of_unnamed named]
        rfl

/-! ## Tables of objects -/

theorem ofJson_of_rows (whole : read text = (document, false))
    (shallow : document.nesting < depthLimit) (found : document.rows? = some rows) :
    ofJson path text = (rows.map sortMembers).mapM (memberOf path) := by
  have decoded := toOption_decode whole
  rw [if_pos ⟨rfl, shallow⟩, found] at decoded
  rw [ofJson]
  cases read : decode toObjects text with
  | error fault =>
      rw [read] at decoded
      cases decoded
  | ok objects =>
      rw [read] at decoded
      cases decoded
      rfl

theorem ofJson_refused {more : Bool} (whole : read text = (document, more))
    (beyond : more = false → document.nesting < depthLimit → document.rows? = none) :
    ∃ fault, ofJson path text = .error (.json path fault) := by
  have decoded : (decode toObjects text).toOption = none := by
    rw [toOption_decode whole]
    split_ifs with inside
    · rw [beyond inside.1 inside.2]
      rfl
    · rfl
  rw [ofJson]
  cases read : decode toObjects text with
  | error fault => exact ⟨fault, rfl⟩
  | ok objects =>
      rw [read] at decoded
      cases decoded

theorem decode_compact_of_rows (shallow : document.nesting < depthLimit)
    (found : document.rows? = some rows) (among : row ∈ rows) {member : String × Json}
    (inside : member ∈ row) (whole : member.2.AllWhole) :
    decode (toJson 0) (String.ofList member.2.compact) = .ok member.2 := by
  obtain ⟨members, read, less⟩ := exists_members found among
  obtain ⟨own, within⟩ := memberValue?_document members read member inside whole
  exact decode_compact own ((within.trans_lt less).trans shallow)

end Loaded

/-! ## Tables that hold the same queries -/

def queryObjects (queries : List String) : Json :=
  .array (queries.map fun query => .object [(queryColumn, .text query)])

section Objects
variable {queries : List String}

theorem rows?_queryObjects (queries : List String) : (queryObjects queries).document.rows? =
    some (queries.map fun query => [(queryColumn, .text query)]) := by
  rw [queryObjects, Json.document, Json.itemDocuments_map, rows?]
  induction queries with
  | nil => rfl
  | cons query rest ih =>
      rw [List.map_cons, List.mapM_cons, ih]
      rfl

theorem nesting_queryObjects (queries : List String) :
    (queryObjects queries).document.nesting ≤ 2 := by
  rw [queryObjects, Json.document, Json.itemDocuments_map, nesting]
  refine Nat.succ_le_succ ?_
  induction queries with
  | nil => exact Nat.zero_le 1
  | cons query rest ih => exact max_le (le_refl 1) ih

theorem hasQuery_queryObjects (queries : List String) : List.Forall₂ HasQuery
    (queries.map fun query => [(queryColumn, Json.text query)]) queries := by
  refine List.forall₂_map_left_iff.mpr (List.forall₂_same.mpr fun query _ => ?_)
  exact ⟨.text query, rfl, rfl⟩

/-- A JSON table is loaded as a whole, or not at all, by the names of its members.  Of a text that
is an array of objects, all of whose values can be read, every object gives its query, in order,
unless one of them has no member for it; values without fractions are read back from the texts that
are loaded for them.  Any other text is refused as JSON.  The same queries are loaded from the
objects of a JSON table and from the quoted cells of a column. -/
theorem query_tables_faithful :
    (∀ (store : FileStore) (path : Path) (text : String) (document : Document) (more : Bool),
      formatOf? path = some .json → store.readFile path = .ok text.toUTF8 →
      Document.read text = (document, more) →
      (more = false → ∀ rows, document.rows? = some rows → document.nesting < depthLimit →
        ((∃ queries, loaded store path = .ok queries) ↔ ∀ row ∈ rows, Named row) ∧
        (∀ queries, loaded store path = .ok queries ↔ List.Forall₂ HasQuery rows queries) ∧
        ((∃ row ∈ rows, ¬ Named row) → loaded store path = .error (.missingColumn path)) ∧
        ∀ row ∈ rows, ∀ member ∈ row, member.2.AllWhole →
          decode (toJson 0) (String.ofList member.2.compact) = .ok member.2) ∧
      ((more = false → document.nesting < depthLimit → document.rows? = none) →
        ∃ fault, loaded store path = .error (.json path fault))) ∧
    (∀ queries, ∀ text ∈ [(queryObjects queries).compact, (queryObjects queries).pretty 0],
      Document.read (String.ofList text) = ((queryObjects queries).document, false)) ∧
    ∀ (store : FileStore) (jsonPath csvPath : Path) (text : String) (ending last : List Char)
      (queries : List String),
      formatOf? jsonPath = some .json → store.readFile jsonPath = .ok text.toUTF8 →
      Document.read text = ((queryObjects queries).document, false) →
      formatOf? csvPath = some .csv → BlankText ending → ending ≠ [] → BlankText last →
      store.readFile csvPath = .ok (columnText ending last queries).toUTF8 →
      loaded store jsonPath = .ok queries ∧ loaded store csvPath = .ok queries := by
  refine ⟨?_, ?_, ?_⟩
  · intro store path text document more format contents whole
    rw [loaded_json format contents]
    refine ⟨?_, ofJson_refused whole⟩
    rintro rfl rows found shallow
    rw [ofJson_of_rows whole shallow found]
    refine ⟨(exists_congr fun queries => mapM_memberOf).trans exists_queries,
      fun queries => mapM_memberOf, mapM_memberOf_of_unnamed, ?_⟩
    intro row among member inside allWhole
    exact decode_compact_of_rows shallow found among inside allWhole
  · intro queries text among
    simp only [List.mem_cons, List.not_mem_nil, or_false] at among
    rcases among with rfl | rfl
    · exact read_compact _
    · exact read_pretty _
  · intro store jsonPath csvPath text ending last queries json jsonContents whole csv ends apart
      ended csvContents
    have shallow : (queryObjects queries).document.nesting < depthLimit :=
      (nesting_queryObjects queries).trans_lt (by decide)
    refine ⟨?_, ?_⟩
    · rw [loaded_json json jsonContents, ofJson_of_rows whole shallow (rows?_queryObjects queries),
        mapM_memberOf]
      exact hasQuery_queryObjects queries
    · rw [loaded_csv csv, csvContents]
      exact fromCsv_columnText ends apart ended csvPath queries

end Objects

def repeatedMember : Json :=
  .array [.object [(queryColumn, .bool true), (queryColumn, .array [.number (.whole (-1)), .null])],
    .object [("id", .text "b"), (queryColumn, .null)]]

def threeTables : FileStore where
  entries := [
    (["a.json"], .file (String.ofList repeatedMember.compact).toUTF8),
    (["b.json"], .file (String.ofList ((queryObjects ["\x22,\n", ""]).pretty 0)).toUTF8),
    (["b.csv"], .file (columnText ['\r', '\n'] [] ["\x22,\n", ""]).toUTF8)]

/-- The last member counts, and a quote, a comma and a line break survive in both forms. -/
theorem loaded_of_three_tables :
    loaded threeTables "a.json" = .ok ["[-1,null]", ""] ∧
    loaded threeTables "b.json" = .ok ["\x22,\n", ""] ∧
    loaded threeTables "b.csv" = .ok ["\x22,\n", ""] := by
  obtain ⟨rows, texts, same⟩ := query_tables_faithful
  have ends : BlankText ['\r', '\n'] := by simp [BlankText]
  have pretty := texts ["\x22,\n", ""] _ (List.mem_cons_of_mem _ List.mem_cons_self)
  refine ⟨?_, same threeTables "b.json" "b.csv" _ ['\r', '\n'] [] _ rfl rfl pretty rfl ends
    (by decide) nofun rfl⟩
  have loads := (rows threeTables "a.json" _ _ _ rfl rfl (read_compact repeatedMember)).1 rfl
    [[(queryColumn, .bool true), (queryColumn, .array [.number (.whole (-1)), .null])],
      [("id", .text "b"), (queryColumn, .null)]] rfl (by decide)
  exact (loads.2.1 _).mpr (.cons ⟨_, rfl, rfl⟩ (.cons ⟨_, rfl, rfl⟩ .nil))

/-! ## Tables that are refused -/

def rowText (value : List Char) : String :=
  String.ofList ('[' :: '\x7b' :: (Json.quoteText queryColumn ++ ':' :: (Json.quoteText "a" ++
    ',' :: (Json.quoteText "x" ++ ':' :: (value ++ ['\x7d', ']'])))))

/-- The table is JSON and its row has a query, and still it is refused. -/
def Refused (value : List Char) : Prop :=
  ∃ document fault, Document.read (rowText value) =
      (.array [.object [(.ok queryColumn, .text (.ok "a")), (.ok "x", document)] none] none,
        false) ∧
    document.skipFault? = none ∧
    ofJson "q.json" (rowText value) = .error (.json "q.json" fault)

def nested : Nat → Json
  | 0 => .array []
  | depth + 1 => .array [nested depth]

section Refused
variable {value : List Char} {document : Document}

theorem read_rowText (reads : Reads (value ++ ['\x7d', ']']) document ['\x7d', ']']) :
    Document.read (rowText value) =
      (.array [.object [(.ok queryColumn, .text (.ok "a")), (.ok "x", document)] none] none,
        false) := by
  refine read_of_reads ?_
  rw [rowText, String.toList_ofList]
  refine .array (skipSpace_cons rfl) (.last (.object (skipSpace_cons rfl) ?_) (skipSpace_cons rfl))
  exact .cons (.of_quoteText isSpace_nothing (.quoteText "a" _)) (skipSpace_cons rfl)
    (.last (.of_quoteText isSpace_nothing reads) (skipSpace_cons rfl))

theorem refused_of_reads (reads : Reads (value ++ ['\x7d', ']']) document ['\x7d', ']'])
    (sound : document.skipFault? = none)
    (beyond : document.nesting + 2 < depthLimit → document.value? = none) : Refused value := by
  have whole := read_rowText reads
  have depth : nesting (.array [.object [(.ok queryColumn, .text (.ok "a")), (.ok "x", document)]
      none] none) = document.nesting + 2 := by
    simp [nesting, itemsNesting, membersNesting]
  obtain ⟨fault, refused⟩ := @ofJson_refused "q.json" _ _ _ whole (by
    intro _ shallow
    rw [depth] at shallow
    simp [rows?, members?, memberValues?, beyond shallow])
  exact ⟨document, fault, whole, sound, refused⟩

theorem nesting_nested (depth : Nat) : (nested depth).document.nesting = depth + 1 := by
  induction depth with
  | zero => rfl
  | succ depth ih =>
      change max (nested depth).document.nesting 0 + 1 = _
      rw [ih, Nat.max_zero]

theorem skipFault?_nested (depth : Nat) : (nested depth).document.skipFault? = none := by
  induction depth with
  | zero => rfl
  | succ depth ih =>
      change ((((nested depth).document.skipFault?).or none).or none) = none
      rw [ih]
      rfl

end Refused

/-- A number beyond the doubles, half of a pair of escapes, and a group too deep: each is JSON, and
each takes a query with it. -/
theorem named_rows_refused : Refused "1e999".toList ∧ Refused "\x22\\ud800\x22".toList ∧
    Refused (nested 125).compact := by
  refine ⟨?_, ?_, ?_⟩
  · have text : "1e999".toList = Numeral.text false ⟨false, ['1'], [], some 999⟩ := by rfl
    have proper : Numeral.Proper ⟨false, ['1'], [], some 999⟩ := by
      refine ⟨List.cons_ne_nil _ _, List.forall_mem_singleton.mpr rfl, nofun, ?_⟩
      intro zero
      exact absurd zero (by decide)
    rw [text]
    refine refused_of_reads (.numeral proper (endsNumber_closing (.inr rfl) _) false) rfl ?_
    intro _
    have great : Numeral.value? ⟨false, ['1'], [], some 999⟩ = none := by
      have parts : Numeral.scaled ⟨false, ['1'], [], some 999⟩ = (1, 0) := rfl
      have one : (Float.ofNat 1 == 0) = false := by rfl
      simp only [Numeral.value?, parts, Option.isNone_some, Bool.and_false, Bool.false_and]
      rw [if_neg (by decide), Numeral.scale?, if_pos (by decide), one]
      rfl
    rw [Document.value?, great]
    rfl
  · have escape : readText ['\\', 'u', 'd', '8', '0', '0', '\x22', '\x7d', ']'] =
        (.text (.error .malformed), some 7) := by
      have skipped : JsonText.skipString ['\\', 'u', 'd', '8', '0', '0', '\x22', '\x7d', ']'] =
          .ok 7 := by
        rw [JsonText.skipString.eq_def]
        change (JsonText.skipString ['\x22', '\x7d', ']']).map (· + 6) = _
        rw [JsonText.skipString.eq_def]
        rfl
      have read : JsonText.readString ['\\', 'u', 'd', '8', '0', '0', '\x22', '\x7d', ']'] =
          .error .malformed := by
        rw [JsonText.readString.eq_def]
        rfl
      rw [readText, skipped, read]
      rfl
    have reads : Reads ("\x22\\ud800\x22".toList ++ ['\x7d', ']']) (.text (.error .malformed))
        ['\x7d', ']'] :=
      Reads.text (skipSpace_cons rfl) escape
    exact refused_of_reads reads rfl fun _ => rfl
  · refine refused_of_reads (reads_write blank_none 0 _ (endsNumber_closing (.inr rfl) _))
      (skipFault?_nested 125) ?_
    intro shallow
    rw [nesting_nested] at shallow
    exact absurd shallow (by decide)

end QueryTable
end SqlMetrics
