import Mathlib.Control.Monad.Basic
import SqlMetrics.Proofs.OutputNames

/-! # The name that a run takes from its input

Without a name of its own a run names its files after its input.  Of a path with an extension that
is the part of the file name before the last point (`defaultName_eq`): it is not empty and has no
slash, so three of the tests for a name are left, and each of them refuses some
(`checkOutputName_of_no_slash`).  A run that has come as far as writing then fails for its own
default name (`default_names_checked`). -/
set_option autoImplicit false
namespace SqlMetrics

/-! ## The parts of a file name -/

namespace Path

variable {path : Path} {name : String} {front behind : List Char}

theorem eq_of_splitName (split : splitName name = (front, some behind)) :
    name.toList = front ++ '.' :: behind ∧ front ≠ [] ∧ '.' ∉ behind := by
  rw [splitName] at split
  by_cases marked : '.' ∈ name.toList.reverse
  · -- Seen from its end, the name goes up to its first point and then on.
    obtain ⟨last, before, reversed, pointless⟩ := List.eq_append_cons_of_mem marked
    have text : name.toList = before.reverse ++ '.' :: last.reverse := by
      rw [← List.reverse_reverse name.toList, reversed]
      simp
    have taken : name.toList.reverse.takeWhile (· != '.') = last := by
      rw [reversed, List.takeWhile_append_of_pos, List.takeWhile_cons_of_neg, List.append_nil]
      · simp
      · intro c among
        simpa using fun same : c = '.' => pointless (same ▸ among)
    have dropped : name.toList.reverse.drop (last.length + 1) = before := by
      rw [reversed, List.drop_append, List.drop_of_length_le (Nat.le_succ _)]
      simp
    simp only [taken, dropped] at split
    split at split
    · cases split
    · rename_i filled
      obtain ⟨rfl, same⟩ := Prod.mk.inj split
      obtain rfl := Option.some.inj same
      exact ⟨text, by simpa using filled, by simpa using pointless⟩
  · have taken : name.toList.reverse.takeWhile (· != '.') = name.toList.reverse := by
      rw [List.takeWhile_eq_self_iff]
      intro c among
      simpa using fun same : c = '.' => marked (same ▸ among)
    rw [taken, List.drop_of_length_le (Nat.le_succ _)] at split
    cases split

theorem no_slash_of_fileName? (isFile : path.fileName? = some name) : '/' ∉ name.toList := by
  obtain ⟨last, named⟩ := Option.filter_eq_some_iff.mp isFile
  simp only [Bool.and_eq_true, bne_iff_ne] at named
  have among := (mem_components named.2).mp (List.mem_of_getLast? last)
  rw [segments, List.mem_map] at among
  obtain ⟨piece, inside, rfl⟩ := among
  rw [String.toList_ofList]
  exact (mem_splitOn.mp (List.mem_filter.mp inside).1).1

end Path

namespace Cli

variable {path : Path} {ending : String}

theorem defaultName_eq (extended : path.extension? = some ending) :
    path.fileName? = some (defaultName path ++ "." ++ ending) ∧ '.' ∉ ending.toList ∧
      defaultName path ≠ "" ∧ '/' ∉ (defaultName path).toList := by
  obtain ⟨behind, found, rfl⟩ := Option.map_eq_some_iff.mp extended
  obtain ⟨file, isFile, second⟩ := Option.bind_eq_some_iff.mp found
  obtain ⟨front, same⟩ : ∃ front, Path.splitName file = (front, some behind) :=
    ⟨(Path.splitName file).1, by rw [← second]⟩
  obtain ⟨text, filled, pointless⟩ := Path.eq_of_splitName same
  have named : String.ofList front ≠ "" := fun empty =>
    filled (String.ofList_eq_empty_iff.mp empty)
  have stem : defaultName path = String.ofList front := by
    have found : path.stem? = some (String.ofList front) := by
      rw [Path.stem?, isFile, Option.map_some, same]
    rw [defaultName, found]
    exact if_neg (by simpa using named)
  have noSlash := Path.no_slash_of_fileName? isFile
  rw [text] at noSlash
  rw [stem]
  refine ⟨?_, by simpa using pointless, named, ?_⟩
  · rw [isFile, Option.some.injEq, ← String.toList_inj, text]
    simp
  · rw [String.toList_ofList]
    exact fun slash => noSlash (List.mem_append_left _ slash)

end Cli

/-! ## Which names are refused -/

theorem checkOutputName_of_no_slash {name : String} (noSlash : '/' ∉ name.toList) :
    checkOutputName name =
      if name.toList.all isBlank then .error .blank
      else if name = ".." then .error .traversal
      else if '\\' ∈ name.toList then .error .separator
      else .ok () := by
  have blank : (trimBlank name.toList).isEmpty = name.toList.all isBlank := by
    rw [Bool.eq_iff_iff, isEmpty_trimBlank, List.all_eq_true]
  have absolute : Path.isAbsolute name = false := by
    rw [Path.isAbsolute, decide_eq_false_iff_not]
    exact fun first => noSlash (List.mem_of_head? first)
  have traversal : (Path.components name).contains ".." = true ↔ name = ".." := by
    rw [List.contains_iff_mem, Path.mem_components (by decide), Path.mem_segments (by decide),
      List.splitOn_eq_singleton noSlash, List.mem_singleton, String.toList_inj, eq_comm]
  have slash : name.toList.contains '/' = false := by
    simpa using noSlash
  rw [checkOutputName, blank, absolute, slash, Bool.false_or]
  simp only [traversal, List.contains_iff_mem, Bool.false_eq_true, if_false]

/-! ## Runs that come to writing -/

namespace Cli

/-- Nothing but the name of the files is left to be checked before they are written: the queries
were loaded, the weights were understood and the dialect is known. -/
structure ComesToWriting (options : Options) (store : FileStore) (queries : List String)
    (profile : Profile) : Prop where
  queries : queriesIn options store = .ok queries
  profile : ((weightsText options store).bind weightsOf).bind (profileOf options) = .ok profile

variable {options : Options} {store : FileStore} {queries : List String} {profile : Profile}

theorem queriesIn_of_csv (table : QueryTable.formatOf? options.input = some .csv) :
    queriesIn options store = QueryTable.fromCsv options.input (store.readFile options.input) := by
  rw [queriesIn, QueryTable.load, table]
  rfl

theorem fromCsv_header (path : Path) :
    QueryTable.fromCsv path (.ok "sql\n".toUTF8) = .ok [] := by
  have header : QueryTable.headerOf (Csv.read "sql\n".toUTF8.toList) = .ok ["sql"] := by
    decide +kernel
  have rows : (Csv.read "sql\n".toUTF8.toList).drop 1 = [] :=
    List.isEmpty_iff.mp (by decide +kernel)
  rw [QueryTable.fromCsv, QueryTable.ofCsv, header]
  dsimp only
  rw [rows]
  rfl

theorem comesToWriting_of_queries {path : Path}
    (loaded : queriesIn { input := path } store = .ok queries) :
    ∃ profile, ComesToWriting { input := path } store queries profile := by
  have known : Dialect.ofName? "generic" = some .generic := rfl
  obtain ⟨profile, found, -⟩ := @profileOf_known { input := path } {} .generic known
  exact ⟨profile, loaded, found⟩

theorem runOn_of_comesToWriting (comes : ComesToWriting options store queries profile) :
    (runOn options store).1.error =
      stepFault? ((writeBatch options.outputDirectory options.outputName
        (profile.assessAll queries) : StateM FileStore (Except Error Unit)).run store).1 ∧
    (runOn options store).2 =
      ((writeBatch options.outputDirectory options.outputName
        (profile.assessAll queries) : StateM FileStore (Except Error Unit)).run store).2 := by
  obtain ⟨loaded, found⟩ := comes
  rw [runOn, run_run, loaded]
  cases given : (weightsText options store).bind weightsOf with
  | error error =>
      rw [given] at found
      cases found
  | ok weights =>
      rw [given] at found
      have known : profileOf options weights = .ok profile := found
      dsimp only
      rw [known]
      exact finish_run options store _ queries profile

theorem error_of_comesToWriting (comes : ComesToWriting options store queries profile)
    {name : String} {fault : NameFault} :
    (runOn options store).1.error = some (.outputName name fault) ↔
      name = options.outputName ∧ checkOutputName options.outputName = .error fault := by
  obtain ⟨failed, -⟩ := runOn_of_comesToWriting comes
  cases checked : checkOutputName options.outputName with
  | error found =>
      rw [failed, writeBatch_refused checked]
      simp [stepFault?, eq_comm]
  | ok accepted =>
      obtain ⟨written, home, -, ends⟩ := writeBatch_outputOnly options.outputDirectory
        (profile.assessAll queries) store checked
      rw [← failed] at ends
      refine ⟨fun same => ?_, fun ⟨_, refused⟩ => by cases refused⟩
      rw [same] at ends
      rcases ends with ⟨_, _, _, other⟩ | ⟨_, _, rest, _, ⟨_, done⟩ | ⟨file, _, _, _, _, other⟩⟩
      · cases other
      · cases done
      · cases file <;> cases other

/-- What the name that a run takes from its input is worth.  Of every path that is a table of
queries by its extension, the default name is the file name up to the last point.  It is accepted if
it has a character that is not white space and no backslash and is not `..`, and refused otherwise,
never for a slash.  A run without a name of its own that comes to writing fails because of the name
if and only if it is refused, and then nothing is written. -/
theorem default_names_checked (path : Path) (format : QueryTable.Format)
    (table : QueryTable.formatOf? path = some format) :
    ∃ name ending : String, defaultName path = name ∧
      path.fileName? = some (name ++ "." ++ ending) ∧ path.extension? = some ending ∧
      '.' ∉ ending.toList ∧ name ≠ "" ∧ '/' ∉ name.toList ∧
      (checkOutputName name = .ok () ↔
        (∃ c ∈ name.toList, isBlank c = false) ∧ '\\' ∉ name.toList ∧ name ≠ "..") ∧
      (checkOutputName name =
        if name.toList.all isBlank then .error .blank
        else if name = ".." then .error .traversal
        else if '\\' ∈ name.toList then .error .separator
        else .ok ()) ∧
      ∀ options store queries profile, options.input = path → options.name = none →
        ComesToWriting options store queries profile →
        (∀ other fault, (runOn options store).1.error = some (.outputName other fault) ↔
          other = name ∧ checkOutputName name = .error fault) ∧
        ((∃ fault, checkOutputName name = .error fault) → (runOn options store).2 = store) := by
  obtain ⟨ending, extended⟩ : ∃ ending, path.extension? = some ending := by
    rw [QueryTable.formatOf?] at table
    cases found : path.extension? with
    | none =>
        rw [found] at table
        cases table
    | some ending => exact ⟨ending, rfl⟩
  obtain ⟨isFile, pointless, filled, noSlash⟩ := defaultName_eq extended
  refine ⟨defaultName path, ending, rfl, isFile, extended, pointless, filled, noSlash, ?_,
    checkOutputName_of_no_slash noSlash, ?_⟩
  · rw [checkOutputName_eq_ok]
    simp only [noSlash, not_false_eq_true, true_and]
  · rintro options store queries profile rfl unnamed comes
    have taken : options.outputName = defaultName options.input := by
      rw [Options.outputName, unnamed, Option.getD_none]
    refine ⟨fun other fault => ?_, fun ⟨fault, refused⟩ => ?_⟩
    · rw [error_of_comesToWriting comes, taken]
    · rw [(runOn_of_comesToWriting comes).2, taken, writeBatch_refused refused]

/-- The name before the last point is accepted, and a run on that input comes past it. -/
theorem default_name_with_point_checked :
    QueryTable.formatOf? "q.v2.CSV" = some .csv ∧ defaultName "q.v2.CSV" = "q.v2" ∧
      checkOutputName "q.v2" = .ok () ∧
      ∀ other fault,
        (runOn { input := "q.v2.CSV" }
          { entries := [(["q.v2.CSV"], .file "sql\n".toUTF8)] }).1.error ≠
            some (.outputName other fault) := by
  have table : QueryTable.formatOf? "q.v2.CSV" = some .csv := by decide
  have named : defaultName "q.v2.CSV" = "q.v2" := by decide
  obtain ⟨name, ending, same, -, -, -, -, -, accepted, -, checked⟩ :=
    default_names_checked "q.v2.CSV" .csv table
  obtain rfl := named.symm.trans same
  have passes : checkOutputName "q.v2" = .ok () :=
    accepted.mpr ⟨⟨'q', by decide, by decide⟩, by decide, by decide⟩
  have loaded : queriesIn { input := "q.v2.CSV" }
      { entries := [(["q.v2.CSV"], .file "sql\n".toUTF8)] } = .ok [] :=
    (queriesIn_of_csv table).trans (fromCsv_header _)
  obtain ⟨profile, comes⟩ := comesToWriting_of_queries loaded
  refine ⟨table, named, passes, fun other fault failed => ?_⟩
  have refused := ((checked _ _ _ profile rfl rfl comes).1 other fault).mp failed
  rw [passes] at refused
  cases refused.2

/-- A name of one space, one of two points and one with a backslash are refused, each before an
extension that is accepted.  The run on the first of them has loaded its table by then. -/
theorem default_names_refused :
    (QueryTable.formatOf? " .csv" = some .csv ∧
      checkOutputName (defaultName " .csv") = .error .blank) ∧
    (QueryTable.formatOf? "...csv" = some .csv ∧
      checkOutputName (defaultName "...csv") = .error .traversal) ∧
    (QueryTable.formatOf? "a\\b.json" = some .json ∧
      checkOutputName (defaultName "a\\b.json") = .error .separator) ∧
    queriesIn { input := " .csv" } { entries := [([" .csv"], .file "sql\n".toUTF8)] } = .ok [] ∧
    (runOn { input := " .csv" } { entries := [([" .csv"], .file "sql\n".toUTF8)] }).1.error =
      some (.outputName " " .blank) := by
  have table : QueryTable.formatOf? " .csv" = some .csv := by decide
  have refused : checkOutputName (defaultName " .csv") = .error .blank := by decide
  have loaded : queriesIn { input := " .csv" }
      { entries := [([" .csv"], .file "sql\n".toUTF8)] } = .ok [] :=
    (queriesIn_of_csv table).trans (fromCsv_header _)
  obtain ⟨profile, comes⟩ := comesToWriting_of_queries loaded
  exact ⟨⟨table, refused⟩, ⟨by decide, by decide⟩, ⟨by decide, by decide⟩, loaded,
    (error_of_comesToWriting comes).mpr ⟨by decide, refused⟩⟩

end Cli

end SqlMetrics
