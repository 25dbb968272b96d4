import SqlMetrics.Cli.Run
import SqlMetrics.Proofs.Files

/-! # What a run leaves behind

A run on a store fails before anything is written, or it writes its result files one after the other
(`run_writes_only_output`).  Until the first file nothing but the output directory and missing
directories above it is created, and no other file changes, whether the run fails or not. -/
set_option autoImplicit false
namespace SqlMetrics

/-- The fault of a step, if it fails. -/
def stepFault? {α : Type} : Except Error α → Option Error
  | .ok _ => none
  | .error error => some error

namespace Cli

variable (options : Options) (store : FileStore)

def queriesIn : Except Error (List String) :=
  ((QueryTable.load options.input : StateM FileStore (Except Error (List String))).run store).1

def weightsText : Except Error (Option String) :=
  match options.weights with
  | none => .ok none
  | some path => (textFrom path (store.readFile path)).map some

def weightsOf : Option String → Except Error Weights
  | none => .ok {}
  | some text => (Weights.read text).mapError .weights

/-- The faults of the steps that come before writing: the input is loaded, the weights file is read
and understood, the dialect is looked up, the name of the output files is checked. -/
def faults : List (Option Error) :=
  [stepFault? (queriesIn options store),
    stepFault? (weightsText options store),
    stepFault? ((weightsText options store).bind weightsOf),
    if (Dialect.ofName? options.dialect).isSome then none
      else some (.unknownDialect options.dialect),
    stepFault? ((checkOutputName options.outputName).mapError (.outputName options.outputName))]

def firstFault? : Option Error :=
  (faults options store).findSome? id

/-- What the steps before writing found, where all succeeded. -/
structure Prepared (queries : List String) (profile : Profile) : Prop where
  queries : queriesIn options store = .ok queries
  weights : (weightsText options store).bind weightsOf = .ok profile.weights
  dialect : profile.dialectName = options.dialect
  name : checkOutputName options.outputName = .ok ()

variable {options store}

/-! ## The steps before writing -/

theorem load_run : (QueryTable.load options.input : StateM FileStore _).run store =
    (queriesIn options store, store) := by
  refine Prod.ext rfl ?_
  rw [QueryTable.load]
  split <;> rfl

theorem loadWeights_run : (loadWeights options : StateM FileStore _).run store =
    ((weightsText options store).bind weightsOf, store) := by
  rw [loadWeights, weightsText]
  cases options.weights with
  | none => rfl
  | some path =>
      have read : (do
          let contents ← Files.readFile path
          return (textFrom path contents).bind fun text =>
            (Weights.read text).mapError .weights : StateM FileStore (Except Error Weights)).run
            store = ((textFrom path (store.readFile path)).bind fun text =>
          (Weights.read text).mapError .weights, store) := rfl
      dsimp only
      rw [read]
      cases textFrom path (store.readFile path) <;> rfl

theorem profileOf_unknown {weights : Weights} (unknown : Dialect.ofName? options.dialect = none) :
    profileOf options weights = .error (.unknownDialect options.dialect) := by
  have noProfile : Profile.ofName? options.dialect weights = none := by
    rw [Profile.ofName?]
    split
    · rfl
    · rename_i known
      rw [unknown] at known
      cases known
  rw [profileOf, noProfile]

theorem profileOf_known (weights : Weights) {dialect : Dialect}
    (known : Dialect.ofName? options.dialect = some dialect) :
    ∃ profile : Profile, profileOf options weights = .ok profile ∧ profile.weights = weights ∧
      profile.dialectName = options.dialect := by
  refine ⟨⟨options.dialect, dialect, weights, known⟩, ?_, rfl, rfl⟩
  have named : Profile.ofName? options.dialect weights =
      some ⟨options.dialect, dialect, weights, known⟩ := by
    rw [Profile.ofName?]
    split
    · rename_i unknown
      rw [known] at unknown
      cases unknown
    · rename_i other found
      obtain rfl : dialect = other := Option.some.inj (known.symm.trans found)
      rfl
  rw [profileOf, named]

theorem run_run : (run options : StateM FileStore Outcome).run store =
    match queriesIn options store with
    | .error error => (.failed [] error, store)
    | .ok queries =>
        match (weightsText options store).bind weightsOf with
        | .error error => (.failed [.loaded queries.length options.input] error, store)
        | .ok weights =>
            match profileOf options weights with
            | .error error => (.failed [.loaded queries.length options.input] error, store)
            | .ok profile =>
                (finish options [.loaded queries.length options.input] queries profile :
                  StateM FileStore Outcome).run store := by
  rw [run, StateT.run_bind, load_run]
  cases queriesIn options store with
  | error error => rfl
  | ok queries =>
      change (loadWeights options >>= _ : StateM FileStore Outcome).run store = _
      rw [StateT.run_bind, loadWeights_run]
      cases (weightsText options store).bind weightsOf with
      | error error => rfl
      | ok weights =>
          change (match profileOf options weights with
            | .error error => return .failed [.loaded queries.length options.input] error
            | .ok profile =>
                finish options [.loaded queries.length options.input] queries profile :
              StateM FileStore Outcome).run store = _
          dsimp only
          cases profileOf options weights <;> rfl

theorem finish_run (options : Options) (store : FileStore) (events : List Event)
    (queries : List String) (profile : Profile) :
    ((finish options events queries profile : StateM FileStore Outcome).run store).1.error =
      stepFault? ((writeBatch options.outputDirectory options.outputName
        (profile.assessAll queries) : StateM FileStore (Except Error Unit)).run store).1 ∧
    ((finish options events queries profile : StateM FileStore Outcome).run store).2 =
      ((writeBatch options.outputDirectory options.outputName
        (profile.assessAll queries) : StateM FileStore (Except Error Unit)).run store).2 := by
  rw [finish, StateT.run_bind]
  generalize (writeBatch options.outputDirectory options.outputName
    (profile.assessAll queries) : StateM FileStore (Except Error Unit)).run store = written
  obtain ⟨outcome, after⟩ := written
  cases outcome <;> exact ⟨rfl, rfl⟩

end Cli

/-! ## Writing a batch -/

section Writing
variable {directory : Path} {name : String} {batch : Batch} {store before between after : FileStore}
  {home : Location} {written : List ResultFile}

theorem writeBatch_refused {fault : NameFault} (refused : checkOutputName name = .error fault) :
    (writeBatch directory name batch : StateM FileStore (Except Error Unit)).run store =
      (.error (.outputName name fault), store) := by
  rw [writeBatch, refused]
  rfl

theorem createDirectories_run (directory : Path) :
    (Files.createDirectories directory : StateM FileStore (Except FileFault Unit)).run store =
      ((store.createDirectories directory).2, (store.createDirectories directory).1) :=
  rfl

theorem writeFile_run (path : Path) (contents : ByteArray) :
    (Files.writeFile path contents : StateM FileStore (Except FileFault Unit)).run store =
      match store.writeFile path contents with
      | .error fault => (.error fault, store)
      | .ok changed => (.ok (), changed) := by
  simp only [Files.writeFile, StateT.run_bind, StateT.run_get, pure_bind]
  cases store.writeFile path contents <;> rfl

theorem writeBatch_run (accepted : checkOutputName name = .ok ()) :
    (writeBatch directory name batch : StateM FileStore (Except Error Unit)).run store =
      match store.createDirectories directory with
      | (made, .error fault) => (.error (.access directory (.file fault)), made)
      | (made, .ok ()) =>
          (writeResults directory name batch [.csv, .json, .report] :
            StateM FileStore (Except Error Unit)).run made := by
  simp only [writeBatch, accepted, StateT.run_bind, createDirectories_run]
  obtain ⟨made, outcome⟩ := store.createDirectories directory
  cases outcome <;> rfl

theorem writeResults_cons (file : ResultFile) (rest : List ResultFile) :
    (writeResults directory name batch (file :: rest) :
      StateM FileStore (Except Error Unit)).run store =
      match store.writeFile (file.path directory name) (file.contents batch).toUTF8 with
      | .error fault => (.error (file.failure (file.path directory name) fault), store)
      | .ok changed => (writeResults directory name batch rest :
          StateM FileStore (Except Error Unit)).run changed := by
  rw [writeResults, StateT.run_bind, writeResult, StateT.run_bind, writeFile_run]
  cases store.writeFile (file.path directory name) (file.contents batch).toUTF8 <;> rfl

theorem not_mem_of_accepted (accepted : checkOutputName name = .ok ()) : '/' ∉ name.toList := by
  intro slash
  have held : (name.toList.contains '/' || name.toList.contains '\\') = true := by
    rw [List.contains_iff_mem.mpr slash]
    rfl
  rw [checkOutputName, held, if_pos rfl] at accepted
  split_ifs at accepted

theorem isName_fileName (accepted : checkOutputName name = .ok ()) (file : ResultFile) :
    Path.IsName (file.fileName name) := by
  obtain ⟨ending, named, plain, long⟩ : ∃ ending : String, file.fileName name = name ++ ending ∧
      '/' ∉ ending.toList ∧ 2 < ending.toList.length := by
    cases file <;> exact ⟨_, rfl, by decide, by decide⟩
  have longer : 2 < (file.fileName name).toList.length := by
    rw [named, String.toList_append, List.length_append]
    omega
  refine ⟨?_, ?_, ?_, ?_⟩
  · intro same
    rw [same] at longer
    exact absurd longer (by decide)
  · rw [named, String.toList_append]
    simp [not_mem_of_accepted accepted, plain]
  · intro same
    rw [same] at longer
    exact absurd longer (by decide)
  · intro same
    rw [same] at longer
    exact absurd longer (by decide)

theorem fileName_injective {file other : ResultFile}
    (same : file.fileName name = other.fileName name) : file = other := by
  have ends := congrArg String.toList same
  cases file <;> cases other <;> simp_all [ResultFile.fileName]

/-- Files of a batch were written right below a directory, and nothing else was changed. -/
structure WroteFiles (home : Location) (name : String) (batch : Batch) (written : List ResultFile)
    (before after : FileStore) : Prop where
  current : after.current = before.current
  directories : ∀ place, before.find? place = some .directory →
    after.find? place = some .directory
  held : ∀ file ∈ written, after.find? (home ++ [file.fileName name]) =
    some (.file (file.contents batch).toUTF8)
  other : ∀ place, (∀ file ∈ written, place ≠ home ++ [file.fileName name]) →
    after.find? place = before.find? place

namespace WroteFiles

theorem none (store : FileStore) : WroteFiles home name batch [] store store :=
  ⟨rfl, fun _ held => held, fun _ among => (List.not_mem_nil among).elim, fun _ _ => rfl⟩

theorem put (file : ResultFile)
    (noDirectory : store.find? (home ++ [file.fileName name]) ≠ some .directory) :
    WroteFiles home name batch [file] store
      (store.put (home ++ [file.fileName name]) (.file (file.contents batch).toUTF8)) where
  current := rfl
  directories := fun _ held => FileStore.find?_put_file noDirectory held
  held := by
    intro other among
    obtain rfl := List.mem_singleton.mp among
    rw [FileStore.find?_put (by simp), if_pos rfl]
  other := by
    intro place apart
    rw [FileStore.find?_put (by simp), if_neg (apart file (List.mem_singleton_self file))]

theorem cons {file : ResultFile} (first : WroteFiles home name batch [file] before between)
    (later : WroteFiles home name batch written between after) (fresh : file ∉ written) :
    WroteFiles home name batch (file :: written) before after where
  current := later.current.trans first.current
  directories := fun place held => later.directories place (first.directories place held)
  held := by
    intro other among
    rcases List.mem_cons.mp among with rfl | among
    · rw [later.other _ ?_, first.held other (List.mem_singleton_self other)]
      intro written among same
      obtain rfl : other = written := fileName_injective (List.singleton_inj.mp
        (List.append_cancel_left same))
      exact fresh among
    · exact later.held other among
  other := by
    intro place apart
    rw [later.other place fun other among => apart other (List.mem_cons_of_mem _ among),
      first.other place fun other among => ?_]
    rw [List.mem_singleton.mp among]
    exact apart file List.mem_cons_self

end WroteFiles

/-- The files of a batch are written in their order up to the first that fails. -/
theorem writeResults_run (batch : Batch) (accepted : checkOutputName name = .ok ())
    {files : List ResultFile} (distinct : files.Nodup)
    (there : store.walk (store.start directory) directory.segments = .ok home) :
    ∃ written rest after,
      ((writeResults directory name batch files :
        StateM FileStore (Except Error Unit)).run store).2 = after ∧
      files = written ++ rest ∧ WroteFiles home name batch written store after ∧
      (written ≠ [] → store.find? home = some .directory) ∧
      (rest = [] ∧ ((writeResults directory name batch files :
          StateM FileStore (Except Error Unit)).run store).1 = .ok () ∨
        ∃ file others fault, rest = file :: others ∧
          after.writeFile (file.path directory name) (file.contents batch).toUTF8 =
            .error fault ∧
          ((writeResults directory name batch files :
            StateM FileStore (Except Error Unit)).run store).1 =
              .error (file.failure (file.path directory name) fault)) := by
  induction files generalizing store with
  | nil =>
      exact ⟨[], [], store, rfl, rfl, .none store, fun filled => absurd rfl filled, .inl ⟨rfl, rfl⟩⟩
  | cons file files ih =>
      obtain ⟨fresh, later⟩ := List.nodup_cons.mp distinct
      rw [writeResults_cons]
      cases wrote : store.writeFile (file.path directory name) (file.contents batch).toUTF8 with
      | error fault =>
          exact ⟨[], file :: files, store, rfl, rfl, .none store, fun filled => absurd rfl filled,
            .inr ⟨file, files, fault, rfl, wrote, rfl⟩⟩
      | ok changed =>
          obtain ⟨inside, noDirectory, rfl⟩ :=
            FileStore.writeFile_join (isName_fileName accepted file) there wrote
          -- The file took the place of no directory, so the others are written to the same place.
          have first : WroteFiles home name batch [file] store _ := .put file noDirectory
          obtain ⟨written, rest, after, stored, rfl, others, -, ended⟩ :=
            ih later (FileStore.walk_mono first.directories there)
          refine ⟨file :: written, rest, after, stored, rfl, first.cons others ?_,
            fun _ => inside, ended⟩
          exact fun among => fresh (List.mem_append_left _ among)

/-- Between two stores, files of a batch were written into a directory and missing directories on
the way to it were created.  Nothing else was touched: every other location holds what it held, and
every other file that could be read says the same. -/
structure OutputOnly (directory : Path) (home : Location) (name : String) (batch : Batch)
    (written : List ResultFile) (before after : FileStore) : Prop where
  held : ∀ file ∈ written, after.find? (home ++ [file.fileName name]) =
    some (.file (file.contents batch).toUTF8)
  other : ∀ place, (∀ file ∈ written, place ≠ home ++ [file.fileName name]) →
    after.find? place = before.find? place ∨
    before.find? place = none ∧ after.find? place = some .directory ∧
      ∃ front, front <+: directory.components ∧
        place = FileStore.resolve (before.start directory) front
  read : ∀ path contents, before.readFile path = .ok contents →
    (∀ file ∈ written, before.locate path ≠ .ok (home ++ [file.fileName name])) →
    after.readFile path = .ok contents

theorem OutputOnly.of_wrote {allowed : Location → Prop}
    (permitted : ∀ place, allowed place → ∃ front, front <+: directory.components ∧
      place = FileStore.resolve (before.start directory) front)
    (grows : FileStore.Grows allowed before between)
    (wrote : WroteFiles home name batch written between after) :
    OutputOnly directory home name batch written before after where
  held := wrote.held
  other := by
    intro place apart
    rw [wrote.other place apart]
    rcases grows.entry place with same | ⟨missing, made, allowed⟩
    · exact .inl same
    · exact .inr ⟨missing, made, permitted place allowed⟩
  read := by
    intro path contents read apart
    obtain ⟨location, located, found⟩ := FileStore.readFile_eq_ok.mp read
    refine FileStore.readFile_eq_ok.mpr ⟨location, ?_, ?_⟩
    · exact FileStore.locate_mono (wrote.current.trans grows.current)
        (fun place held => wrote.directories place (grows.find? held)) located
    · rw [wrote.other location fun file among here => apart file among (here ▸ located)]
      exact grows.find? found

/-- How writing a batch ended: the directory could not be created, or the files were written up to
the first that failed. -/
def EndsWriting (directory : Path) (home : Location) (name : String) (batch : Batch)
    (written : List ResultFile) (before after : FileStore) (error : Option Error) : Prop :=
  (∃ fault, (before.createDirectories directory).2 = .error fault ∧ written = [] ∧
    error = some (.access directory (.file fault))) ∨
  (before.createDirectories directory).2 = .ok () ∧
    (directory ≠ "" ∨ written ≠ [] →
      after.LeadsTo (after.start directory) directory.segments home) ∧
    ∃ rest, [.csv, .json, .report] = written ++ rest ∧
      (rest = [] ∧ error = none ∨
        ∃ file others fault, rest = file :: others ∧
          after.writeFile (file.path directory name) (file.contents batch).toUTF8 =
            .error fault ∧
          error = some (file.failure (file.path directory name) fault))

theorem EndsWriting.error_eq_none {error : Option Error}
    (ends : EndsWriting directory home name batch written before after error) :
    error = none ↔ written = [.csv, .json, .report] := by
  rcases ends with ⟨fault, _, nothing, failed⟩ | ⟨_, _, rest, files, ended⟩
  · simp [nothing, failed]
  · rcases ended with ⟨done, succeeded⟩ | ⟨file, others, fault, remaining, _, failed⟩
    · simp [files, done, succeeded]
    · simp [files, remaining, failed]

/-- A batch with an accepted name is written where its directory is. -/
theorem writeBatch_outputOnly (directory : Path) (batch : Batch) (store : FileStore)
    (accepted : checkOutputName name = .ok ()) :
    ∃ written home,
      OutputOnly directory home name batch written store
        ((writeBatch directory name batch : StateM FileStore (Except Error Unit)).run store).2 ∧
      EndsWriting directory home name batch written store
        ((writeBatch directory name batch : StateM FileStore (Except Error Unit)).run store).2
        (stepFault? ((writeBatch directory name batch :
          StateM FileStore (Except Error Unit)).run store).1) := by
  have grows := @FileStore.createDirectories_grows store directory
  have leads := @FileStore.createDirectories_leads store directory
  simp only [EndsWriting]
  rw [writeBatch_run accepted]
  generalize store.createDirectories directory = attempt at grows leads ⊢
  obtain ⟨made, outcome⟩ := attempt
  cases outcome with
  | error fault =>
      exact ⟨[], [], .of_wrote (fun _ => id) grows (.none made), .inl ⟨fault, rfl, rfl, rfl⟩⟩
  | ok done =>
      obtain ⟨home, walked, inside⟩ := leads rfl
      obtain ⟨written, rest, after, stored, files, wrote, entered, ended⟩ :=
        writeResults_run batch accepted (by decide : [.csv, .json, ResultFile.report].Nodup)
          (grows.start directory ▸ walked)
      dsimp only
      rw [stored]
      refine ⟨written, home, .of_wrote (fun _ => id) grows wrote,
        .inr ⟨rfl, fun reached => ?_, rest, files, ?_⟩⟩
      · have here : made.find? home = some .directory := reached.elim inside entered
        have start : after.start directory = store.start directory := by
          rw [FileStore.start, wrote.current]
          exact grows.start directory
        exact start ▸ FileStore.LeadsTo.mono wrote.directories ⟨walked, here⟩
      · rcases ended with ⟨all, done⟩ | ⟨file, others, fault, remaining, refused, failed⟩
        · exact .inl ⟨all, by rw [done]; rfl⟩
        · exact .inr ⟨file, others, fault, remaining, refused, by rw [failed]; rfl⟩

end Writing

/-- The outcome of a run on a store, and the store it leaves. -/
def Cli.runOn (options : Options) (store : FileStore) : Outcome × FileStore :=
  (run options : StateM FileStore Outcome).run store

/-- A run fails with the first fault of the steps before writing, and then the store is as it was;
or all of these steps succeed, and the results are written.  Then the output directory is created if
it is missing, and the files of one batch are written into it in their order, up to the first step
that fails, and nothing else is touched.  The run succeeds if and only if all three are written. -/
theorem run_writes_only_output (options : Cli.Options) (store : FileStore) :
    match Cli.firstFault? options store with
    | some error =>
        (Cli.runOn options store).1.error = some error ∧ (Cli.runOn options store).2 = store
    | none => ∃ queries profile, Cli.Prepared options store queries profile ∧
        ∃ written home,
          OutputOnly options.outputDirectory home options.outputName
            (profile.assessAll queries) written store (Cli.runOn options store).2 ∧
          EndsWriting options.outputDirectory home options.outputName
            (profile.assessAll queries) written store (Cli.runOn options store).2
            (Cli.runOn options store).1.error ∧
          ((Cli.runOn options store).1.error = none ↔ written = [.csv, .json, .report]) := by
  rw [Cli.runOn, Cli.firstFault?, Cli.faults, Cli.run_run]
  cases loaded : Cli.queriesIn options store with
  | error error => exact ⟨rfl, rfl⟩
  | ok queries =>
  cases read : Cli.weightsText options store with
  | error error => exact ⟨rfl, rfl⟩
  | ok text =>
  cases understood : Cli.weightsOf text with
  | error error =>
      have failed : (Except.ok text : Except Error (Option String)).bind Cli.weightsOf =
          .error error := understood
      rw [failed]
      exact ⟨rfl, rfl⟩
  | ok weights =>
  have given : (Except.ok text : Except Error (Option String)).bind Cli.weightsOf = .ok weights :=
    understood
  rw [given]
  cases named : Dialect.ofName? options.dialect with
  | none =>
      dsimp only
      rw [Cli.profileOf_unknown named]
      exact ⟨rfl, rfl⟩
  | some dialect =>
  obtain ⟨profile, found, same, dialectName⟩ := Cli.profileOf_known weights named
  dsimp only
  rw [found]
  obtain ⟨error, stored⟩ := Cli.finish_run options store
    [.loaded queries.length options.input] queries profile
  dsimp only
  rw [error, stored]
  cases accepted : checkOutputName options.outputName with
  | error fault =>
      rw [writeBatch_refused accepted]
      exact ⟨rfl, rfl⟩
  | ok done =>
      have prepared : Cli.Prepared options store queries profile :=
        ⟨loaded, by rw [read, given, same], dialectName, accepted⟩
      obtain ⟨written, home, only, ends⟩ := writeBatch_outputOnly options.outputDirectory
        (profile.assessAll queries) store accepted
      exact ⟨queries, profile, prepared, written, home, only, ends, ends.error_eq_none⟩

end SqlMetrics
