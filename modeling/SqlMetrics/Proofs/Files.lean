import Mathlib.Data.List.Basic
import SqlMetrics.Files.Store
import SqlMetrics.Proofs.Lookup

/-! # What an operation on files leaves alone

`Grows allowed before after` says that between two stores only directories were created, at allowed
locations where nothing was before.  Creating the directories of a path does no more than that
(`createDirectories_grows`), and if it succeeds the path leads to a directory.  A file that is
written changes one location, and a path that could be followed still leads to the same place. -/
set_option autoImplicit false
namespace SqlMetrics

namespace FileStore

variable {store before after : FileStore} {location other target : Location} {entry : Entry}

/-! ## Single entries -/

theorem find?_root : store.find? [] = some .directory :=
  rfl

theorem find?_put (inside : location ≠ []) :
    (store.put location entry).find? other =
      if other = location then some entry else store.find? other := by
  cases other with
  | nil => rw [if_neg (Ne.symm inside), find?_root, find?_root]
  | cons name rest =>
      simp only [find?, put, List.isEmpty_cons, Bool.false_eq_true, if_false, lookup_cons_eq]
      split_ifs with here
      · rfl
      · exact lookup_filter_ne here

theorem enter_eq_ok : store.enter location = .ok () ↔ store.find? location = some .directory := by
  rw [enter]
  split <;> simp_all

/-! ## Where a path leads -/

/-- The location that segments name, whatever is there. -/
def resolve (location : Location) : List String → Location
  | [] => location
  | segment :: rest =>
      if segment = "." then resolve location rest
      else if segment = ".." then resolve location.dropLast rest
      else resolve (location ++ [segment]) rest

theorem resolve_filter (segments : List String) :
    resolve location (segments.filter (· != ".")) = resolve location segments := by
  induction segments generalizing location with
  | nil => rfl
  | cons segment rest ih =>
      by_cases here : segment = "."
      · simp [here, resolve, ih]
      · simp [here, resolve, ih]

theorem resolve_components (path : Path) :
    resolve location path.components = resolve location path.segments := by
  rw [Path.components]
  split
  · rename_i first rest _ segments
    rw [segments, resolve, resolve]
    split_ifs <;> exact resolve_filter rest
  · exact resolve_filter _

theorem eq_resolve_of_walk {segments : List String}
    (walked : store.walk location segments = .ok target) : target = resolve location segments := by
  induction segments generalizing location with
  | nil => exact (Except.ok.inj walked).symm
  | cons segment rest ih =>
      rw [walk] at walked
      rw [resolve]
      split at walked
      · cases walked
      · split_ifs at walked ⊢
        · exact ih walked
        · exact ih walked
        · exact ih walked

theorem walk_mono {segments : List String}
    (kept : ∀ place, before.find? place = some .directory → after.find? place = some .directory)
    (walked : before.walk location segments = .ok target) :
    after.walk location segments = .ok target := by
  induction segments generalizing location with
  | nil => exact walked
  | cons segment rest ih =>
      rw [walk] at walked ⊢
      split at walked
      · cases walked
      · rename_i entered
        rw [enter_eq_ok.mpr (kept location (enter_eq_ok.mp entered))]
        dsimp only
        split_ifs at walked ⊢
        · exact ih walked
        · exact ih walked
        · exact ih walked

theorem walk_append (front behind : List String) :
    store.walk location (front ++ behind) =
      match store.walk location front with
      | .error fault => .error fault
      | .ok place => store.walk place behind := by
  induction front generalizing location with
  | nil => rfl
  | cons segment rest ih =>
      rw [List.cons_append, walk, walk]
      split
      · rfl
      · split_ifs
        · exact ih
        · exact ih
        · rfl
        · exact ih

/-! ## Directories that are created -/

/-- Only directories were created, at allowed locations where nothing was. -/
structure Grows (allowed : Location → Prop) (before after : FileStore) : Prop where
  current : after.current = before.current
  entry : ∀ location, after.find? location = before.find? location ∨
    before.find? location = none ∧ after.find? location = some .directory ∧ allowed location

namespace Grows

variable {allowed wider : Location → Prop}

theorem refl (store : FileStore) : Grows allowed store store :=
  ⟨rfl, fun _ => .inl rfl⟩

theorem trans {between : FileStore} (first : Grows allowed before between)
    (second : Grows allowed between after) : Grows allowed before after where
  current := second.current.trans first.current
  entry := by
    intro location
    rcases second.entry location with same | ⟨missing, made, permitted⟩
    · rw [same]
      exact first.entry location
    · refine .inr ⟨?_, made, permitted⟩
      rcases first.entry location with same | ⟨absent, _, _⟩
      · rw [← same, missing]
      · exact absent

theorem mono (grows : Grows allowed before after) (more : ∀ location, allowed location →
    wider location) : Grows wider before after where
  current := grows.current
  entry := fun location => (grows.entry location).imp id
    fun ⟨missing, made, permitted⟩ => ⟨missing, made, more location permitted⟩

theorem find? (grows : Grows allowed before after) (held : before.find? location = some entry) :
    after.find? location = some entry := by
  rcases grows.entry location with same | ⟨missing, _, _⟩
  · rw [same, held]
  · rw [held] at missing
    cases missing

theorem start (grows : Grows allowed before after) (path : Path) :
    after.start path = before.start path := by
  rw [FileStore.start, FileStore.start, grows.current]

end Grows

variable {segments above : List String}

theorem makeDirectory_eq_ok (made : store.makeDirectory location segments = .ok after) :
    ∃ place, store.walk location segments = .ok place ∧ store.find? place = none ∧
      after = store.put place .directory := by
  rw [makeDirectory] at made
  split at made
  · cases made
  · rename_i place walked
    split at made
    · cases made
    · cases made
    · rename_i missing
      exact ⟨place, walked, missing, (Except.ok.inj made).symm⟩

theorem put_grows (missing : store.find? location = none) :
    Grows (· = location) store (store.put location .directory) where
  current := rfl
  entry := by
    intro other
    have inside : location ≠ [] := by
      rintro rfl
      cases missing
    rw [find?_put inside]
    split
    · rename_i here
      exact .inr ⟨here ▸ missing, rfl, here⟩
    · exact .inl rfl

theorem makeDirectory_grows (made : store.makeDirectory location segments = .ok after) :
    Grows (· = resolve location segments) store after := by
  obtain ⟨place, walked, missing, rfl⟩ := makeDirectory_eq_ok made
  rw [← eq_resolve_of_walk walked]
  exact put_grows missing

/-- Segments lead to a directory. -/
def LeadsTo (store : FileStore) (location : Location) (segments : List String)
    (home : Location) : Prop :=
  store.walk location segments = .ok home ∧ store.find? home = some .directory

theorem LeadsTo.mono {home : Location}
    (kept : ∀ place, before.find? place = some .directory → after.find? place = some .directory)
    (leads : before.LeadsTo location segments home) : after.LeadsTo location segments home :=
  ⟨walk_mono kept leads.1, kept home leads.2⟩

theorem makeDirectory_leads (made : store.makeDirectory location segments = .ok after) :
    ∃ home, after.LeadsTo location segments home := by
  have grows := makeDirectory_grows made
  obtain ⟨place, walked, missing, rfl⟩ := makeDirectory_eq_ok made
  refine ⟨place, walk_mono (fun _ => grows.find?) walked, ?_⟩
  rw [find?_put (by rintro rfl; cases missing), if_pos rfl]

theorem leads_of_leadsToDirectory (leads : store.leadsToDirectory location segments = true) :
    ∃ home, store.LeadsTo location segments home := by
  rw [leadsToDirectory] at leads
  split at leads
  · cases leads
  · rename_i home walked
    refine ⟨home, walked, ?_⟩
    rw [enter] at leads
    split at leads
    · cases leads
    · cases leads
    · assumption

/-- Directories may be created where segments lead, and where a beginning of those above leads. -/
def OnTheWay (location : Location) (segments above : List String) (place : Location) : Prop :=
  place = resolve location segments ∨ ∃ front, front <+: above ∧ place = resolve location front

theorem parent_grows {around : List String} {made : FileStore × Except FileFault Unit}
    (within : around <+: above) (grows : Grows (OnTheWay location around around) store made.1) :
    Grows (OnTheWay location segments above) store
      (if around = [] then (store, .ok ()) else made).1 := by
  split
  · exact Grows.refl store
  · refine grows.mono fun place permitted => .inr ?_
    rcases permitted with here | ⟨front, earlier, here⟩
    · exact ⟨around, within, here⟩
    · exact ⟨front, earlier.trans within, here⟩

theorem makeDirectories_grows :
    Grows (OnTheWay location segments above) store
      (store.makeDirectories location segments above).1 := by
  have here {between changed : FileStore} {segments above : List String}
      (made : between.makeDirectory location segments = .ok changed) :
      Grows (OnTheWay location segments above) between changed :=
    (makeDirectory_grows made).mono fun _ => .inl
  fun_induction makeDirectories store location segments above with
  | case1 _ _ _ made => exact here made
  | case2 => exact Grows.refl store
  | case3 => exact Grows.refl store
  | case4 _ _ _ _ top rest around parent _ _ ih =>
      exact parent_grows (List.dropLast_prefix _) ih
  | case5 _ _ _ _ top rest around parent _ _ made ih =>
      exact (parent_grows (List.dropLast_prefix _) ih).trans (here made)
  | case6 _ _ _ _ top rest around parent _ _ _ ih =>
      exact parent_grows (List.dropLast_prefix _) ih

theorem makeDirectories_leads
    (made : (store.makeDirectories location segments above).2 = .ok ()) :
    ∃ home, (store.makeDirectories location segments above).1.LeadsTo location segments home := by
  have there {between : FileStore} {fault : FileFault}
      (made : (if between.leadsToDirectory location segments then .ok () else .error fault :
        Except FileFault Unit) = .ok ()) : ∃ home, between.LeadsTo location segments home := by
    split at made
    · exact leads_of_leadsToDirectory ‹_›
    · cases made
  revert made
  fun_cases makeDirectories store location segments above with
  | case1 _ _ made => exact fun _ => makeDirectory_leads made
  | case2 => exact there
  | case3 => intro made; cases made
  | case4 => intro made; cases made
  | case5 _ _ _ _ _ _ _ _ _ made => exact fun _ => makeDirectory_leads made
  | case6 => exact there

theorem createDirectories_grows (path : Path) :
    Grows (fun place => ∃ front, front <+: path.components ∧
        place = resolve (store.start path) front)
      store (store.createDirectories path).1 := by
  rw [createDirectories]
  split
  · exact Grows.refl store
  · split
    · exact Grows.refl store
    · refine makeDirectories_grows.mono fun place permitted => ?_
      rcases permitted with here | above
      · exact ⟨path.components, List.prefix_refl _, here.trans (resolve_components path).symm⟩
      · exact above

theorem createDirectories_leads {path : Path} (made : (store.createDirectories path).2 = .ok ()) :
    ∃ home, (store.createDirectories path).1.walk (store.start path) path.segments = .ok home ∧
      (path ≠ "" → (store.createDirectories path).1.find? home = some .directory) := by
  rw [createDirectories] at made ⊢
  split at made
  · rename_i empty
    obtain rfl : path = "" := by simpa using empty
    rw [if_pos empty]
    exact ⟨_, rfl, fun filled => absurd rfl filled⟩
  · rename_i filled
    rw [if_neg filled]
    split at made
    · cases made
    · obtain ⟨home, walked, there⟩ := makeDirectories_leads made
      exact ⟨home, walked, fun _ => there⟩

end FileStore

/-! ## A name in a directory -/

section Pieces
variable {mark : Char} {text : List Char}

theorem piecesBetween_append (behind : List Char) :
    piecesBetween mark (text ++ mark :: behind) =
      piecesBetween mark text ++ piecesBetween mark behind := by
  rw [piecesBetween, List.splitOn_append_cons_self, List.filter_append]
  rfl

theorem piecesBetween_of_not_mem (whole : mark ∉ text) (filled : text ≠ []) :
    piecesBetween mark text = [text] := by
  rw [piecesBetween, List.splitOn_eq_singleton whole]
  simp [filled]

end Pieces

namespace Path

/-- A file name: not empty, without slashes, and neither of the two that stand for directories. -/
structure IsName (name : String) : Prop where
  filled : name ≠ ""
  whole : '/' ∉ name.toList
  notHere : name ≠ "."
  notAbove : name ≠ ".."

variable {directory : Path} {name : String}

theorem toList_ne_nil (filled : name ≠ "") : name.toList ≠ [] := by
  intro empty
  exact filled (String.toList_injective empty)

theorem toList_join (directory : Path) (name : String) :
    (join directory name).toList = directory.toList ++ name.toList ∧
      (directory = "" ∨ ∃ front, directory.toList = front ++ ['/']) ∨
    (join directory name).toList = directory.toList ++ '/' :: name.toList ∧ directory ≠ "" := by
  rw [join]
  split
  · rename_i ended
    refine .inl ⟨String.toList_append, ?_⟩
    rcases Bool.or_eq_true _ _ |>.mp ended with empty | slash
    · exact .inl (by simpa using empty)
    · exact .inr (List.getLast?_eq_some_iff.mp (of_decide_eq_true slash))
  · rename_i open'
    refine .inr ⟨by simp, ?_⟩
    rintro rfl
    exact open' rfl

theorem segments_join (isName : IsName name) :
    (join directory name).segments = directory.segments ++ [name] := by
  have alone : piecesBetween '/' name.toList = [name.toList] :=
    piecesBetween_of_not_mem isName.whole (toList_ne_nil isName.filled)
  have pieces : piecesBetween '/' (join directory name).toList =
      piecesBetween '/' directory.toList ++ [name.toList] := by
    rcases toList_join directory name with ⟨joined, rfl | ⟨front, slash⟩⟩ | ⟨joined, -⟩
    · rw [joined]
      exact alone
    · have noPieces : piecesBetween '/' [] = [] := rfl
      rw [joined, slash, List.append_assoc, List.singleton_append, piecesBetween_append,
        piecesBetween_append, alone, noPieces, List.append_nil]
    · rw [joined, piecesBetween_append, alone]
  rw [segments, pieces, List.map_append, List.map_singleton, String.ofList_toList]
  rfl

theorem steps_join (isName : IsName name) :
    FileStore.steps (join directory name) = directory.segments ++ [name] := by
  obtain ⟨front, joined⟩ : ∃ front, (join directory name).toList = front ++ name.toList := by
    rcases toList_join directory name with ⟨joined, -⟩ | ⟨joined, -⟩
    · exact ⟨_, joined⟩
    · exact ⟨directory.toList ++ ['/'], by rw [joined, List.append_assoc]; rfl⟩
  have last : (join directory name).endsInSlash = false := by
    rw [endsInSlash, joined, List.getLast?_append_of_ne_nil _ (toList_ne_nil isName.filled)]
    refine decide_eq_false fun slash => isName.whole (List.mem_of_getLast? slash)
  rw [FileStore.steps, last, if_neg Bool.false_ne_true, segments_join isName]

theorem isAbsolute_join (isName : IsName name) :
    (join directory name).isAbsolute = directory.isAbsolute := by
  rw [isAbsolute, isAbsolute]
  by_cases empty : directory = ""
  · subst empty
    rcases toList_join "" name with ⟨joined, -⟩ | ⟨-, filled⟩
    · rw [joined]
      refine decide_eq_decide.mpr ⟨fun slash => ?_, fun slash => by cases slash⟩
      exact absurd (List.mem_of_head? slash) isName.whole
    · exact absurd rfl filled
  · have head (behind : List Char) :
        (directory.toList ++ behind).head? = directory.toList.head? :=
      List.head?_append_of_ne_nil _ (toList_ne_nil empty)
    rcases toList_join directory name with ⟨joined, -⟩ | ⟨joined, -⟩ <;> rw [joined, head]

end Path

namespace FileStore

variable {store before after : FileStore} {directory : Path} {name : String} {home : Location}
  {contents : ByteArray}

/-- A file with a name in a directory is written right below the directory, where no directory may
be. -/
theorem writeFile_join (isName : Path.IsName name)
    (there : store.walk (store.start directory) directory.segments = .ok home)
    (written : store.writeFile (Path.join directory name) contents = .ok after) :
    store.find? home = some .directory ∧ store.find? (home ++ [name]) ≠ some .directory ∧
      after = store.put (home ++ [name]) (.file contents) := by
  have start : store.start (Path.join directory name) = store.start directory := by
    rw [FileStore.start, FileStore.start, Path.isAbsolute_join isName]
  rw [writeFile] at written
  split at written
  · cases written
  · rename_i location located
    obtain ⟨inside, rfl⟩ : store.find? home = some .directory ∧ location = home ++ [name] := by
      rw [locate, start, Path.steps_join isName, walk_append, there] at located
      split at located
      · cases located
      · split at located
        · cases located
        · dsimp only [walk] at located
          rw [if_neg isName.notHere, if_neg isName.notAbove] at located
          split at located
          · cases located
          · rename_i entered
            split at located
            · cases located
            · exact ⟨enter_eq_ok.mp entered, (Except.ok.inj located).symm⟩
    split at written
    · cases written
    · cases written
    · rename_i noDirectory
      exact ⟨inside, noDirectory, (Except.ok.inj written).symm⟩

theorem find?_put_file (noDirectory : store.find? (home ++ [name]) ≠ some .directory)
    {place : Location} (held : store.find? place = some .directory) :
    (store.put (home ++ [name]) (.file contents)).find? place = some .directory := by
  rw [find?_put (by simp)]
  split
  · rename_i here
    exact absurd (here ▸ held) noDirectory
  · exact held

theorem readFile_eq_ok {path : Path} : store.readFile path = .ok contents ↔
    ∃ location, store.locate path = .ok location ∧
      store.find? location = some (.file contents) := by
  rw [readFile]
  cases store.locate path with
  | error fault => simp
  | ok location =>
      dsimp only
      split <;> simp_all

theorem locate_mono {path : Path} {location : Location} (current : after.current = before.current)
    (kept : ∀ place, before.find? place = some .directory → after.find? place = some .directory)
    (located : before.locate path = .ok location) : after.locate path = .ok location := by
  have start : after.start path = before.start path := by
    rw [FileStore.start, FileStore.start, current]
  rw [locate] at located ⊢
  split at located
  · cases located
  · split at located
    · cases located
    · rename_i filled
      rw [if_neg filled, start]
      exact walk_mono kept located

end FileStore

end SqlMetrics
