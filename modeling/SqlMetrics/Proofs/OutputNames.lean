import Mathlib.Data.List.Nodup
import Mathlib.Data.List.TakeWhile
import SqlMetrics.Proofs.Runs

/-! # Names of output files

A name is refused for the first of four faults that it has (`checkOutputName_eq_error`), and what
has none of them is a plain name: together the four tests ask for a character that is not white
space, no slash of either kind, and a name other than `..` (`checkOutputName_eq_ok`).  The files of
an accepted name lie right in the output directory (`output_stays_in_directory`). -/
set_option autoImplicit false
namespace SqlMetrics

/-! ## Segments of a path -/

section Pieces
variable {mark : Char} {text piece : List Char}

theorem mem_splitOn : piece ∈ text.splitOn mark ↔ mark ∉ piece ∧
    ∃ front behind, text = front ++ (piece ++ behind) ∧
      (front = [] ∨ ∃ more, front = more ++ [mark]) ∧
      (behind = [] ∨ ∃ more, behind = mark :: more) := by
  constructor
  · intro among
    generalize size : text.length = bound
    induction bound using Nat.strongRecOn generalizing text with
    | ind bound ih =>
      by_cases marked : mark ∈ text
      · obtain ⟨first, rest, rfl, whole⟩ := List.eq_append_cons_of_mem marked
        rw [List.splitOn_append_cons_self_of_not_mem whole] at among
        rcases List.mem_cons.mp among with rfl | later
        · exact ⟨whole, [], mark :: rest, rfl, .inl rfl, .inr ⟨rest, rfl⟩⟩
        · have shorter : rest.length < bound := by
            rw [List.length_append, List.length_cons] at size
            omega
          obtain ⟨apart, front, behind, rfl, starts, ends⟩ := ih rest.length shorter later rfl
          refine ⟨apart, first ++ mark :: front, behind, by simp, .inr ?_, ends⟩
          rcases starts with rfl | ⟨more, rfl⟩
          · exact ⟨first, rfl⟩
          · exact ⟨first ++ mark :: more, by simp⟩
      · rw [List.splitOn_eq_singleton marked, List.mem_singleton] at among
        rw [among]
        exact ⟨marked, [], [], by simp, .inl rfl, .inl rfl⟩
  · rintro ⟨whole, front, behind, rfl, starts, ends⟩
    have alone : piece.splitOn mark = [piece] := List.splitOn_eq_singleton whole
    have here : piece ∈ (piece ++ behind).splitOn mark := by
      rcases ends with rfl | ⟨more, rfl⟩
      · rw [List.append_nil, alone]
        exact List.mem_singleton_self piece
      · rw [List.splitOn_append_cons_self_of_not_mem whole]
        exact List.mem_cons_self
    rcases starts with rfl | ⟨more, rfl⟩
    · exact here
    · rw [List.append_assoc, List.singleton_append, List.splitOn_append_cons_self]
      exact List.mem_append_right _ here

end Pieces

namespace Path

variable {path directory : Path} {name : String}

theorem mem_segments (filled : name ≠ "") :
    name ∈ path.segments ↔ name.toList ∈ path.toList.splitOn '/' := by
  rw [segments, piecesBetween, List.mem_map]
  constructor
  · rintro ⟨piece, among, rfl⟩
    rw [String.toList_ofList]
    exact (List.mem_filter.mp among).1
  · intro among
    refine ⟨name.toList, List.mem_filter.mpr ⟨among, ?_⟩, String.ofList_toList⟩
    simpa using filled

theorem mem_components (other : name ≠ ".") : name ∈ path.components ↔ name ∈ path.segments := by
  rw [components]
  split
  · rename_i first rest _ segments
    simp [segments, other]
  · simp [other]

theorem components_join (isName : IsName name) :
    (join directory name).components = directory.components ++ [name] := by
  have kept : [name].filter (· != ".") = [name] :=
    List.filter_eq_self.mpr (by simpa using isName.notHere)
  rw [components, components, isAbsolute_join isName, segments_join isName]
  cases directory.isAbsolute with
  | true =>
      dsimp only
      rw [List.filter_append, kept]
  | false =>
      cases directory.segments with
      | nil => rfl
      | cons first rest =>
          rw [List.cons_append]
          dsimp only
          rw [List.filter_append, kept, List.cons_append]

theorem join_injective {other : String} (same : join directory name = join directory other) :
    name = other := by
  rw [join, join] at same
  split at same
  · exact String.append_right_inj _ |>.mp same
  · exact String.append_right_inj _ |>.mp same

end Path

/-! ## The four tests -/

theorem isEmpty_trimBlank {text : List Char} :
    (trimBlank text).isEmpty = true ↔ ∀ c ∈ text, isBlank c = true := by
  rw [trimBlank, List.isEmpty_iff, List.reverse_eq_nil_iff, List.dropWhile_eq_nil_iff]
  simp only [List.mem_reverse]
  constructor
  · intro all
    cases visible : text.dropWhile isBlank with
    | nil => exact List.dropWhile_eq_nil_iff.mp visible
    | cons first rest =>
        have stopped := List.head?_dropWhile_not isBlank text
        rw [visible] at all stopped
        have blank := all first List.mem_cons_self
        simp [blank] at stopped
  · intro all c among
    exact all c ((List.dropWhile_sublist isBlank).subset among)

namespace NameFault

/-- A name has what this fault is about. -/
def AppliesTo (name : String) : NameFault → Prop
  | .blank => ∀ c ∈ name.toList, isBlank c = true
  | .absolute => name.toList.head? = some '/'
  | .traversal => ∃ front behind, name.toList = front ++ ('.' :: '.' :: behind) ∧
      (front = [] ∨ ∃ more, front = more ++ ['/']) ∧ (behind = [] ∨ ∃ more, behind = '/' :: more)
  | .separator => '/' ∈ name.toList ∨ '\\' ∈ name.toList

/-- All faults in the order in which a name is tested for them. -/
def order : List NameFault :=
  [.blank, .absolute, .traversal, .separator]

def test (name : String) : NameFault → Bool
  | .blank => (trimBlank name.toList).isEmpty
  | .absolute => Path.isAbsolute name
  | .traversal => (Path.components name).contains ".."
  | .separator => name.toList.contains '/' || name.toList.contains '\\'

theorem test_iff (name : String) (fault : NameFault) :
    fault.test name = true ↔ fault.AppliesTo name := by
  cases fault with
  | blank => exact isEmpty_trimBlank
  | absolute => exact decide_eq_true_iff
  | traversal =>
      rw [test, List.contains_iff_mem, Path.mem_components (by decide),
        Path.mem_segments (by decide), mem_splitOn]
      have whole : '/' ∉ "..".toList := by decide
      exact and_iff_right whole
  | separator => simp [test, AppliesTo]

/-- The fault is the first one that the name has. -/
def IsFirst (name : String) (fault : NameFault) : Prop :=
  fault.AppliesTo name ∧ ∃ front behind, order = front ++ fault :: behind ∧
    ∀ earlier ∈ front, ¬ earlier.AppliesTo name

end NameFault

open NameFault

variable {name : String}

theorem checkOutputName_eq (name : String) : checkOutputName name =
    match order.find? (test name) with
    | none => .ok ()
    | some fault => .error fault := by
  have tested : checkOutputName name =
      if test name .blank then .error .blank
      else if test name .absolute then .error .absolute
      else if test name .traversal then .error .traversal
      else if test name .separator then .error .separator
      else .ok () := rfl
  rw [tested]
  simp only [order, List.find?_cons, List.find?_nil]
  cases test name .blank <;> cases test name .absolute <;> cases test name .traversal <;>
    cases test name .separator <;> rfl

theorem checkOutputName_eq_error {fault : NameFault} :
    checkOutputName name = .error fault ↔ fault.IsFirst name := by
  have found : checkOutputName name = .error fault ↔ order.find? (test name) = some fault := by
    rw [checkOutputName_eq]
    cases order.find? (test name) <;> simp
  rw [found, List.find?_eq_some_iff_append, IsFirst, test_iff]
  simp only [Bool.not_eq_true', ← Bool.not_eq_true, test_iff]

theorem checkOutputName_eq_ok : checkOutputName name = .ok () ↔
    (∃ c ∈ name.toList, isBlank c = false) ∧ '/' ∉ name.toList ∧ '\\' ∉ name.toList ∧
      name ≠ ".." := by
  have passed : checkOutputName name = .ok () ↔ ∀ fault ∈ order, ¬ fault.AppliesTo name := by
    rw [checkOutputName_eq]
    cases found : order.find? (test name) with
    | none =>
        have passes := List.find?_eq_none.mp found
        simpa [test_iff] using passes
    | some fault =>
        have applies := (test_iff name fault).mp (List.find?_some found)
        simpa using ⟨fault, List.mem_of_find?_eq_some found, applies⟩
  rw [passed]
  constructor
  · intro passes
    have visible := passes .blank (by decide)
    have between := passes .traversal (by decide)
    have plain := passes .separator (by decide)
    simp only [AppliesTo, not_forall, Bool.not_eq_true] at visible
    obtain ⟨c, among, shown⟩ := visible
    refine ⟨⟨c, among, shown⟩, fun slash => plain (.inl slash), fun slash => plain (.inr slash), ?_⟩
    rintro rfl
    exact between ⟨[], [], rfl, .inl rfl, .inl rfl⟩
  · rintro ⟨⟨c, among, visible⟩, noSlash, noBackslash, other⟩ fault - applies
    cases fault with
    | blank =>
        rw [applies c among] at visible
        cases visible
    | absolute => exact noSlash (List.mem_of_head? applies)
    | traversal =>
        -- Without a slash the two points have nothing before or behind them.
        obtain ⟨front, behind, text, starts, ends⟩ := applies
        rcases starts with rfl | ⟨more, rfl⟩
        · rcases ends with rfl | ⟨more, rfl⟩
          · exact other (String.toList_injective text)
          · exact noSlash (by simp [text])
        · exact noSlash (by simp [text])
    | separator => exact applies.elim noSlash noBackslash

/-- A name is accepted if it has a character that is not white space, no slash of either kind, and
is not `..`.  Then the three files have different paths, each with one component more than the
output directory, which is a plain name.  Any other name is refused for the first fault that it has,
and nothing is written. -/
theorem output_stays_in_directory (name : String) :
    (checkOutputName name = .ok () ↔ (∃ c ∈ name.toList, isBlank c = false) ∧
      '/' ∉ name.toList ∧ '\\' ∉ name.toList ∧ name ≠ "..") ∧
    (checkOutputName name = .ok () → ∀ directory : Path,
      ([ResultFile.csv, .json, .report].map (·.path directory name)).Nodup ∧
      ∀ file : ResultFile, Path.IsName (file.fileName name) ∧
        (file.path directory name).isAbsolute = directory.isAbsolute ∧
        (file.path directory name).components =
          directory.components ++ [file.fileName name]) ∧
    (∀ fault, checkOutputName name = .error fault ↔ fault.IsFirst name) ∧
    ∀ fault, checkOutputName name = .error fault → ∀ directory batch (store : FileStore),
      (writeBatch directory name batch : StateM FileStore (Except Error Unit)).run store =
        (.error (.outputName name fault), store) := by
  refine ⟨checkOutputName_eq_ok, ?_, fun fault => checkOutputName_eq_error, ?_⟩
  · intro accepted directory
    refine ⟨?_, fun file => ?_⟩
    · refine List.Nodup.map_on ?_ (by decide : [ResultFile.csv, .json, .report].Nodup)
      intro file _ other _ same
      exact fileName_injective (Path.join_injective same)
    · have isName := isName_fileName accepted file
      exact ⟨isName, Path.isAbsolute_join isName, Path.components_join isName⟩
  · intro fault refused directory batch store
    rw [writeBatch, refused]
    rfl

/-- A name of three points is a plain one, and below the root its files have one component. -/
theorem output_of_three_points : checkOutputName "..." = .ok () ∧
    (ResultFile.csv.path "/" "...").components = ["..._analysis.csv"] ∧
    checkOutputName "a/../b" = .error .traversal := by
  have accepted : checkOutputName "..." = .ok () :=
    (output_stays_in_directory "...").1.mpr ⟨⟨'.', by decide, by decide⟩, by decide, by decide,
      by decide⟩
  have contained := ((output_stays_in_directory "...").2.1 accepted "/").2 .csv
  have first : NameFault.traversal.IsFirst "a/../b" := by
    refine ⟨⟨['a', '/'], ['/', 'b'], rfl, .inr ⟨['a'], rfl⟩, .inr ⟨['b'], rfl⟩⟩,
      [.blank, .absolute], [.separator], rfl, ?_⟩
    intro earlier among applies
    simp only [List.mem_cons, List.not_mem_nil, or_false] at among
    rcases among with rfl | rfl
    · exact absurd (applies 'a' (by decide)) (by decide)
    · exact absurd applies (by decide : ¬ "a/../b".toList.head? = some '/')
  have refused := ((output_stays_in_directory "a/../b").2.2.1 .traversal).mpr first
  exact ⟨accepted, contained.2.2.trans (by decide), refused⟩

end SqlMetrics
