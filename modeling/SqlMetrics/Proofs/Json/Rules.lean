import Mathlib.Tactic.SplitIfs
import SqlMetrics.Json.Document

/-! # Rules for reading a document

What the reader of JSON texts yields on a text that is put together from complete parts: one rule
for each kind of value (`Reads.array`, `Reads.object`, `Reads.text`, `Reads.number`, `Reads.null`),
and rules for the items of an array and the members of an object, which may stand apart by white
space (`ReadsItems.cons`, `ReadsMembers.cons`). -/
set_option autoImplicit false
namespace SqlMetrics
namespace Document

variable {input behind more further rest : List Char} {document value : Document} {first : Bool}
  {items : List Document} {members : List Member} {name : String}
  {c : Char} {size : Nat}

/-- A complete value is read, and what follows it. -/
def Reads (input : List Char) (document : Document) (rest : List Char) : Prop :=
  (readValue input).1 = document ∧ (readValue input).2.map (·.1) = some rest

/-- The items of an array are read up to the closing bracket, and what follows it. -/
def ReadsItems (first : Bool) (input : List Char) (items : List Document) (rest : List Char) :
    Prop :=
  (readItems first input).1 = (items, none) ∧ (readItems first input).2.map (·.1) = some rest

/-- The members of an object are read up to the closing brace, and what follows it. -/
def ReadsMembers (first : Bool) (input : List Char)
    (members : List Member) (rest : List Char) : Prop :=
  (readMembers first input).1 = (members, none) ∧
    (readMembers first input).2.map (·.1) = some rest

theorem widen_map {inner outer : List Char} (shorter : inner.length ≤ outer.length)
    (remaining : Remaining inner) :
    (remaining.widen shorter).map (·.1) = remaining.map (·.1) := by
  cases remaining <;> rfl

/-! ## White space -/

theorem skipSpace_append {space : List Char} (blank : ∀ c ∈ space, isSpace c) :
    skipSpace (space ++ input) = skipSpace input := by
  rw [skipSpace, skipSpace, List.dropWhile_append_of_pos blank]

theorem skipSpace_cons (visible : isSpace c = false) : skipSpace (c :: more) = c :: more := by
  rw [skipSpace, List.dropWhile_cons, visible]
  rfl

/-! ## Values -/

/-- The scalar that a character and the text behind it begin with, and its size without the first
character. -/
def scalarAt (c : Char) (rest : List Char) : Document × Option Nat :=
  if c = '\x22' then readText rest
  else if c = 'n' then readWord .null ['u', 'l', 'l'] rest
  else if c = 't' then readWord (.bool true) ['r', 'u', 'e'] rest
  else if c = 'f' then readWord (.bool false) ['a', 'l', 's', 'e'] rest
  else if c = '-' || c.isDigit then
    let number := readNumber (c :: rest)
    (number.1, number.2.map (· - 1))
  else (.broken (.both .malformed), none)

def valueAt : List Char → Document × Option (List Char)
  | [] => (.broken (.both .cutShort), none)
  | c :: rest =>
      if c = '[' then
        (.array (readItems true rest).1.1 (readItems true rest).1.2,
          (readItems true rest).2.map (·.1))
      else if c = '\x7b' then
        (.object (readMembers true rest).1.1 (readMembers true rest).1.2,
          (readMembers true rest).2.map (·.1))
      else ((scalarAt c rest).1, (scalarAt c rest).2.map fun size => rest.drop size)

theorem scalar_eq (nonempty : c :: rest ≠ []) (read : Document × Option Nat) :
    ((scalar (c :: rest) nonempty read).1, (scalar (c :: rest) nonempty read).2.map (·.1)) =
      (read.1, read.2.map fun size => rest.drop size) := by
  obtain ⟨document, size⟩ := read
  cases size <;> rfl

theorem readValue_eq : ((readValue input).1, (readValue input).2.map (·.1)) =
    valueAt (skipSpace input) := by
  rw [readValue]
  split
  · rename_i nothing
    rw [nothing]
    rfl
  · rename_i c rest spaced
    refine Eq.trans ?_ (congrArg valueAt spaced.symm)
    rw [valueAt]
    by_cases array : c = '['
    · rw [if_pos array, if_pos array]
      dsimp only
      rw [widen_map]
    · by_cases object : c = '\x7b'
      · rw [if_neg array, if_neg array, if_pos object, if_pos object]
        dsimp only
        rw [widen_map]
      · rw [if_neg array, if_neg array, if_neg object, if_neg object, scalarAt]
        dsimp only
        rw [widen_map]
        split_ifs <;> first | exact scalar_eq _ _ | rfl

theorem reads_iff : Reads input document rest ↔
    valueAt (skipSpace input) = (document, some rest) := by
  rw [← readValue_eq, Prod.mk.injEq, Reads]

theorem Reads.spaced {space : List Char} (blank : ∀ c ∈ space, isSpace c)
    (read : Reads input document rest) : Reads (space ++ input) document rest := by
  rw [reads_iff] at read ⊢
  rw [skipSpace_append blank, read]

theorem Reads.array (opened : skipSpace input = '[' :: more)
    (read : ReadsItems true more items rest) : Reads input (.array items none) rest := by
  rw [reads_iff, opened, valueAt, if_pos rfl, read.1, read.2]

theorem Reads.object (opened : skipSpace input = '\x7b' :: more)
    (read : ReadsMembers true more members rest) : Reads input (.object members none) rest := by
  rw [reads_iff, opened, valueAt, if_neg (by decide), if_pos rfl, read.1, read.2]

theorem Reads.scalar (starts : skipSpace input = c :: more) (single : c ≠ '[' ∧ c ≠ '\x7b')
    (read : scalarAt c more = (document, some size)) :
    Reads input document (more.drop size) := by
  rw [reads_iff, starts, valueAt, if_neg single.1, if_neg single.2, read]
  rfl

theorem Reads.text {text : Except JsonFault String} (opened : skipSpace input = '\x22' :: more)
    (read : readText more = (.text text, some size)) : Reads input (.text text) (more.drop size) :=
  .scalar opened (by decide) read

theorem Reads.null (starts : skipSpace input = 'n' :: 'u' :: 'l' :: 'l' :: rest) :
    Reads input .null rest :=
  .scalar starts (by decide) rfl

theorem Reads.trueWord (starts : skipSpace input = 't' :: 'r' :: 'u' :: 'e' :: rest) :
    Reads input (.bool true) rest :=
  .scalar starts (by decide) rfl

theorem Reads.falseWord (starts : skipSpace input = 'f' :: 'a' :: 'l' :: 's' :: 'e' :: rest) :
    Reads input (.bool false) rest :=
  .scalar starts (by decide) rfl

theorem Reads.number {numeral : Numeral} (starts : skipSpace input = c :: more)
    (numeric : c = '-' ∨ c.isDigit)
    (read : readNumber (c :: more) = (.number numeral, some (size + 1))) :
    Reads input (.number numeral) (more.drop size) := by
  have other {d : Char} (plain : ¬(d = '-' ∨ d.isDigit)) : c ≠ d := by
    rintro rfl
    exact plain numeric
  refine .scalar starts ⟨other (by decide), other (by decide)⟩ ?_
  rw [scalarAt, if_neg (other (by decide)), if_neg (other (by decide)), if_neg (other (by decide)),
    if_neg (other (by decide)), if_pos (by simpa using numeric), read]
  rfl

/-- A text that begins with a complete value and has nothing behind it is read as that value. -/
theorem read_of_reads {text : String} (whole : Reads text.toList document []) :
    read text = (document, false) := by
  obtain ⟨value, remaining⟩ := whole
  have nothing : (readValue text.toList).2.any (fun rest => !(skipSpace rest.1).isEmpty) =
      ((readValue text.toList).2.map (·.1)).any fun rest => !(skipSpace rest).isEmpty := by
    rw [Option.any_map]
  rw [read, value, nothing, remaining]
  rfl

/-! ## Items and members -/

theorem Reads.starts (read : Reads input document rest) :
    ∃ c more, skipSpace input = c :: more ∧ c ≠ ']' := by
  rw [reads_iff] at read
  cases starts : skipSpace input with
  | nil =>
      rw [starts] at read
      cases read
  | cons c more =>
      refine ⟨c, more, rfl, ?_⟩
      rintro rfl
      rw [starts] at read
      cases read

theorem ReadsItems.nil (closed : skipSpace input = ']' :: rest) :
    ReadsItems true input [] rest := by
  rw [ReadsItems, readItems]
  split
  · rename_i nothing
    cases closed.symm.trans nothing
  · rename_i spaced
    cases closed.symm.trans spaced
    exact ⟨rfl, rfl⟩

theorem readItems_of_reads (read : Reads input document behind)
    (next : skipSpace behind = c :: further) :
    (readItems first input).1 =
      (if c = ']' then ([document], none)
      else if c = ',' then
        (document :: (readItems false further).1.1, (readItems false further).1.2)
      else ([document], some (.both .malformed))) ∧
    (readItems first input).2.map (·.1) =
      (if c = ']' then some further
      else if c = ',' then (readItems false further).2.map (·.1)
      else none) := by
  obtain ⟨d, more, starts, notClosed⟩ := read.starts
  obtain ⟨value, remaining⟩ := read
  rw [readItems]
  split
  · rename_i nothing
    cases starts.symm.trans nothing
  · rename_i spaced
    cases starts.symm.trans spaced
    rw [if_neg (by simp [notClosed])]
    dsimp only
    split
    · rename_i nothing
      rw [nothing] at remaining
      cases remaining
    · rename_i left found
      rw [found] at remaining
      obtain rfl : left.1 = behind := Option.some.inj remaining
      split
      · rename_i nothing
        cases next.symm.trans nothing
      · rename_i same
        cases next.symm.trans same
        rw [value]
        split_ifs
        · exact ⟨rfl, rfl⟩
        · exact ⟨rfl, by dsimp only; rw [widen_map]⟩
        · exact ⟨rfl, rfl⟩

theorem ReadsItems.last (read : Reads input document behind)
    (closed : skipSpace behind = ']' :: rest) : ReadsItems first input [document] rest :=
  readItems_of_reads read closed

theorem ReadsItems.cons (read : Reads input document behind)
    (comma : skipSpace behind = ',' :: further) (later : ReadsItems false further items rest) :
    ReadsItems first input (document :: items) rest := by
  obtain ⟨all, remaining⟩ := readItems_of_reads read comma
  rw [if_neg (by decide), if_pos rfl] at all remaining
  rw [later.1] at all
  exact ⟨all, remaining.trans later.2⟩

theorem ReadsMembers.nil (closed : skipSpace input = '\x7d' :: rest) :
    ReadsMembers true input [] rest := by
  rw [ReadsMembers, readMembers]
  split
  · rename_i nothing
    cases closed.symm.trans nothing
  · rename_i spaced
    cases closed.symm.trans spaced
    exact ⟨rfl, rfl⟩

def ReadsMember (input : List Char) (name : Except JsonFault String) (value : Document)
    (rest : List Char) : Prop :=
  ∃ opened size behindColon, skipSpace input = '\x22' :: opened ∧
    readName opened = .ok (name, size) ∧ skipSpace (opened.drop size) = ':' :: behindColon ∧
    Reads behindColon value rest

theorem readMembers_of_reads {name : Except JsonFault String}
    (read : ReadsMember input name value behind) (next : skipSpace behind = c :: further) :
    (readMembers first input).1 =
      (if c = '\x7d' then ([(name, value)], none)
      else if c = ',' then
        ((name, value) :: (readMembers false further).1.1, (readMembers false further).1.2)
      else ([(name, value)], some (.both .malformed))) ∧
    (readMembers first input).2.map (·.1) =
      (if c = '\x7d' then some further
      else if c = ',' then (readMembers false further).2.map (·.1)
      else none) := by
  obtain ⟨opened, size, behindColon, starts, named, colon, found, remaining⟩ := read
  rw [readMembers]
  split
  · rename_i nothing
    cases starts.symm.trans nothing
  · rename_i spaced
    cases starts.symm.trans spaced
    rw [if_neg (by simp), if_pos rfl]
    split
    · rename_i refused
      cases named.symm.trans refused
    · rename_i accepted
      cases named.symm.trans accepted
      split
      · rename_i nothing
        cases colon.symm.trans nothing
      · rename_i same
        cases colon.symm.trans same
        rw [if_pos rfl]
        dsimp only
        split
        · rename_i nothing
          rw [nothing] at remaining
          cases remaining
        · rename_i left there
          rw [there] at remaining
          obtain rfl : left.1 = behind := Option.some.inj remaining
          split
          · rename_i nothing
            cases next.symm.trans nothing
          · rename_i same
            cases next.symm.trans same
            rw [found]
            split_ifs
            · exact ⟨rfl, rfl⟩
            · exact ⟨rfl, by dsimp only; rw [widen_map]⟩
            · exact ⟨rfl, rfl⟩

theorem ReadsMembers.last {name : Except JsonFault String}
    (read : ReadsMember input name value behind) (closed : skipSpace behind = '\x7d' :: rest) :
    ReadsMembers first input [(name, value)] rest :=
  readMembers_of_reads read closed

theorem ReadsMembers.cons {name : Except JsonFault String}
    (read : ReadsMember input name value behind) (comma : skipSpace behind = ',' :: further)
    (later : ReadsMembers false further members rest) :
    ReadsMembers first input ((name, value) :: members) rest := by
  obtain ⟨all, remaining⟩ := readMembers_of_reads read comma
  rw [if_neg (by decide), if_pos rfl] at all remaining
  rw [later.1] at all
  exact ⟨all, remaining.trans later.2⟩

end Document
end SqlMetrics
