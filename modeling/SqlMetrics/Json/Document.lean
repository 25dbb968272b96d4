import SqlMetrics.Json.Numeral
import SqlMetrics.Json.Text

/-!
# JSON documents as far as they can be read

`Document.read` turns a text into a tree that keeps, at the place where reading had to stop, the
fault found there. What a text means is decided on the tree, from left to right; so the fault that
counts is the first one a reader meets, be it one of the text or of what the reader expects.

A part of a text may be read for its value or skipped. The two ways find different faults in
numbers and strings, so a fault of the text is kept for both (`Breakage`).
-/

set_option autoImplicit false

namespace SqlMetrics

/-- A fault of the text: what is found by reading for values, and what by skipping. -/
structure Breakage where
  read : JsonFault
  skipped : JsonFault
  deriving DecidableEq, Repr

/-- A fault that both ways of reading find. -/
def Breakage.both (fault : JsonFault) : Breakage :=
  ⟨fault, fault⟩

/-- A JSON text as far as it can be read. An array or object without an ending fault is closed. -/
inductive Document where
  | null
  | bool (value : Bool)
  | number (value : Numeral)
  /-- A string, with the fault that only reading its value finds. -/
  | text (value : Except JsonFault String)
  | array (items : List Document) (ending : Option Breakage)
  | object (members : List (Except JsonFault String × Document)) (ending : Option Breakage)
  /-- No value could be read here. -/
  | broken (breakage : Breakage)

/-- A member of an object as it was read. -/
abbrev Member :=
  Except JsonFault String × Document

namespace Document

def isSpace (c : Char) : Bool :=
  c = ' ' || c = '\n' || c = '\t' || c = '\r'

def skipSpace (input : List Char) : List Char :=
  input.dropWhile isSpace

theorem length_skipSpace (input : List Char) : (skipSpace input).length ≤ input.length :=
  (List.dropWhile_sublist isSpace).length_le

/-- What follows a part of a text that could be read completely: fewer characters. -/
abbrev Remaining (input : List Char) :=
  Option { rest : List Char // rest.length < input.length }

def Remaining.widen {inner outer : List Char} (shorter : inner.length ≤ outer.length) :
    Remaining inner → Remaining outer
  | none => none
  | some rest => some ⟨rest.1, Nat.lt_of_lt_of_le rest.2 shorter⟩

/-- The part of the text behind `size + 1` characters. -/
def Remaining.behind (input : List Char) (size : Nat) (nonempty : input ≠ []) : Remaining input :=
  some ⟨input.drop (size + 1), by
    have positive : 0 < input.length := List.length_pos_iff.mpr nonempty
    simp only [List.length_drop]; omega⟩

/-! ## Scalars -/

/-- The value that a word such as `null` stands for, given its letters and the text. -/
def readWord (value : Document) : List Char → List Char → Document × Option Nat
  | [], _ => (value, some 0)
  | _ :: _, [] => (.broken (.both .cutShort), none)
  | letter :: letters, c :: rest =>
      if letter = c then
        let read := readWord value letters rest
        (read.1, read.2.map (· + 1))
      else (.broken (.both .malformed), none)

/-- What a missing digit means, given the characters where it is missing. -/
def missingDigit : List Char → Document
  | [] => .broken ⟨.cutShort, .malformed⟩
  | _ :: _ => .broken (.both .malformed)

/-- The exponent of a number, given the characters behind its digits. -/
def readExponent (negative : Bool) (whole fraction : List Char) (size : Nat)
    (input : List Char) : Document × Option Nat :=
  match input with
  | mark :: rest =>
      if mark = 'e' || mark = 'E' then
        let sign := (rest.take 1).filter fun c => c = '+' || c = '-'
        let behind := rest.drop sign.length
        let digits := behind.takeWhile Char.isDigit
        if digits.isEmpty then (missingDigit behind, none)
        else
          let magnitude : Int := digitsValue digits
          let exponent := if sign = ['-'] then -magnitude else magnitude
          (.number ⟨negative, whole, fraction, some exponent⟩,
            some (size + 1 + sign.length + digits.length))
      else (.number ⟨negative, whole, fraction, none⟩, some size)
  | [] => (.number ⟨negative, whole, fraction, none⟩, some size)

/-- A number without its sign, which took `size` characters. -/
def readUnsigned (negative : Bool) (size : Nat) (input : List Char) : Document × Option Nat :=
  let whole := input.takeWhile Char.isDigit
  let behind := input.drop whole.length
  if whole.isEmpty then (missingDigit behind, none)
  else if whole.head? = some '0' && 1 < whole.length then (.broken (.both .malformed), none)
  else if behind.head? = some '.' then
    let fraction := (behind.drop 1).takeWhile Char.isDigit
    let rest := behind.drop (1 + fraction.length)
    if fraction.isEmpty then (missingDigit rest, none)
    else readExponent negative whole fraction (size + whole.length + 1 + fraction.length) rest
  else readExponent negative whole [] (size + whole.length) behind

def readNumber (input : List Char) : Document × Option Nat :=
  if input.head? = some '-' then readUnsigned true 1 (input.drop 1)
  else readUnsigned false 0 input

/-- A string, given the characters behind its opening quote. -/
def readText (input : List Char) : Document × Option Nat :=
  let value := (JsonText.readString input).map fun read => String.ofList read.1
  match JsonText.skipString input with
  | .ok size => (.text value, some size)
  | .error skipped =>
      match value with
      | .ok _ => (.broken (.both skipped), none)
      | .error fault => (.broken ⟨fault, skipped⟩, none)

/-- The name of a member, given the characters behind its opening quote. -/
def readName (input : List Char) : Except Breakage (Except JsonFault String × Nat) :=
  match readText input with
  | (.text value, some size) => .ok (value, size)
  | (.broken breakage, _) => .error breakage
  | _ => .error (.both .malformed)

/-! ## Values -/

/-- A scalar, and what follows it; behind its first character it took `size` more. -/
def scalar (input : List Char) (nonempty : input ≠ []) (read : Document × Option Nat) :
    Document × Remaining input :=
  match read with
  | (document, some size) => (document, Remaining.behind input size nonempty)
  | (document, none) => (document, none)

mutual

/-- The value that a text begins with, and what follows it. -/
def readValue (input : List Char) : Document × Remaining input :=
  match spaced : skipSpace input with
  | [] => (.broken (.both .cutShort), none)
  | c :: rest =>
      have shorter : (c :: rest).length ≤ input.length := spaced ▸ length_skipSpace input
      have nonempty : c :: rest ≠ [] := List.cons_ne_nil c rest
      if c = '[' then
        let read := readItems true rest
        (.array read.1.1 read.1.2,
          read.2.widen (Nat.le_trans (Nat.le_of_lt (Nat.lt_succ_self rest.length)) shorter))
      else if c = '\x7b' then
        let read := readMembers true rest
        (.object read.1.1 read.1.2,
          read.2.widen (Nat.le_trans (Nat.le_of_lt (Nat.lt_succ_self rest.length)) shorter))
      else
        let read :=
          if c = '\x22' then scalar (c :: rest) nonempty (readText rest)
          else if c = 'n' then scalar (c :: rest) nonempty (readWord .null ['u', 'l', 'l'] rest)
          else if c = 't' then
            scalar (c :: rest) nonempty (readWord (.bool true) ['r', 'u', 'e'] rest)
          else if c = 'f' then
            scalar (c :: rest) nonempty (readWord (.bool false) ['a', 'l', 's', 'e'] rest)
          else if c = '-' || c.isDigit then
            let number := readNumber (c :: rest)
            scalar (c :: rest) nonempty (number.1, number.2.map (· - 1))
          else (.broken (.both .malformed), none)
        (read.1, read.2.widen shorter)
termination_by (input.length, 0)
decreasing_by all_goals simp only [List.length_cons] at shorter; omega

/-- The items of an array and the fault that ends them, given the characters behind the opening
bracket or behind a comma. -/
def readItems (first : Bool) (input : List Char) :
    (List Document × Option Breakage) × Remaining input :=
  match spaced : skipSpace input with
  | [] =>
      if first then (([], some (.both .cutShort)), none)
      else (([.broken (.both .cutShort)], none), none)
  | c :: rest =>
      have shorter : (c :: rest).length ≤ input.length := spaced ▸ length_skipSpace input
      if c = ']' && first then
        (([], none), some ⟨rest, Nat.lt_of_lt_of_le (Nat.lt_succ_self rest.length) shorter⟩)
      else
        let item := readValue input
        match item.2 with
        | none => (([item.1], none), none)
        | some behind =>
            match next : skipSpace behind.1 with
            | [] => (([item.1], some (.both .cutShort)), none)
            | d :: further =>
                have fewer : further.length < input.length := by
                  have bound := length_skipSpace behind.1
                  have less := behind.2
                  rw [next] at bound
                  simp only [List.length_cons] at bound
                  omega
                if d = ']' then (([item.1], none), some ⟨further, fewer⟩)
                else if d = ',' then
                  let others := readItems false further
                  ((item.1 :: others.1.1, others.1.2),
                    others.2.widen (Nat.le_of_lt fewer))
                else (([item.1], some (.both .malformed)), none)
termination_by (input.length, 1)
decreasing_by all_goals omega

/-- The members of an object and the fault that ends them, given the characters behind the opening
brace or behind a comma. A missing colon is a fault of the value. -/
def readMembers (first : Bool) (input : List Char) :
    (List Member × Option Breakage) × Remaining input :=
  match spaced : skipSpace input with
  | [] => (([], some (.both .cutShort)), none)
  | c :: rest =>
      have shorter : (c :: rest).length ≤ input.length := spaced ▸ length_skipSpace input
      if c = '\x7d' && first then
        (([], none), some ⟨rest, Nat.lt_of_lt_of_le (Nat.lt_succ_self rest.length) shorter⟩)
      else if c = '\x22' then
        match readName rest with
        | .error breakage => (([], some breakage), none)
        | .ok (name, size) =>
            match colon : skipSpace (rest.drop size) with
            | [] => (([(name, .broken (.both .cutShort))], none), none)
            | d :: behindColon =>
                if d = ':' then
                  have fewer : behindColon.length < input.length := by
                    have bound := length_skipSpace (rest.drop size)
                    rw [colon] at bound
                    simp only [List.length_cons, List.length_drop] at bound shorter
                    omega
                  let value := readValue behindColon
                  match value.2 with
                  | none => (([(name, value.1)], none), none)
                  | some behind =>
                      match next : skipSpace behind.1 with
                      | [] => (([(name, value.1)], some (.both .cutShort)), none)
                      | e :: further =>
                          have evenFewer : further.length < input.length := by
                            have bound := length_skipSpace behind.1
                            have less := behind.2
                            rw [next] at bound
                            simp only [List.length_cons] at bound
                            omega
                          if e = '\x7d' then
                            (([(name, value.1)], none), some ⟨further, evenFewer⟩)
                          else if e = ',' then
                            let others := readMembers false further
                            (((name, value.1) :: others.1.1, others.1.2),
                              others.2.widen (Nat.le_of_lt evenFewer))
                          else (([(name, value.1)], some (.both .malformed)), none)
                else (([(name, .broken (.both .malformed))], none), none)
      else (([], some (.both .malformed)), none)
termination_by (input.length, 1)
decreasing_by all_goals omega

end

/-- A text as a document, and whether anything but white space follows it. -/
def read (text : String) : Document × Bool :=
  let value := readValue text.toList
  (value.1, value.2.any fun rest => !(skipSpace rest.1).isEmpty)

/-! ## Faults of a document -/

def numberOf (numeral : Numeral) : Except JsonFault JsonNumber :=
  match numeral.value? with
  | none => .error .malformed
  | some value => .ok value

/-- The fault of a document where something else is expected: a scalar is read first, but not the
inside of an array or an object. -/
def mismatch : Document → JsonFault
  | .broken breakage => breakage.read
  | .text (.error fault) => fault
  | .number numeral => if numeral.value?.isNone then .malformed else .unsuitable
  | _ => .unsuitable

mutual

def skipFault? : Document → Option JsonFault
  | .array items ending => (skipItemsFault? items).or (ending.map Breakage.skipped)
  | .object members ending => (skipMembersFault? members).or (ending.map Breakage.skipped)
  | .broken breakage => some breakage.skipped
  | _ => none

def skipItemsFault? : List Document → Option JsonFault
  | [] => none
  | item :: rest => (skipFault? item).or (skipItemsFault? rest)

def skipMembersFault? : List Member → Option JsonFault
  | [] => none
  | (_, value) :: rest => (skipFault? value).or (skipMembersFault? rest)

end

end Document

end SqlMetrics
