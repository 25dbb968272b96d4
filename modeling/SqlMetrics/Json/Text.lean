import SqlMetrics.Json.Fault
import SqlMetrics.Text.Numeral

/-!
# Strings in JSON texts

A string is read in two ways. Where its value is wanted, escapes of code points have to form
characters (`readString`); where it is skipped they only have to be escapes (`skipString`). Both
are given the characters behind the opening quote.
-/

set_option autoImplicit false

namespace SqlMetrics

namespace JsonText

/-- The number that the four digits of an escape spell. Four bytes have to follow at all. -/
def unitAt (input : List Char) : Except JsonFault Nat :=
  let digits := input.take 4
  if (String.ofList digits).utf8ByteSize < 4 then .error .cutShort
  else if digits.length < 4 then .error .malformed
  else
    match hexNumber? digits with
    | none => .error .malformed
    | some unit => .ok unit

/-- The unit is the first half of a pair that forms a character beyond the first plane. -/
def isLeadingHalf (unit : Nat) : Bool :=
  0xd800 ≤ unit && unit ≤ 0xdbff

def isTrailingHalf (unit : Nat) : Bool :=
  0xdc00 ≤ unit && unit ≤ 0xdfff

/-- The second half of a pair, given the characters behind the first. -/
def trailingHalfAt : List Char → Except JsonFault Nat
  | [] => .error .cutShort
  | ['\\'] => .error .cutShort
  | '\\' :: 'u' :: rest =>
      match unitAt rest with
      | .error fault => .error fault
      | .ok unit => if isTrailingHalf unit then .ok unit else .error .malformed
  | _ :: _ => .error .malformed

/-- The character of an escape of code points, given the characters behind `\u`, and the number of
characters it takes. -/
def codeEscapeAt (input : List Char) : Except JsonFault (Char × Nat) :=
  match unitAt input with
  | .error fault => .error fault
  | .ok unit =>
      if isTrailingHalf unit then .error .malformed
      else if isLeadingHalf unit then
        match trailingHalfAt (input.drop 4) with
        | .error fault => .error fault
        | .ok trailing =>
            .ok (Char.ofNat (0x10000 + (unit - 0xd800) * 0x400 + (trailing - 0xdc00)), 10)
      else .ok (Char.ofNat unit, 4)

def simpleEscape? (c : Char) : Option Char :=
  if c = '\x22' then some '\x22'
  else if c = '\\' then some '\\'
  else if c = '/' then some '/'
  else if c = 'b' then some '\x08'
  else if c = 'f' then some '\x0c'
  else if c = 'n' then some '\n'
  else if c = 'r' then some '\r'
  else if c = 't' then some '\t'
  else none

/-- The value of a string and the number of characters up to and with its closing quote. -/
def readString (input : List Char) : Except JsonFault (List Char × Nat) :=
  match input with
  | [] => .error .cutShort
  | c :: rest =>
      if c = '\x22' then .ok ([], 1)
      else if c = '\\' then
        match rest with
        | [] => .error .cutShort
        | d :: behind =>
            if d = 'u' then
              match codeEscapeAt behind with
              | .error fault => .error fault
              | .ok (character, size) =>
                  (readString (behind.drop size)).map fun read =>
                    (character :: read.1, read.2 + size + 2)
            else
              match simpleEscape? d with
              | none => .error .malformed
              | some character =>
                  (readString behind).map fun read => (character :: read.1, read.2 + 2)
      else if c.toNat < 0x20 then .error .malformed
      else (readString rest).map fun read => (c :: read.1, read.2 + 1)
termination_by input.length
decreasing_by all_goals simp only [List.length_cons, List.length_drop]; omega

/-- The number of characters of a string up to and with its closing quote. -/
def skipString (input : List Char) : Except JsonFault Nat :=
  match input with
  | [] => .error .cutShort
  | c :: rest =>
      if c = '\x22' then .ok 1
      else if c = '\\' then
        match rest with
        | [] => .error .cutShort
        | d :: behind =>
            if d = 'u' then
              match unitAt behind with
              | .error fault => .error fault
              | .ok _ => (skipString (behind.drop 4)).map (· + 6)
            else
              match simpleEscape? d with
              | none => .error .malformed
              | some _ => (skipString behind).map (· + 2)
      else if c.toNat < 0x20 then .error .malformed
      else (skipString rest).map (· + 1)
termination_by input.length
decreasing_by all_goals simp only [List.length_cons, List.length_drop]; omega

end JsonText

end SqlMetrics
