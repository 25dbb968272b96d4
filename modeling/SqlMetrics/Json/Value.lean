import SqlMetrics.Decimal.Format

/-!
# JSON values and their text

A JSON value, and two ways to write it: compact, and over several lines with two spaces of indent.
Only what has to be escaped is escaped.
-/

set_option autoImplicit false

namespace SqlMetrics

/-- A JSON number: an integer of 64 bits, with or without a sign, or a double. -/
inductive JsonNumber where
  | whole (value : Int)
  | real (value : Float)

/-- A JSON value. The members of an object stand in their order in the text. -/
inductive Json where
  | null
  | bool (value : Bool)
  | number (value : JsonNumber)
  | text (value : String)
  | array (items : List Json)
  | object (members : List (String × Json))

namespace Json

def codeEscape (c : Char) : List Char :=
  let digits := Nat.toDigits 16 c.toNat
  '\\' :: 'u' :: List.replicate (4 - digits.length) '0' ++ digits

def escapeChar (c : Char) : List Char :=
  if c = '\x22' then ['\\', '\x22']
  else if c = '\\' then ['\\', '\\']
  else if c = '\x08' then ['\\', 'b']
  else if c = '\x0c' then ['\\', 'f']
  else if c = '\n' then ['\\', 'n']
  else if c = '\r' then ['\\', 'r']
  else if c = '\t' then ['\\', 't']
  else if c.toNat < 0x20 then codeEscape c
  else [c]

def quoteText (text : String) : List Char :=
  '\x22' :: text.toList.flatMap escapeChar ++ ['\x22']

def intText (value : Int) : List Char :=
  if value < 0 then '-' :: digitText value.natAbs else digitText value.natAbs

/-- The text of a number; what is not finite is written as `null`. -/
def numberText : JsonNumber → List Char
  | .whole value => intText value
  | .real value =>
      if value.isNaN || value.isInf then "null".toList
      else (FloatStyle.data.render value).toList

/-- The white space of a text: before the items and the closing bracket of a group at some depth,
and behind a colon. -/
structure Spacing where
  line : Nat → List Char
  colon : List Char

def newLine (depth : Nat) : List Char :=
  '\n' :: List.replicate (2 * depth) ' '

def Spacing.none : Spacing where
  line _ := []
  colon := []

def Spacing.indented : Spacing where
  line := newLine
  colon := [' ']

mutual

/-- The text of a value; `depth` groups are open around it. -/
def write (spacing : Spacing) (depth : Nat) : Json → List Char
  | .null => "null".toList
  | .bool true => "true".toList
  | .bool false => "false".toList
  | .number value => numberText value
  | .text value => quoteText value
  | .array [] => ['[', ']']
  | .array (item :: rest) =>
      '[' :: writeItems spacing (depth + 1) (item :: rest) ++ spacing.line depth ++ [']']
  | .object [] => ['\x7b', '\x7d']
  | .object (member :: rest) =>
      '\x7b' :: writeMembers spacing (depth + 1) (member :: rest) ++ spacing.line depth ++ ['\x7d']

def writeItems (spacing : Spacing) (depth : Nat) : List Json → List Char
  | [] => []
  | [item] => spacing.line depth ++ item.write spacing depth
  | item :: next :: rest =>
      spacing.line depth ++ item.write spacing depth
        ++ ',' :: writeItems spacing depth (next :: rest)

def writeMembers (spacing : Spacing) (depth : Nat) : List (String × Json) → List Char
  | [] => []
  | [(name, value)] =>
      spacing.line depth ++ quoteText name
        ++ ':' :: (spacing.colon ++ value.write spacing depth)
  | (name, value) :: next :: rest =>
      spacing.line depth ++ quoteText name
        ++ ':' :: (spacing.colon ++ value.write spacing depth)
        ++ ',' :: writeMembers spacing depth (next :: rest)

end

def compact (json : Json) : List Char :=
  json.write .none 0

/-- The text of a value over several lines, each item and member on a line of its own. -/
def pretty (depth : Nat) (json : Json) : List Char :=
  json.write .indented depth

end Json

end SqlMetrics
