import SqlMetrics.Text.Numeral

/-!
# Texts that are no tokens

The causes for which a text cannot be split into tokens, and the place where each is found. A rule
of the scanner reports a place as the number of characters before it (`ScanFault`), and a whole
text as a line and a column (`TokenError`).
-/

set_option autoImplicit false

namespace SqlMetrics

/-- Why a text cannot be split into tokens. -/
inductive ScanError where
  | unclosedString
  | unclosedEscapeString
  | unclosedUnicodeString
  | unclosedDollarString
  | unclosedTaggedString
  | unclosedComment
  | unclosedWord (closing : Char)
  | misplacedUnderscore
  | missingHexDigit
  | invalidHexDigit (found : Char)
  | invalidCharacter (code : Nat)
  | incompleteOperator (spelling : String)
  deriving DecidableEq, Repr

def ScanError.message : ScanError → String
  | .unclosedString => "Unterminated string literal"
  | .unclosedEscapeString => "Unterminated encoded string literal"
  | .unclosedUnicodeString => "Unterminated unicode encoded string literal"
  | .unclosedDollarString => "Unterminated dollar-quoted string"
  | .unclosedTaggedString => "Unterminated dollar-quoted, expected $"
  | .unclosedComment => "Unexpected EOF while in a multi-line comment"
  | .unclosedWord closing =>
      "Expected close delimiter '" ++ closing.toString ++ "' before EOF."
  | .misplacedUnderscore => "Unexpected character '_'"
  | .missingHexDigit => "Unexpected EOF while parsing hex digit in escaped unicode string."
  | .invalidHexDigit found =>
      "Invalid hex digit in escaped unicode string: " ++ found.toString
  | .invalidCharacter code => "Invalid unicode character: " ++ hexText code
  | .incompleteOperator spelling =>
      "Expected a valid binary operator after '" ++ spelling ++ "'"

/-- A cause, with the number of characters before the place where it was found. -/
structure ScanFault where
  error : ScanError
  offset : Nat
  deriving DecidableEq, Repr

/-- A line and a column, both counted from one. -/
structure Position where
  line : Nat := 1
  column : Nat := 1
  deriving DecidableEq, Repr

/-- The position that follows a character: only a line feed begins a new line. -/
def Position.next (position : Position) (c : Char) : Position :=
  if c = '\n' then ⟨position.line + 1, 1⟩ else ⟨position.line, position.column + 1⟩

/-- The position behind these characters. -/
def Position.after (text : List Char) : Position :=
  text.foldl Position.next {}

/-- A cause and its place in the whole text. -/
structure TokenError where
  error : ScanError
  position : Position
  deriving DecidableEq, Repr

/-- The wording of the cause, then the place. -/
def TokenError.message (fault : TokenError) : String :=
  fault.error.message ++ " at Line: " ++ toString fault.position.line
    ++ ", Column: " ++ toString fault.position.column

/-- What a rule read, and how many characters it took. -/
structure Reading (α : Type) where
  value : α
  size : Nat
  deriving Repr

abbrev Scan (α : Type) := Except ScanFault (Reading α)

/-- The reading of a text that begins `size` characters before the one just read. -/
def Scan.after {α β : Type} (size : Nat) (change : α → β) : Scan α → Scan β
  | .ok reading => .ok ⟨change reading.value, size + reading.size⟩
  | .error fault => .error ⟨fault.error, size + fault.offset⟩

end SqlMetrics
