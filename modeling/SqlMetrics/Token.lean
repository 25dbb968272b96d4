import SqlMetrics.Keyword

/-!
# Tokens

The smallest pieces of a query text. White space and comments are tokens too, so that a token list
accounts for all of the text; the pieces that the tree treats alike share a constructor and keep
only the text they are shown with.
-/

set_option autoImplicit false

namespace SqlMetrics

/-- A word, with the character that opens its quotes if it is quoted. -/
structure Word where
  value : String
  quote : Option Char := none
  deriving DecidableEq, Repr

def closingQuote (opening : Char) : Char :=
  if opening = '[' then ']' else opening

namespace Word

/-- The word as written, a closing quote inside it no longer doubled. -/
def text (word : Word) : String :=
  match word.quote with
  | none => word.value
  | some opening =>
      String.ofList (opening :: word.value.toList ++ [closingQuote opening])

def keyword? (word : Word) : Option Keyword :=
  match word.quote with
  | none => Keyword.ofWord? word.value
  | some _ => none

end Word

/-- A piece of a query text. -/
inductive Token where
  /-- White space or a comment. -/
  | blank
  | word (word : Word)
  /-- A number, a string or a placeholder. -/
  | literal (text : String)
  /-- An operator that compares two values. -/
  | comparison (text : String)
  | star
  | comma
  | leftBracket
  | rightBracket
  | period
  | cast
  | semicolon
  /-- Any other operator, and any character that no rule reads. -/
  | operator (text : String)
  deriving DecidableEq, Repr

namespace Token

def text : Token → String
  | .blank => " "
  | .word spelled => spelled.text
  | .literal text => text
  | .comparison text => text
  | .star => "*"
  | .comma => ","
  | .leftBracket => "("
  | .rightBracket => ")"
  | .period => "."
  | .cast => "::"
  | .semicolon => ";"
  | .operator text => text

def ofSymbol (text : String) : Token :=
  match text with
  | "=" | "==" | "<>" | "<" | ">" | "<=" | ">=" | "<=>" => .comparison text
  | "*" => .star
  | "," => .comma
  | "(" => .leftBracket
  | ")" => .rightBracket
  | "." => .period
  | "::" => .cast
  | ";" => .semicolon
  | _ => .operator text

def keyword? : Token → Option Keyword
  | .word spelled => spelled.keyword?
  | _ => none

def isWord : Token → Bool
  | .word _ => true
  | _ => false

end Token

end SqlMetrics
