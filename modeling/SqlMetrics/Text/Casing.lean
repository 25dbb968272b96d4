/-!
# Letter case

Keywords are spelled in ASCII, so of the Unicode case maps only the part that leads to ASCII
matters here. `asciiUpper` is the upper case of the characters whose upper case is made of ASCII
letters; every other character stands for itself, and no keyword contains one.
-/

set_option autoImplicit false

namespace SqlMetrics

/-- The upper case of a character where it is ASCII, else the character itself. -/
def asciiUpper (c : Char) : List Char :=
  match c with
  | 'ß' => ['S', 'S']
  | 'ı' => ['I']
  | 'ſ' => ['S']
  | '\ufb00' => ['F', 'F']
  | '\ufb01' => ['F', 'I']
  | '\ufb02' => ['F', 'L']
  | '\ufb03' => ['F', 'F', 'I']
  | '\ufb04' => ['F', 'F', 'L']
  | '\ufb05' => ['S', 'T']
  | '\ufb06' => ['S', 'T']
  | other => [other.toUpper]

def upperText (text : String) : String :=
  String.ofList (text.toList.flatMap asciiUpper)

/-- The lower case of a character where it is ASCII, else the character itself; of the characters
beyond ASCII only the Kelvin sign has such a lower case. -/
def asciiLower (c : Char) : Char :=
  if c = '\u212a' then 'k' else c.toLower

def lowerText (text : String) : String :=
  String.ofList (text.toList.map asciiLower)

/-- Two texts are equal up to the case of the ASCII letters. -/
def sameLetters (left right : String) : Bool :=
  left.toList.map Char.toLower = right.toList.map Char.toLower

end SqlMetrics
