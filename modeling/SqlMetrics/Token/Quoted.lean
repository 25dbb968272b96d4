import SqlMetrics.Token.Fault

/-!
# Quoted texts

The contents of strings and quoted words. Each function is given the characters behind the opening
quotes and yields the contents, escapes resolved, with the number of characters up to and with the
closing quotes.
-/

set_option autoImplicit false

namespace SqlMetrics

/-- Puts characters, which took `size` characters of the text, before contents already read. -/
def Reading.prepend (characters : List Char) (size : Nat) (reading : Reading (List Char)) :
    Reading (List Char) :=
  ⟨characters ++ reading.value, size + reading.size⟩

/-- What a backslash does in a string. -/
inductive Backslash where
  /-- It stands for itself. -/
  | plain
  /-- It escapes the next character. -/
  | escapes
  /-- It escapes the next character, but stays before a percent sign or an underscore. -/
  | keepsPatterns
  deriving DecidableEq, Repr

/-- The characters that a backslash and the character after it stand for. -/
def Backslash.resolve (backslash : Backslash) (c : Char) : List Char :=
  match c with
  | '0' => ['\x00']
  | 'a' => ['\x07']
  | 'b' => ['\x08']
  | 'f' => ['\x0c']
  | 'n' => ['\n']
  | 'r' => ['\r']
  | 't' => ['\t']
  | 'Z' => ['\x1a']
  | '%' => if backslash = .keepsPatterns then ['\\', '%'] else ['%']
  | '_' => if backslash = .keepsPatterns then ['\\', '_'] else ['_']
  | other => [other]

/-- Contents that end at a single quote; a doubled quote stands for one. -/
def quotedContents (quote : Char) (backslash : Backslash) :
    List Char → Option (Reading (List Char))
  | [] => none
  | [c] => if c = quote then some ⟨[], 1⟩ else none
  | c :: d :: rest =>
      if c = quote then
        if d = quote then (quotedContents quote backslash rest).map (·.prepend [quote] 2)
        else some ⟨[], 1⟩
      else if c = '\\' && backslash != .plain then
        (quotedContents quote backslash rest).map (·.prepend (backslash.resolve d) 2)
      else (quotedContents quote backslash (d :: rest)).map (·.prepend [c] 1)

def tripleQuotedContents (quote : Char) (backslash : Backslash) :
    List Char → Option (Reading (List Char))
  | [] => none
  | [_] => none
  | c :: d :: rest =>
      if c = quote && d = quote && rest.head? = some quote then some ⟨[], 3⟩
      else if c = '\\' && backslash != .plain then
        (tripleQuotedContents quote backslash rest).map (·.prepend (backslash.resolve d) 2)
      else (tripleQuotedContents quote backslash (d :: rest)).map (·.prepend [c] 1)

def signedHexNumber? (digits : List Char) : Option Nat :=
  match digits with
  | '+' :: rest => hexNumber? rest
  | _ => hexNumber? digits

/-- The character with a code of ASCII; codes count modulo 256. -/
def asciiOfCode? (code : Nat) : Option Char :=
  if code % 256 < 128 then some (Char.ofNat (code % 256)) else none

def isOctalDigit (c : Char) : Bool :=
  '0' ≤ c && c ≤ '7'

/-- The character written by exactly `count` digits of base 16. -/
def codedChar? (count : Nat) (digits : List Char) : Option Char :=
  if digits.length < count then none
  else (signedHexNumber? (digits.take count)).bind charOfCode?

/-- The character that an escape of an `E` string stands for, given the characters behind the
backslash, with the number of characters that the escape takes. -/
def escapedChar? : List Char → Option (Reading Char)
  | [] => none
  | 'b' :: _ => some ⟨'\x08', 1⟩
  | 'f' :: _ => some ⟨'\x0c', 1⟩
  | 'n' :: _ => some ⟨'\n', 1⟩
  | 'r' :: _ => some ⟨'\r', 1⟩
  | 't' :: _ => some ⟨'\t', 1⟩
  | 'u' :: rest => (codedChar? 4 rest).map (⟨·, 5⟩)
  | 'U' :: rest => (codedChar? 8 rest).map (⟨·, 9⟩)
  | 'x' :: rest =>
      let digits := (rest.take 2).takeWhile isHexDigit
      if digits.isEmpty then some ⟨'x', 1⟩
      else ((hexNumber? digits).bind asciiOfCode?).map (⟨·, digits.length + 1⟩)
  | c :: rest =>
      if isOctalDigit c then
        let digits := c :: (rest.take 2).takeWhile isOctalDigit
        let code := digits.foldl (fun number digit => number * 8 + (digit.toNat - 48)) 0
        (asciiOfCode? code).map (⟨·, digits.length⟩)
      else some ⟨c, 1⟩

/-- The contents of an `E` string. An escape may not stand for the character U+0000. -/
def escapeStringContents (input : List Char) : Option (Reading (List Char)) :=
  match input with
  | [] => none
  | c :: rest =>
      if c = '\x27' then
        if rest.head? = some '\x27' then
          (escapeStringContents (rest.drop 1)).map (·.prepend ['\x27'] 2)
        else some ⟨[], 1⟩
      else if c = '\\' then
        match escapedChar? rest with
        | none => none
        | some escape =>
            if escape.value = '\x00' then none
            else (escapeStringContents (rest.drop escape.size)).map
              (·.prepend [escape.value] (escape.size + 1))
      else (escapeStringContents rest).map (·.prepend [c] 1)
termination_by input.length
decreasing_by all_goals simp only [List.length_cons, List.length_drop]; omega

/-- The number that exactly `count` digits of base 16 spell; `number` is that of the digits
before them. -/
def fixedHexNumber (number : Nat) : Nat → List Char → Scan Nat
  | 0, _ => .ok ⟨number, 0⟩
  | _ + 1, [] => .error ⟨.missingHexDigit, 0⟩
  | count + 1, c :: rest =>
      match hexValue? c with
      | none => .error ⟨.invalidHexDigit c, 1⟩
      | some digit => (fixedHexNumber (number * 16 + digit) count rest).after 1 id

/-- The character whose code exactly `count` digits of base 16 spell. -/
def unicodeEscape (count : Nat) (digits : List Char) : Scan Char :=
  match fixedHexNumber 0 count digits with
  | .error fault => .error fault
  | .ok code =>
      match charOfCode? code.value with
      | none => .error ⟨.invalidCharacter code.value, code.size⟩
      | some c => .ok ⟨c, code.size⟩

/-- The contents of a `U&` string. -/
def unicodeStringContents (input : List Char) : Scan (List Char) :=
  match input with
  | [] => .error ⟨.unclosedUnicodeString, 0⟩
  | c :: rest =>
      if c = '\x27' then
        if rest.head? = some '\x27' then
          (unicodeStringContents (rest.drop 1)).after 2 ('\x27' :: ·)
        else .ok ⟨[], 1⟩
      else if c = '\\' then
        if rest.head? = some '\\' then
          (unicodeStringContents (rest.drop 1)).after 2 ('\\' :: ·)
        else
          let mark := if rest.head? = some '+' then 1 else 0
          let count := if rest.head? = some '+' then 6 else 4
          match unicodeEscape count (rest.drop mark) with
          | .error fault => .error ⟨fault.error, 1 + mark + fault.offset⟩
          | .ok escape =>
              (unicodeStringContents (rest.drop (mark + escape.size))).after
                (1 + mark + escape.size) (escape.value :: ·)
      else (unicodeStringContents rest).after 1 (c :: ·)
termination_by input.length
decreasing_by all_goals simp only [List.length_cons, List.length_drop]; omega

/-- The text before the first occurrence of a delimiter. -/
def textBefore? (delimiter : List Char) : List Char → Option (List Char)
  | [] => none
  | c :: rest =>
      if delimiter.isPrefixOf (c :: rest) then some []
      else (textBefore? delimiter rest).map (c :: ·)

end SqlMetrics
