import SqlMetrics.Token.Operator
import SqlMetrics.Token.Quoted
import SqlMetrics.Text.Blank

/-!
# From text to tokens

`scanToken` reads the token at the beginning of a text: its first character selects a rule, and
the rule yields the token with the number of characters it takes. `Token.scan` does so until
nothing is left. The token before matters to the rules for periods and for words that begin with
digits.
-/

set_option autoImplicit false

namespace SqlMetrics

/-! ## Words -/

def scanWord (dialect : Dialect) (first rest : List Char) : Scan Token :=
  let further := rest.takeWhile dialect.continuesWord
  .ok ⟨.word { value := String.ofList (first ++ further) }, first.length + further.length⟩

/-- A quoted word, given the characters behind its opening quote. -/
def scanQuotedWord (opening : Char) (rest : List Char) : Scan Token :=
  match quotedContents (closingQuote opening) .plain rest with
  | none => .error ⟨.unclosedWord (closingQuote opening), 0⟩
  | some contents =>
      .ok ⟨.word { value := String.ofList contents.value, quote := some opening },
        contents.size + 1⟩

/-- A word in brackets that holds a word in double quotes, given the characters behind the
opening bracket. The inner quotes belong to the word, the white space around them does not. -/
def scanNestedWord (rest : List Char) : Scan Token :=
  let before := rest.takeWhile isBlank
  let inside := rest.drop (before.length + 1)
  match quotedContents '\x22' .plain inside with
  | none => .error ⟨.unclosedWord '\x22', before.length + 1⟩
  | some contents =>
      let behind := inside.drop contents.size
      let after := behind.takeWhile isBlank
      if (behind.drop after.length).head? = some ']' then
        let value := '\x22' :: contents.value ++ ['\x22']
        .ok ⟨.word { value := String.ofList value, quote := some '[' },
          before.length + contents.size + after.length + 3⟩
      else .error ⟨.unclosedWord ']', 0⟩

/-- A word in brackets in a dialect that looks ahead, or the bracket alone. -/
def scanBracket (dialect : Dialect) (rest : List Char) : Scan Token :=
  match (rest.dropWhile isBlank).head? with
  | none => .ok ⟨.ofSymbol "[", 1⟩
  | some c =>
      if c = '\x22' then scanNestedWord rest
      else if dialect.startsWord c then scanQuotedWord '[' rest
      else .ok ⟨.ofSymbol "[", 1⟩

/-! ## Strings -/

def Dialect.backslash (dialect : Dialect) : Backslash :=
  if dialect.keepsPatternEscapes then .keepsPatterns
  else if dialect.backslashEscapes then .escapes
  else .plain

/-- What a backslash does in the `X` strings of a dialect: it escapes in all of them. -/
def Dialect.hexBackslash (dialect : Dialect) : Backslash :=
  if dialect.keepsPatternEscapes then .keepsPatterns else .escapes

/-- The text of a string between `count` quotes, after a mark. -/
def stringText (mark : String) (quote : Char) (count : Nat) (contents : List Char) : String :=
  let quotes := List.replicate count quote
  mark ++ String.ofList (quotes ++ contents ++ quotes)

/-- A string in single quotes, given the characters behind the opening quote; `make` forms the
token from the text. -/
def scanString (mark : String) (quote : Char) (backslash : Backslash) (make : String → Token)
    (rest : List Char) : Scan Token :=
  match quotedContents quote backslash rest with
  | none => .error ⟨.unclosedString, 0⟩
  | some contents => .ok ⟨make (stringText mark quote 1 contents.value), contents.size + 1⟩

/-- A string in single or triple quotes, given the characters behind its first quote. Two quotes
are the empty string, and a missing end is reported behind the opening quotes. -/
def scanTripleString (mark : String) (quote : Char) (backslash : Backslash)
    (make : String → Token) (rest : List Char) : Scan Token :=
  if rest.head? = some quote then
    let inside := rest.drop 1
    if inside.head? = some quote then
      match tripleQuotedContents quote backslash (inside.drop 1) with
      | none => .error ⟨.unclosedString, 3⟩
      | some contents =>
          .ok ⟨.operator (stringText mark quote 3 contents.value), contents.size + 3⟩
    else .ok ⟨make (stringText mark quote 1 []), 2⟩
  else
    match quotedContents quote backslash rest with
    | none => .error ⟨.unclosedString, 1⟩
    | some contents => .ok ⟨make (stringText mark quote 1 contents.value), contents.size + 1⟩

/-- A string of a dialect, in triple quotes too where the dialect has them. -/
def scanDialectString (dialect : Dialect) (mark : String) (quote : Char) (backslash : Backslash)
    (make : String → Token) (rest : List Char) : Scan Token :=
  if dialect.tripleQuotes then scanTripleString mark quote backslash make rest
  else scanString mark quote backslash make rest

def scanEscapeString (rest : List Char) : Scan Token :=
  match escapeStringContents rest with
  | none => .error ⟨.unclosedEscapeString, 0⟩
  | some contents =>
      .ok ⟨.literal (stringText "E" '\x27' 1 contents.value), contents.size + 2⟩

def scanUnicodeString (rest : List Char) : Scan Token :=
  Scan.after 3 (fun contents => .operator (stringText "U&" '\x27' 1 contents))
    (unicodeStringContents rest)

/-! ## Numbers -/

/-- The longest run of digits, with underscores between them where the dialect allows it. -/
def digitRun (dialect : Dialect) (isDigit : Char → Bool) : List Char → List Char
  | [] => []
  | c :: rest =>
      if isDigit c || (dialect.digitUnderscores && c = '_' && rest.head?.any isHexDigit) then
        c :: digitRun dialect isDigit rest
      else []

/-- The exponent at the beginning of the text, empty unless it has a digit. -/
def exponentRun (input : List Char) : List Char :=
  let mark := input.take 1
  let sign := (input.drop 1).take 1 |>.filter (fun c => c = '+' || c = '-')
  let digits := (input.drop (1 + sign.length)).takeWhile Char.isDigit
  if digits.isEmpty then [] else mark ++ sign ++ digits

/-- A number, given the text that it begins, or a period. -/
def scanNumber (dialect : Dialect) (previous : Option Token) (input : List Char) : Scan Token :=
  let whole := digitRun dialect Char.isDigit input
  let behindWhole := input.drop whole.length
  if whole = ['0'] && behindWhole.head? = some 'x' then
    let digits := digitRun dialect isHexDigit (behindWhole.drop 1)
    .ok ⟨.literal (stringText "X" '\x27' 1 digits), digits.length + 2⟩
  else
    let point := behindWhole.take 1 |>.filter (· = '.')
    if whole.isEmpty && dialect.digitsStartWords && previous.any Token.isWord then
      .ok ⟨.period, 1⟩
    else
      let behindPoint := behindWhole.drop point.length
      let fraction := digitRun dialect Char.isDigit behindPoint
      let text := whole ++ point ++ fraction
      if text = ['.'] then .ok ⟨.period, 1⟩
      else
        let behind := behindPoint.drop fraction.length
        let marked := behind.head? = some 'e' || behind.head? = some 'E'
        let exponent := if marked then exponentRun behind else []
        let number := text ++ exponent
        let further :=
          if dialect.digitsStartWords && !marked then behind.takeWhile dialect.continuesWord
          else []
        if !further.isEmpty || (dialect.digitsStartWords && marked && previous = some .period) then
          .ok ⟨.word { value := String.ofList (number ++ further) },
            number.length + further.length⟩
        else
          let long := (behind.drop exponent.length).take 1 |>.filter (· = 'L')
          .ok ⟨.literal (String.ofList (number ++ long)), number.length + long.length⟩

/-- What a period or a digit begins, given the text that it begins. -/
def scanNumberOrPeriod (dialect : Dialect) (previous : Option Token) (input : List Char) :
    Scan Token :=
  match input with
  | '.' :: '_' :: _ =>
      if previous.any Token.isWord then .ok ⟨.period, 1⟩ else .error ⟨.misplacedUnderscore, 0⟩
  | _ => scanNumber dialect previous input

/-! ## Comments, placeholders and dollar quotes -/

/-- The number of characters up to the end of a comment between `/*` and `*/`, given the
characters behind its beginning; `depth` comments are open around the innermost one. -/
def blockCommentSize? (nested : Bool) : Nat → List Char → Option Nat
  | _, [] => none
  | _, [_] => none
  | depth, c :: d :: rest =>
      if nested && c = '/' && d = '*' then
        (blockCommentSize? nested (depth + 1) rest).map (· + 2)
      else if c = '*' && d = '/' then
        match depth with
        | 0 => some 2
        | depth + 1 => (blockCommentSize? nested depth rest).map (· + 2)
      else (blockCommentSize? nested depth (d :: rest)).map (· + 1)

/-- A comment between `/*` and `*/`, given the characters behind its beginning. -/
def scanBlockComment (dialect : Dialect) (rest : List Char) : Scan Token :=
  match blockCommentSize? dialect.nestedComments 0 rest with
  | none => .error ⟨.unclosedComment, rest.length + 2⟩
  | some size => .ok ⟨.blank, size + 2⟩

/-- A comment up to the end of the line, given the characters behind its mark. -/
def scanLineComment (mark : String) (endsLine : Char → Bool) (rest : List Char) : Scan Token :=
  let comment := rest.takeWhile fun c => !endsLine c
  .ok ⟨.blank, mark.length + comment.length + ((rest.drop comment.length).take 1).length⟩

/-- A string between dollar signs or a placeholder, given the characters behind the first dollar
sign. -/
def scanDollar (dialect : Dialect) (rest : List Char) : Scan Token :=
  let isPart := fun c =>
    isLetterOrNumeral c || c = '_' || (dialect.dollarPlaceholders && c = '$')
  let tag := rest.takeWhile isPart
  if !dialect.dollarPlaceholders && (rest.drop tag.length).head? = some '$' then
    let delimiter := '$' :: tag ++ ['$']
    let behind := rest.drop (tag.length + 1)
    match textBefore? delimiter behind with
    | none =>
        .error ⟨if tag.isEmpty then .unclosedDollarString else .unclosedTaggedString,
          rest.length + 1⟩
    | some contents =>
        .ok ⟨.literal (String.ofList (delimiter ++ contents ++ delimiter)),
          contents.length + 2 * delimiter.length⟩
  else .ok ⟨.literal (String.ofList ('$' :: tag)), tag.length + 1⟩

/-! ## The choice of the rule -/

/-- What the signs `#` and `@` begin where they may begin a word: a word takes the next character
whatever it is. -/
def scanMarkedWord? (dialect : Dialect) (c : Char) (rest : List Char) : Option (Scan Token) :=
  match c, rest with
  | '#', d :: behind =>
      if dialect.startsWord '#' && !(['-', '>', ' '].contains d)
          && !(dialect.geometricOperators && d = '#')
      then some (scanWord dialect [c, d] behind) else none
  | '@', '@' :: d :: behind =>
      if dialect.startsWord '@' && d != ' ' then some (scanWord dialect [c, '@', d] behind)
      else none
  | '@', d :: behind =>
      if dialect.startsWord '@' && !(['@', '>', '?', ' ', '\x27', '\x22', '\x60'].contains d) then
        some (scanWord dialect [c, d] behind)
      else none
  | _, _ => none

/-- What a letter begins that may be the mark of a string; none if it is no such mark here. -/
def scanMarkedString? (dialect : Dialect) (c : Char) (rest : List Char) : Option (Scan Token) :=
  match c.toUpper, rest with
  | 'B', d :: behind =>
      if dialect.byteStrings && (d = '\x27' || d = '\x22') then
        some (Scan.after 1 id (scanDialectString dialect "B" d .plain .operator behind))
      else none
  | 'R', d :: behind =>
      if dialect.rawStrings && (d = '\x27' || d = '\x22') then
        some (Scan.after 1 id (scanTripleString "R" d .plain .operator behind))
      else none
  | 'N', '\x27' :: behind =>
      some (Scan.after 1 id (scanString "N" '\x27' dialect.backslash .literal behind))
  | 'E', '\x27' :: behind =>
      if dialect.escapeStrings then some (Scan.after 0 id (scanEscapeString behind)) else none
  | 'U', '&' :: '\x27' :: behind =>
      if dialect.unicodeStrings then some (scanUnicodeString behind) else none
  | 'X', '\x27' :: behind =>
      some (Scan.after 1 id (scanString "X" '\x27' dialect.hexBackslash .literal behind))
  | _, _ => none

def scanComment? (dialect : Dialect) (c : Char) (rest : List Char) : Option (Scan Token) :=
  match c, rest with
  | '-', '-' :: behind =>
      if !dialect.dashesNeedSpace || behind.head? = some ' ' then
        some (scanLineComment "--"
          (fun d => d = '\n' || (dialect.returnEndsComment && d = '\r')) behind)
      else none
  | '/', '*' :: behind => some (scanBlockComment dialect behind)
  | '/', '/' :: behind =>
      if dialect.slashComments then some (scanLineComment "//" (· = '\n') behind) else none
  | '#', behind =>
      if dialect.hashComments then some (scanLineComment "#" (· = '\n') behind) else none
  | _, _ => none

/-- A string or a quoted word, if the character opens one. -/
def scanQuoted? (dialect : Dialect) (c : Char) (rest : List Char) : Option (Scan Token) :=
  if c = '\x27' then
    some (scanDialectString dialect "" c dialect.backslash .literal rest)
  else if dialect.wordQuotes.contains c then
    if c = '[' && dialect.bracketLooksAhead then some (scanBracket dialect rest)
    else some (scanQuotedWord c rest)
  else if c = '\x22' then
    some (scanDialectString dialect "" c dialect.backslash .literal rest)
  else none

/-- The token that the last rules yield: words, placeholders, white space, and any character that
nothing else reads. -/
def scanOther (dialect : Dialect) (c : Char) (rest : List Char) : Scan Token :=
  if c = '?' then
    let digits := rest.takeWhile isNumeral
    .ok ⟨.literal (String.ofList (c :: digits)), digits.length + 1⟩
  else if dialect.startsWord c then scanWord dialect [c] rest
  else if c = '$' then scanDollar dialect rest
  else if isBlank c then .ok ⟨.blank, 1⟩
  else .ok ⟨.operator c.toString, 1⟩

/-- The token at the beginning of the text `c :: rest`, with the number of its characters. -/
def scanToken (dialect : Dialect) (previous : Option Token) (c : Char) (rest : List Char) :
    Scan Token :=
  if c = ' ' || c = '\t' || c = '\n' || c = '\r' then .ok ⟨.blank, 1⟩
  else if c.isAlpha then
    (scanMarkedString? dialect c rest).getD (scanWord dialect [c] rest)
  else if c.isDigit || c = '.' then scanNumberOrPeriod dialect previous (c :: rest)
  else
    ((scanQuoted? dialect c rest).orElse fun _ =>
      (scanComment? dialect c rest).orElse fun _ =>
        (scanMarkedWord? dialect c rest).orElse fun _ =>
          Operator.scan? dialect (c :: rest)).getD
      (scanOther dialect c rest)

/-- The tokens of a text, with the token before it. A token takes at least one character. -/
def scanTokens (dialect : Dialect) (previous : Option Token) (input : List Char) :
    Except ScanFault (List Token) :=
  match input with
  | [] => .ok []
  | c :: rest =>
      match scanToken dialect previous c rest with
      | .error fault => .error fault
      | .ok reading =>
          let taken := reading.size - 1
          match scanTokens dialect (some reading.value) (rest.drop taken) with
          | .error fault => .error ⟨fault.error, taken + 1 + fault.offset⟩
          | .ok tokens => .ok (reading.value :: tokens)
termination_by input.length
decreasing_by simp only [List.length_cons, List.length_drop]; omega

/-- The tokens of a text, or the first place where there is none. -/
def Token.scan (dialect : Dialect) (text : String) : Except TokenError (List Token) :=
  match scanTokens dialect none text.toList with
  | .ok tokens => .ok tokens
  | .error fault =>
      .error ⟨fault.error, Position.after (text.toList.take fault.offset)⟩

end SqlMetrics
