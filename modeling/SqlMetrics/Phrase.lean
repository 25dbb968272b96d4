import SqlMetrics.Leaf
import SqlMetrics.Token

/-!
# From tokens to leaves

The first statement of a token list becomes a list of leaves. Most tokens are a leaf of their own;
`GROUP BY`, `UNION ALL`, `NOT LIKE` and the phrases that end in `JOIN` are leaves of several
tokens. `phraseAt` reads one leaf and tells how many tokens it spans, and `leavesOf` repeats it
until no token is left.
-/

set_option autoImplicit false

namespace SqlMetrics

/-- The tokens of the first statement: white space is dropped, and so is all that follows the
first semicolon behind a token. -/
def firstStatement (tokens : List Token) : List Token :=
  ((tokens.filter (· != .blank)).dropWhile (· = .semicolon)).takeWhile (· != .semicolon)

/-- The modifiers of a join and the word `JOIN` at the beginning of the tokens. -/
def joinPhrase? : List Token → Option (List Keyword)
  | [] => none
  | token :: rest =>
      match token.keyword? with
      | none => none
      | some word =>
          if word = .JOIN then some [.JOIN]
          else if word.modifiesJoin then (joinPhrase? rest).map (word :: ·)
          else none

def phraseText (words : List Keyword) : String :=
  String.intercalate " " (words.map Keyword.text)

def pairLeaf? (first second : Keyword) : Option Leaf :=
  if first.takesBy && second = .BY then some (.keyword (phraseText [first, second]))
  else if first = .UNION && second = .ALL then some (.keyword (phraseText [first, second]))
  else if first = .NOT && second.isPattern then some (.comparison (phraseText [first, second]))
  else none

/-- The leaf that begins with this word, and the number of tokens it spans. -/
def wordLeaf (word : Word) (rest : List Token) : Leaf × Nat :=
  match word.keyword? with
  | none => (.name word.text, 1)
  | some first =>
      if first.isVerb then (⟨.verb, first.text⟩, 1)
      else
        match (rest.head?.bind Token.keyword?).bind (pairLeaf? first) with
        | some leaf => (leaf, 2)
        | none =>
            if first.isPattern then (.comparison first.text, 1)
            else if first.isSide && rest.head? = some .leftBracket then (.name word.text, 1)
            else
              match joinPhrase? (.word word :: rest) with
              | some words => (.keyword (phraseText words), words.length)
              | none => (.keyword first.text, 1)

/-- A star behind this leaf stands for all columns. -/
def opensProjection : Option Leaf → Bool
  | none => true
  | some leaf =>
      leaf.kind = .verb || leaf.isPunctuation "," || leaf.isPunctuation "("
        || leaf.isPunctuation "." || leaf.isKeyword "DISTINCT" || leaf.isKeyword "ALL"

/-- The leaf at the beginning of the tokens `token :: rest`, with the leaf before it, and the
number of tokens it spans. -/
def phraseAt (previous : Option Leaf) (token : Token) (rest : List Token) : Leaf × Nat :=
  match token with
  | .word word => wordLeaf word rest
  | .star => (if opensProjection previous then ⟨.wildcard, "*"⟩ else ⟨.operator, "*"⟩, 1)
  | .comparison text => (.comparison text, 1)
  | .literal text => (.literal text, 1)
  | .comma => (.punctuation ",", 1)
  | .leftBracket => (.punctuation "(", 1)
  | .rightBracket => (.punctuation ")", 1)
  | .period => (.punctuation ".", 1)
  | .cast => (.punctuation "::", 1)
  | .semicolon => (⟨.operator, ";"⟩, 1)
  | .blank => (⟨.operator, " "⟩, 1)
  | .operator text => (⟨.operator, text⟩, 1)

/-- The leaves of a token list, with the leaf before it. -/
def leavesFrom (previous : Option Leaf) (tokens : List Token) : List Leaf :=
  match tokens with
  | [] => []
  | token :: rest =>
      let phrase := phraseAt previous token rest
      phrase.1 :: leavesFrom (some phrase.1) (rest.drop (phrase.2 - 1))
termination_by tokens.length
decreasing_by simp only [List.length_cons, List.length_drop]; omega

def leavesOf (tokens : List Token) : List Leaf :=
  leavesFrom none (firstStatement tokens)

end SqlMetrics
