import SqlMetrics.Text.Casing

/-!
# Leaves

The leaves of a syntax tree: what a token, or a phrase of several tokens, stands for, with its
normalized text.
-/

set_option autoImplicit false

namespace SqlMetrics

/-- What a leaf stands for. -/
inductive LeafKind where
  /-- A word or phrase that shapes the statement, in upper case. -/
  | keyword
  /-- A verb that manipulates data, in upper case. -/
  | verb
  /-- The name of an object. -/
  | name
  /-- A number, a string or a placeholder. -/
  | literal
  /-- A star that stands for all columns. -/
  | wildcard
  /-- An operator that compares nothing. -/
  | operator
  /-- An operator that compares two values. -/
  | comparison
  /-- A bracket, a comma, a period or a cast. -/
  | punctuation
  deriving DecidableEq, Repr, Inhabited

structure Leaf where
  kind : LeafKind
  text : String
  deriving DecidableEq, Repr, Inhabited

namespace Leaf

def keyword (text : String) : Leaf :=
  ⟨.keyword, text⟩

def name (text : String) : Leaf :=
  ⟨.name, text⟩

def literal (text : String) : Leaf :=
  ⟨.literal, text⟩

def comparison (text : String) : Leaf :=
  ⟨.comparison, text⟩

def punctuation (text : String) : Leaf :=
  ⟨.punctuation, text⟩

/-- A keyword with this text, in any case of the ASCII letters. -/
def isKeyword (leaf : Leaf) (text : String) : Bool :=
  leaf.kind = .keyword && sameLetters leaf.text text

def isPunctuation (leaf : Leaf) (text : String) : Bool :=
  leaf.kind = .punctuation && leaf.text = text

def opensBracket (leaf : Leaf) : Bool :=
  leaf.isPunctuation "("

def closesBracket (leaf : Leaf) : Bool :=
  leaf.isPunctuation ")"

end Leaf

end SqlMetrics
