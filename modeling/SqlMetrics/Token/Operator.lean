import SqlMetrics.Dialect
import SqlMetrics.Token
import SqlMetrics.Token.Fault

/-!
# Operators

Every dialect has a table of operators and marks, and the longest spelling in it that the text
begins with is read. Where the users of a database may define operators, further operator
characters extend the one that was read; some spellings are operators only when so extended.
-/

set_option autoImplicit false

namespace SqlMetrics

/-- What further operator characters do to an operator. -/
inductive Extension where
  /-- They begin a token of their own. -/
  | never
  /-- They belong to the operator in dialects with custom operators. -/
  | allowed
  /-- The spelling is an operator only with such characters after it. -/
  | required
  deriving DecidableEq, Repr

/-- An entry of an operator table. -/
structure Operator where
  /-- The characters that are read. -/
  spelling : String
  /-- The text that the token is shown with. -/
  shown : String := spelling
  extension : Extension := .never
  /-- The character after the operator is lost. -/
  swallowsNext : Bool := false

namespace Operator

/-- An operator that nothing extends. -/
def fixed (spelling : String) : Operator :=
  { spelling }

def extensible (spelling : String) : Operator :=
  { spelling, extension := .allowed }

def stem (spelling : String) : Operator :=
  { spelling, extension := .required }

/-- An operator that loses the character after it. -/
def swallowing (spelling : String) : Operator :=
  { spelling, swallowsNext := true }

def common : List Operator :=
  ["(", ")", ",", "/", "+", "*", "=", "=>", "==", "!", "!!", "!~", "!~*", "!~~", "!~~*", ":",
    "::", ":=", ";", "\\", "[", "]", "\x7b", "\x7d", "^", "^@", "@", "@>", "@?", "@@"].map fixed
  ++ ["-", "->", "->>", "%", "|", "|/", "||", "||/", "<", "<=", "<=>", "<>", "<<", "<@", ">",
    ">=", ">>", "&", "&&", "~", "~*", "~~", "~~*", "#", "#-", "#>", "#>>"].map extensible
  ++ [{ spelling := "!=", shown := "<>" }]

def geometric : List Operator :=
  ["|&>", "|>>", "<<|", "<->", "<^", ">^", "&<", "~=", "##"].map extensible
  ++ ["|&", "|>", "<-", "@-"].map stem
  ++ ["&<|", "@-@", "?|", "?||", "?&", "?-", "?-|", "?#"].map fixed
  ++ ["&>", "?"].map swallowing
  ++ [{ spelling := "<|", shown := "<<|", extension := .allowed }]

def table (dialect : Dialect) : List Operator :=
  common
  ++ (if dialect.geometricOperators then geometric else [])
  ++ (if dialect.pipeOperator then [extensible "|>"] else [])
  ++ (if dialect.slashOperator then [fixed "//"] else [])

/-- The entry with the longest spelling that the text begins with. -/
def longest? (entries : List Operator) (input : List Char) : Option Operator :=
  entries.foldl
    (fun best entry =>
      if entry.spelling.toList.isPrefixOf input
          && best.all (fun found => found.spelling.length < entry.spelling.length)
      then some entry else best)
    none

def isExtensionChar (c : Char) : Bool :=
  "+-*/<>=~!@#%^&|\x60?".toList.contains c

/-- The characters behind an operator that belong to it. -/
def extensionOf (dialect : Dialect) (entry : Operator) (behind : List Char) : List Char :=
  if dialect.customOperators && entry.extension != .never then behind.takeWhile isExtensionChar
  else []

/-- Reads the operator or mark at the beginning of the text, if there is one. -/
def scan? (dialect : Dialect) (input : List Char) : Option (Scan Token) :=
  match longest? (table dialect) input with
  | none => none
  | some entry =>
      let behind := input.drop entry.spelling.length
      let added := extensionOf dialect entry behind
      if added.isEmpty then
        if entry.extension = .required then
          some (.error ⟨.incompleteOperator entry.spelling, entry.spelling.length⟩)
        else
          let lost := if entry.swallowsNext && !behind.isEmpty then 1 else 0
          some (.ok ⟨Token.ofSymbol entry.shown, entry.spelling.length + lost⟩)
      else
        some (.ok ⟨.operator (entry.shown ++ String.ofList added),
          entry.spelling.length + added.length⟩)

end Operator

end SqlMetrics
