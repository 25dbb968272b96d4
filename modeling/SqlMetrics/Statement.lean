import SqlMetrics.Grouping
import SqlMetrics.Grouping.Brackets
import SqlMetrics.Phrase
import SqlMetrics.Token.Scanner

/-!
# Statements

`Statement.parse` turns a query text into the syntax tree of its first statement: tokens, then
leaves, then brackets, then the grouping passes.
-/

set_option autoImplicit false

namespace SqlMetrics

def nestingLimit : Nat := 256

/-- Why a query has no syntax tree. -/
inductive ParseError where
  /-- The text cannot be split into tokens. -/
  | token (error : TokenError)
  /-- The text holds nothing but white space, comments and semicolons. -/
  | empty
  /-- More brackets than the limit are open at the same time. -/
  | tooDeep (limit : Nat)
  deriving DecidableEq, Repr

def ParseError.message : ParseError → String
  | .token error => "tokenizer error: " ++ error.message
  | .empty => "query contains no SQL tokens"
  | .tooDeep limit => "parenthesis nesting exceeds " ++ toString limit ++ " levels"

/-- The syntax tree of a statement, given by the nodes below its root. -/
structure Statement where
  nodes : List Node
  deriving Repr

namespace Statement

def root (statement : Statement) : Node :=
  .group .statement statement.nodes

def display (statement : Statement) : String :=
  statement.root.display

def ofLeaves (leaves : List Leaf) : Except ParseError Statement :=
  match nestBrackets nestingLimit leaves with
  | none => .error (.tooDeep nestingLimit)
  | some nested => .ok ⟨groupNodes nested⟩

def ofTokens (tokens : List Token) : Except ParseError Statement :=
  match leavesOf tokens with
  | [] => .error .empty
  | leaves => ofLeaves leaves

def parse (dialect : Dialect) (query : String) : Except ParseError Statement :=
  match Token.scan dialect query with
  | .error error => .error (.token error)
  | .ok tokens => ofTokens tokens

end Statement

end SqlMetrics
