import SqlMetrics.Node

/-!
# Passes over a list of nodes

A pass goes through the nodes of one level from left to right. At each node it may merge the node
with some that follow, and it goes on behind them. All passes are instances of `sweep`, each with
its own rule: a rule is given a node and those behind it, and yields the merged node with the
number of following nodes it took.
-/

set_option autoImplicit false

namespace SqlMetrics

/-- What a node becomes, given the nodes behind it, and how many of these it takes. -/
abbrev MergeRule := Node → List Node → Node × Nat

/-- Applies a rule from left to right, each time behind the nodes taken before. -/
def sweep (rule : MergeRule) (nodes : List Node) : List Node :=
  match nodes with
  | [] => []
  | node :: rest =>
      let merged := rule node rest
      merged.1 :: sweep rule (rest.drop merged.2)
termination_by nodes.length
decreasing_by simp only [List.length_cons, List.length_drop]; omega

/-- The children of an identifier, or the node itself as the only child of one. -/
def identifierParts : Node → List Node
  | .group .identifier children => children
  | node => [node]

/-- An identifier that begins with a node and goes on with others; the node alone if there are
none. An identifier is extended and any other node becomes the first part of a new one. -/
def extend (node : Node) (tail : List Node) : Node :=
  if tail.isEmpty then node else .group .identifier (identifierParts node ++ tail)

/-! ## Calls -/

/-- A name before brackets is a call. -/
def callRule : MergeRule
  | node, next :: _ =>
      if node.isLeafOf .name && next.isGroupOf .parenthesis then
        (.group .function [.group .identifier [node], next], 1)
      else (node, 0)
  | node, [] => (node, 0)

def groupCalls : List Node → List Node :=
  sweep callRule

/-! ## Names -/

/-- The periods and names that continue a dotted name. A period ends the name unless a name or a
wildcard follows it. -/
def dottedTail : List Node → List Node
  | [] => []
  | [dot] => if dot.isPunctuation "." then [dot] else []
  | dot :: part :: rest =>
      if dot.isPunctuation "." then
        if part.isLeafOf .name || part.isLeafOf .wildcard then dot :: part :: dottedTail rest
        else [dot]
      else []

def nameRule : MergeRule := fun node rest =>
  if node.isLeafOf .name then
    let tail := dottedTail rest
    (.group .identifier (node :: tail), tail.length)
  else (node, 0)

def groupNames : List Node → List Node :=
  sweep nameRule

/-! ## Casts and directions -/

/-- The casts behind an operand. A cast without a type ends them. -/
def castTail : List Node → List Node
  | [] => []
  | [cast] => if cast.isPunctuation "::" then [cast] else []
  | cast :: type :: rest =>
      if cast.isPunctuation "::" then
        if type.isGroupOf .identifier || type.isGroupOf .function then
          cast :: type :: castTail rest
        else [cast]
      else []

/-- A number: its text begins with a digit or a period. -/
def isNumber (node : Node) : Bool :=
  match node with
  | .leaf ⟨.literal, text⟩ => text.toList.head?.any fun c => c.isDigit || c = '.'
  | _ => false

def isDirection (node : Node) : Bool :=
  node.isKeyword "ASC" || node.isKeyword "DESC"

/-- The sort direction behind an operand. -/
def directionTail (rest : List Node) : List Node :=
  (rest.take 1).filter isDirection

def isCastable (node : Node) : Bool :=
  node.isGroupOf .identifier || node.isGroupOf .function || node.isLeafOf .literal

/-- An operand takes its casts and a sort direction. A literal that is neither cast nor a number
takes no direction. -/
def castRule : MergeRule := fun node rest =>
  if isCastable node then
    let casts := castTail rest
    let takesDirection := !node.isLeafOf .literal || isNumber node || !casts.isEmpty
    let direction := if takesDirection then directionTail (rest.drop casts.length) else []
    (extend node (casts ++ direction), casts.length + direction.length)
  else (node, 0)

def groupCasts : List Node → List Node :=
  sweep castRule

/-! ## Comparisons -/

def isOperand (node : Node) : Bool :=
  match node with
  | .group kind _ => kind = .identifier || kind = .function || kind = .parenthesis
  | .leaf content =>
      content.kind = .name || content.kind = .literal || content.isKeyword "NULL"
        || content.isKeyword "TRUE" || content.isKeyword "FALSE"

/-- Two operands with a comparison operator between them are a comparison. -/
def comparisonRule : MergeRule
  | left, operator :: right :: _ =>
      if isOperand left && operator.isLeafOf .comparison && isOperand right then
        (.group .comparison [left, operator, right], 2)
      else (left, 0)
  | left, _ => (left, 0)

def groupComparisons : List Node → List Node :=
  sweep comparisonRule

/-! ## Aliases -/

def takesAlias (node : Node) : Bool :=
  node.isGroupOf .identifier || node.isGroupOf .function || node.isGroupOf .parenthesis
    || node.isLeafOf .literal

/-- The alias behind a node. Only a literal needs the word `AS` before it. -/
def aliasTail (node : Node) : List Node → List Node
  | [] => []
  | [next] => if next.isGroupOf .identifier && !node.isLeafOf .literal then [next] else []
  | next :: further :: _ =>
      if next.isKeyword "AS" then
        if further.isGroupOf .identifier then [next, further] else []
      else if next.isGroupOf .identifier && !node.isLeafOf .literal then [next]
      else []

def aliasRule : MergeRule := fun node rest =>
  if takesAlias node then
    let tail := aliasTail node rest
    (extend node tail, tail.length)
  else (node, 0)

def groupAliases : List Node → List Node :=
  sweep aliasRule

/-! ## Lists -/

def isListMember (node : Node) : Bool :=
  match node with
  | .group kind _ =>
      kind = .identifier || kind = .function || kind = .parenthesis || kind = .comparison
  | .leaf content =>
      content.kind = .name || content.kind = .literal || content.kind = .wildcard
        || content.isKeyword "NULL"

/-- The commas behind a member, each with the member behind it. -/
def listTail : List Node → List Node
  | comma :: member :: rest =>
      if comma.isPunctuation "," && isListMember member then comma :: member :: listTail rest
      else []
  | _ => []

def listRule : MergeRule := fun node rest =>
  if isListMember node then
    let tail := listTail rest
    if tail.isEmpty then (node, 0) else (.group .identifierList (node :: tail), tail.length)
  else (node, 0)

def groupLists : List Node → List Node :=
  sweep listRule

/-! ## The `WHERE` clause -/

def whereTerminators : List String :=
  ["ORDER BY", "GROUP BY", "LIMIT", "UNION", "UNION ALL", "EXCEPT", "INTERSECT", "HAVING",
    "RETURNING", "INTO"]

def closesWhere (node : Node) : Bool :=
  node.isPunctuation ")" || whereTerminators.any node.isKeyword

/-- The word `WHERE` takes everything up to the end of its clause. -/
def whereRule : MergeRule := fun node rest =>
  if node.isKeyword "WHERE" then
    let clause := rest.takeWhile fun next => !closesWhere next
    (.group .whereClause (node :: clause), clause.length)
  else (node, 0)

def groupWhere : List Node → List Node :=
  sweep whereRule

end SqlMetrics
