import SqlMetrics.Leaf

/-!
# Syntax trees

A node is a leaf or a group of nodes. The children of a group stand in the order of the text, so
the leaves of a node, read from left to right, are the phrases of the text it covers.
-/

set_option autoImplicit false

namespace SqlMetrics

inductive GroupKind where
  /-- A name, with what belongs to it: its qualifiers, casts, sort direction and alias. -/
  | identifier
  /-- Members separated by commas; the commas are children too. -/
  | identifierList
  /-- What stands in brackets; the brackets are children too. -/
  | parenthesis
  /-- A call: the called name and its bracketed arguments. -/
  | function
  /-- Two operands and the operator between them. -/
  | comparison
  /-- The word `WHERE` and what it governs. -/
  | whereClause
  /-- A whole statement. -/
  | statement
  deriving DecidableEq, Repr, Inhabited

inductive Node where
  | leaf (content : Leaf)
  | group (kind : GroupKind) (children : List Node)
  deriving Repr, Inhabited

namespace Node

/-- The children of a group; a leaf has none. -/
def children? : Node → Option (List Node)
  | .leaf _ => none
  | .group _ children => some children

def text? : Node → Option String
  | .leaf content => some content.text
  | .group _ _ => none

def leafKind? : Node → Option LeafKind
  | .leaf content => some content.kind
  | .group _ _ => none

def groupKind? : Node → Option GroupKind
  | .leaf _ => none
  | .group kind _ => some kind

def isKeyword (node : Node) (text : String) : Bool :=
  match node with
  | .leaf content => content.isKeyword text
  | .group _ _ => false

def isPunctuation (node : Node) (text : String) : Bool :=
  match node with
  | .leaf content => content.isPunctuation text
  | .group _ _ => false

def isLeafOf (node : Node) (kind : LeafKind) : Bool :=
  node.leafKind? = some kind

def isGroupOf (node : Node) (kind : GroupKind) : Bool :=
  node.groupKind? = some kind

mutual

def leaves : Node → List Leaf
  | .leaf content => [content]
  | .group _ children => leavesOfAll children

def leavesOfAll : List Node → List Leaf
  | [] => []
  | node :: rest => node.leaves ++ leavesOfAll rest

end

mutual

/-- The node as text: the parts of a group are separated by single spaces. -/
def display : Node → String
  | .leaf content => content.text
  | .group _ children => displayAll children

def displayAll : List Node → String
  | [] => ""
  | [node] => node.display
  | node :: rest => node.display ++ " " ++ displayAll rest

end

/-- The members of a list: its children without the marks between them. -/
def members (items : List Node) : List Node :=
  items.filter fun item => item.leafKind? != some .punctuation

end Node

end SqlMetrics
