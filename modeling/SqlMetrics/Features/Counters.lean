import SqlMetrics.Features
import SqlMetrics.Statement

/-!
# Counting the features of a statement

Joins, tables and the columns of `GROUP BY` and `ORDER BY` are counted on the top level, conditions
in the first `WHERE` clause of that level, and subqueries and calls in the whole tree.
-/

set_option autoImplicit false

namespace SqlMetrics

namespace Node

/-! ## Calls -/

mutual

/-- The calls in a node; a call counts once, whatever its arguments hold. -/
def calls : Node → Nat
  | .leaf _ => 0
  | .group .function _ => 1
  | .group _ children => callsInAll children

def callsInAll : List Node → Nat
  | [] => 0
  | node :: rest => node.calls + callsInAll rest

end

/-! ## Subqueries -/

mutual

/-- The `SELECT` verbs in a node. -/
def selects : Node → Nat
  | .leaf content =>
      if content.kind = .verb && sameLetters content.text "SELECT" then 1 else 0
  | .group _ children => selectsInAll children

def selectsInAll : List Node → Nat
  | [] => 0
  | node :: rest => node.selects + selectsInAll rest

end

/-! ## Conditions -/

/-- The operators that are a condition of their own where no comparison was formed. -/
def comparisonSymbols : List String :=
  [">", "<", ">=", "<=", "=", "<>", "!="]

def conditionKeywords : List String :=
  ["BETWEEN", "IN"]

/-- The condition that a leaf stands for, if it does. -/
def leafConditions (content : Leaf) : Nat :=
  match content.kind with
  | .keyword => if conditionKeywords.contains content.text then 1 else 0
  | .verb => 0
  | _ => if comparisonSymbols.contains content.text then 1 else 0

mutual

/-- The conditions in a node: a comparison is one, brackets hold those inside them, and a list
holds its comparisons. -/
def conditions : Node → Nat
  | .leaf content => leafConditions content
  | .group .comparison _ => 1
  | .group .parenthesis children => conditionsInAll children
  | .group .identifierList items => items.countP (·.isGroupOf .comparison)
  | .group _ _ => 0

def conditionsInAll : List Node → Nat
  | [] => 0
  | node :: rest => node.conditions + conditionsInAll rest

end

/-! ## Tables -/

def fromTerminators : List String :=
  ["WHERE", "GROUP BY", "ORDER BY", "LIMIT"]

def closesFrom (node : Node) : Bool :=
  fromTerminators.any node.isKeyword

mutual

/-- The tables that a node of a `FROM` clause names: an identifier is one, a list has its
identifiers, and any other group has those of its own `FROM` clause. -/
def tables : Node → Nat
  | .leaf _ => 0
  | .group .identifier _ => 1
  | .group .identifierList items => items.countP (·.isGroupOf .identifier)
  | .group _ children => tablesBefore children

/-- The tables of some nodes, of which none was the word `FROM` so far. -/
def tablesBefore : List Node → Nat
  | [] => 0
  | node :: rest => if node.isKeyword "FROM" then tablesWithin rest else tablesBefore rest

/-- The tables of some nodes behind the word `FROM`, up to the end of the clause. -/
def tablesWithin : List Node → Nat
  | [] => 0
  | node :: rest => if node.closesFrom then 0 else node.tables + tablesWithin rest

end

/-! ## Clauses -/

def isAnyKeyword (node : Node) : Bool :=
  node.isLeafOf .keyword

/-- The columns that a node of a clause names: a list has all its members, and an identifier is
one. -/
def columns : Node → Nat
  | .group .identifierList items => (members items).length
  | .group .identifier _ => 1
  | _ => 0

/-- The nodes of a clause: those behind its name up to the next keyword. -/
def clauseNodes (name : String) (nodes : List Node) : List Node :=
  ((nodes.dropWhile fun node => !node.isKeyword name).drop 1).takeWhile
    fun node => !node.isAnyKeyword

def columnsInAll : List Node → Nat
  | [] => 0
  | node :: rest => node.columns + columnsInAll rest

def clauseColumns (name : String) (nodes : List Node) : Nat :=
  columnsInAll (clauseNodes name nodes)

end Node

namespace Statement

/-- Plain joins on the top level; a join with a modifier is no plain one. -/
def joins (statement : Statement) : Nat :=
  statement.nodes.countP (·.isKeyword "JOIN")

/-- The `SELECT` verbs without that of the statement itself: a statement without any has one less
than none. -/
def subqueries (statement : Statement) : Int :=
  if statement.nodes.isEmpty then 0 else (Node.selectsInAll statement.nodes : Int) - 1

/-- The children of the first `WHERE` clause of the top level. -/
def whereNodes (statement : Statement) : List Node :=
  ((statement.nodes.find? (·.isGroupOf .whereClause)).bind Node.children?).getD []

/-- The conditions in the first `WHERE` clause of the top level. -/
def whereConditions (statement : Statement) : Nat :=
  Node.conditionsInAll statement.whereNodes

def functions (statement : Statement) : Nat :=
  Node.callsInAll statement.nodes

def tables (statement : Statement) : Nat :=
  Node.tablesBefore statement.nodes

def groupByColumns (statement : Statement) : Nat :=
  Node.clauseColumns "GROUP BY" statement.nodes

def orderByColumns (statement : Statement) : Nat :=
  Node.clauseColumns "ORDER BY" statement.nodes

def features (statement : Statement) : Features where
  joins := statement.joins
  subqueries := statement.subqueries
  whereConditions := statement.whereConditions
  functions := statement.functions
  tables := statement.tables
  groupBy := statement.groupByColumns
  orderBy := statement.orderByColumns

end Statement

end SqlMetrics
