import SqlMetrics.Text.Casing

/-!
# Keywords

The words that shape the tree of a statement. A word is a keyword when its upper case spells one
(`Keyword.ofWord?`); all other words of SQL are treated as names.
-/

set_option autoImplicit false

namespace SqlMetrics

/-- The words that are told apart from names. -/
inductive Keyword where
  | SELECT | INSERT | UPDATE | DELETE | MERGE
  | LIKE | ILIKE
  | JOIN | NATURAL | LEFT | RIGHT | FULL | OUTER | INNER | CROSS
  | FROM | WHERE | GROUP | ORDER | PARTITION | BY | HAVING | LIMIT | OFFSET | FETCH | TOP | ON
  | USING | AS | AND | OR | NOT | IN | BETWEEN | IS | NULL | TRUE | FALSE | EXISTS | ANY | SOME
  | CASE | WHEN | THEN | ELSE | END | DISTINCT | ALL | UNION | INTERSECT | EXCEPT | WITH
  | RECURSIVE | INTO | VALUES | SET | ASC | DESC | NULLS | OVER | WINDOW | RETURNING
  deriving DecidableEq, Repr, Inhabited

namespace Keyword

def text : Keyword → String
  | .SELECT => "SELECT" | .INSERT => "INSERT" | .UPDATE => "UPDATE"
  | .DELETE => "DELETE" | .MERGE => "MERGE" | .LIKE => "LIKE"
  | .ILIKE => "ILIKE" | .JOIN => "JOIN" | .NATURAL => "NATURAL"
  | .LEFT => "LEFT" | .RIGHT => "RIGHT" | .FULL => "FULL"
  | .OUTER => "OUTER" | .INNER => "INNER" | .CROSS => "CROSS"
  | .FROM => "FROM" | .WHERE => "WHERE" | .GROUP => "GROUP"
  | .ORDER => "ORDER" | .PARTITION => "PARTITION" | .BY => "BY"
  | .HAVING => "HAVING" | .LIMIT => "LIMIT" | .OFFSET => "OFFSET"
  | .FETCH => "FETCH" | .TOP => "TOP" | .ON => "ON"
  | .USING => "USING" | .AS => "AS" | .AND => "AND"
  | .OR => "OR" | .NOT => "NOT" | .IN => "IN"
  | .BETWEEN => "BETWEEN" | .IS => "IS" | .NULL => "NULL"
  | .TRUE => "TRUE" | .FALSE => "FALSE" | .EXISTS => "EXISTS"
  | .ANY => "ANY" | .SOME => "SOME" | .CASE => "CASE"
  | .WHEN => "WHEN" | .THEN => "THEN" | .ELSE => "ELSE"
  | .END => "END" | .DISTINCT => "DISTINCT" | .ALL => "ALL"
  | .UNION => "UNION" | .INTERSECT => "INTERSECT" | .EXCEPT => "EXCEPT"
  | .WITH => "WITH" | .RECURSIVE => "RECURSIVE" | .INTO => "INTO"
  | .VALUES => "VALUES" | .SET => "SET" | .ASC => "ASC"
  | .DESC => "DESC" | .NULLS => "NULLS" | .OVER => "OVER"
  | .WINDOW => "WINDOW" | .RETURNING => "RETURNING"

def all : List Keyword := [
  .SELECT, .INSERT, .UPDATE, .DELETE, .MERGE, .LIKE, .ILIKE, .JOIN, .NATURAL, .LEFT, .RIGHT,
  .FULL, .OUTER, .INNER, .CROSS, .FROM, .WHERE, .GROUP, .ORDER, .PARTITION, .BY, .HAVING, .LIMIT,
  .OFFSET, .FETCH, .TOP, .ON, .USING, .AS, .AND, .OR, .NOT, .IN, .BETWEEN, .IS, .NULL, .TRUE,
  .FALSE, .EXISTS, .ANY, .SOME, .CASE, .WHEN, .THEN, .ELSE, .END, .DISTINCT, .ALL, .UNION,
  .INTERSECT, .EXCEPT, .WITH, .RECURSIVE, .INTO, .VALUES, .SET, .ASC, .DESC, .NULLS, .OVER,
  .WINDOW, .RETURNING]

/-- The keyword that a word spells in any letter case. -/
def ofWord? (word : String) : Option Keyword :=
  let upper := upperText word
  all.find? fun keyword => keyword.text = upper

def isVerb : Keyword → Bool
  | .SELECT | .INSERT | .UPDATE | .DELETE | .MERGE => true
  | _ => false

/-- The words that may stand before `JOIN` in one join phrase. -/
def modifiesJoin : Keyword → Bool
  | .NATURAL | .LEFT | .RIGHT | .FULL | .OUTER | .INNER | .CROSS => true
  | _ => false

/-- The words that form one clause name with a following `BY`. -/
def takesBy : Keyword → Bool
  | .GROUP | .ORDER | .PARTITION => true
  | _ => false

def isPattern : Keyword → Bool
  | .LIKE | .ILIKE => true
  | _ => false

def isSide : Keyword → Bool
  | .LEFT | .RIGHT => true
  | _ => false

end Keyword

end SqlMetrics
