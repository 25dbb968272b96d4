import SqlMetrics.Features.Counters

/-! # Plain `SELECT` statements

A grammar of statements with one `SELECT`, how each of its phrases is written as leaves, and the
seven counts that its reader expects: `Select.leaves` and `Select.features`. -/
set_option autoImplicit false
namespace SqlMetrics
namespace Plain

/-! ## Phrases -/

structure Several (α : Type) where
  first : α
  others : List α := []

namespace Several
variable {α β : Type}

def all (several : Several α) : List α :=
  several.first :: several.others

def count (several : Several α) : Nat :=
  several.others.length + 1

/-- The things in their order, each written out, with a mark between them. -/
def written (mark : β) (parts : α → List β) (several : Several α) : List β :=
  parts several.first ++ several.others.flatMap fun other => mark :: parts other

end Several

structure DottedName where
  parts : Several String

/-- A literal; no text that is scanned holds one that is spelled like a comparison. -/
structure Literal where
  text : String
  noSymbol : text ∉ Node.comparisonSymbols

inductive Operand where
  | column (name : DottedName)
  | literal (value : Literal)

inductive Arguments where
  | absent
  | star
  | listed (operands : Several Operand)

inductive Expression where
  | column (name : DottedName)
  | star
  | call (name : String) (arguments : Arguments)

structure Item where
  expression : Expression
  label : Option String := none

/-- The name that a table has in the statement, behind the word `AS` or without it. -/
inductive Alias where
  | worded (name : String)
  | bare (name : String)

structure TableReference where
  table : DottedName
  label : Option Alias := none

inductive JoinCondition where
  | on (left : DottedName) (operator : String) (right : DottedName)
  | sharing (columns : Several String)

structure Join where
  modifiers : List Keyword := []
  modifying : ∀ word ∈ modifiers, word.modifiesJoin = true := by simp
  reference : TableReference
  condition : JoinCondition

inductive Predicate where
  | compare (column : DottedName) (operator : String) (operand : Operand)
  | between (column : DottedName) (low high : Literal)
  | among (column : DottedName) (values : Several Literal)
  | both (left right : Predicate)
  | either (left right : Predicate)
  | bracketed (inside : Predicate)

inductive Direction where
  | ascending
  | descending

structure SortColumn where
  column : DottedName
  direction : Option Direction := none

structure Select where
  items : Several Item
  references : Several TableReference
  joins : List Join := []
  condition : Option Predicate := none
  grouping : Option (Several DottedName) := none
  sorting : Option (Several SortColumn) := none
  limit : Option Literal := none

/-! ## Phrases as leaves -/

abbrev comma : Leaf := .punctuation ","
abbrev period : Leaf := .punctuation "."
abbrev opening : Leaf := .punctuation "("
abbrev closing : Leaf := .punctuation ")"

def inBrackets (leaves : List Leaf) : List Leaf :=
  opening :: (leaves ++ [closing])

def DottedName.leaves (name : DottedName) : List Leaf :=
  name.parts.written period fun part => [.name part]

def Literal.leaf (value : Literal) : Leaf :=
  .literal value.text

def Operand.leaves : Operand → List Leaf
  | .column name => name.leaves
  | .literal value => [value.leaf]

def Arguments.leaves : Arguments → List Leaf
  | .absent => []
  | .star => [⟨.wildcard, "*"⟩]
  | .listed operands => operands.written comma Operand.leaves

def Expression.leaves : Expression → List Leaf
  | .column name => name.leaves
  | .star => [⟨.wildcard, "*"⟩]
  | .call name arguments => .name name :: inBrackets arguments.leaves

def labelLeaves : Option Alias → List Leaf
  | none => []
  | some (.worded name) => [.keyword "AS", .name name]
  | some (.bare name) => [.name name]

def Item.leaves (item : Item) : List Leaf :=
  item.expression.leaves ++ labelLeaves (item.label.map .worded)

def TableReference.leaves (reference : TableReference) : List Leaf :=
  reference.table.leaves ++ labelLeaves reference.label

def Join.phrase (join : Join) : Leaf :=
  .keyword (phraseText (join.modifiers ++ [.JOIN]))

def JoinCondition.leaves : JoinCondition → List Leaf
  | .on left operator right =>
      .keyword "ON" :: (left.leaves ++ .comparison operator :: right.leaves)
  | .sharing columns =>
      .keyword "USING" :: inBrackets (columns.written comma fun column => [.name column])

def Join.leaves (join : Join) : List Leaf :=
  join.phrase :: (join.reference.leaves ++ join.condition.leaves)

def Predicate.leaves : Predicate → List Leaf
  | .compare column operator operand =>
      column.leaves ++ .comparison operator :: operand.leaves
  | .between column low high =>
      column.leaves ++ .keyword "BETWEEN" :: ([low.leaf] ++ .keyword "AND" :: [high.leaf])
  | .among column values =>
      column.leaves ++ .keyword "IN" :: inBrackets (values.written comma fun value => [value.leaf])
  | .both left right => left.leaves ++ .keyword "AND" :: right.leaves
  | .either left right => left.leaves ++ .keyword "OR" :: right.leaves
  | .bracketed inside => inBrackets inside.leaves

def Direction.leaf : Direction → Leaf
  | .ascending => .keyword "ASC"
  | .descending => .keyword "DESC"

def SortColumn.leaves (sort : SortColumn) : List Leaf :=
  sort.column.leaves ++ (sort.direction.map Direction.leaf).toList

/-- A clause that may be left out: its keyword and what follows it. -/
def clause {α : Type} (word : String) (leaves : α → List Leaf) : Option α → List Leaf
  | none => []
  | some content => .keyword word :: leaves content

def Select.leaves (select : Select) : List Leaf :=
  ⟨.verb, "SELECT"⟩ :: (select.items.written comma Item.leaves ++
    .keyword "FROM" :: (select.references.written comma TableReference.leaves ++
      (select.joins.flatMap Join.leaves ++ (clause "WHERE" Predicate.leaves select.condition ++
        (clause "GROUP BY" (·.written comma DottedName.leaves) select.grouping ++
          (clause "ORDER BY" (·.written comma SortColumn.leaves) select.sorting ++
            clause "LIMIT" (fun value => [value.leaf]) select.limit))))))

/-! ## What a statement counts -/

def Expression.isCall : Expression → Bool
  | .call _ _ => true
  | _ => false

def Predicate.atoms : Predicate → Nat
  | .compare _ _ _ | .between _ _ _ | .among _ _ => 1
  | .both left right | .either left right => left.atoms + right.atoms
  | .bracketed inside => inside.atoms

/-- The brackets of a predicate that are open at the same time, those of value lists included. -/
def Predicate.depth : Predicate → Nat
  | .compare _ _ _ | .between _ _ _ => 0
  | .among _ _ => 1
  | .both left right | .either left right => max left.depth right.depth
  | .bracketed inside => inside.depth + 1

/-- The counts as they are read off the statement: its plain joins, the atoms of its condition, the
calls among its items, its table references, and its columns of each clause. -/
def Select.features (select : Select) : Features where
  joins := select.joins.countP (·.modifiers.isEmpty)
  subqueries := 0
  whereConditions := (select.condition.map Predicate.atoms).getD 0
  functions := select.items.all.countP (·.expression.isCall)
  tables := select.references.count + select.joins.length
  groupBy := (select.grouping.map Several.count).getD 0
  orderBy := (select.sorting.map Several.count).getD 0

end Plain
end SqlMetrics
