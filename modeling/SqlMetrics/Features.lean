/-!
# Feature counts

The seven structural counts of a query. A count of subqueries may be negative; as a value every
count is shown as a signed number of 64 bits, so larger counts are cut to the greatest of these.
-/

set_option autoImplicit false

namespace SqlMetrics

/-- The seven structural counts of a query. -/
structure Features where
  /-- Plain joins on the top level. -/
  joins : Nat := 0
  /-- `SELECT` verbs, without the one of the statement itself. -/
  subqueries : Int := 0
  /-- Conditions in the `WHERE` clause. -/
  whereConditions : Nat := 0
  /-- Calls that are not inside the arguments of another. -/
  functions : Nat := 0
  /-- Tables of the `FROM` clause. -/
  tables : Nat := 0
  /-- Columns of the `GROUP BY` clause. -/
  groupBy : Nat := 0
  /-- Columns of the `ORDER BY` clause. -/
  orderBy : Nat := 0
  deriving DecidableEq, Repr, Inhabited

inductive Feature where
  | joins
  | subqueries
  | whereConditions
  | functions
  | tables
  | groupBy
  | orderBy
  deriving DecidableEq, Repr

namespace Feature

def all : List Feature :=
  [joins, subqueries, whereConditions, functions, tables, groupBy, orderBy]

def name : Feature → String
  | joins => "joins"
  | subqueries => "subqueries"
  | whereConditions => "where_conditions"
  | functions => "functions"
  | tables => "tables"
  | groupBy => "group_by"
  | orderBy => "order_by"

def ofName? (name : String) : Option Feature :=
  all.find? fun feature => feature.name = name

theorem mem_all (feature : Feature) : feature ∈ all := by
  cases feature <;> decide

end Feature

namespace Features

def get (features : Features) : Feature → Int
  | .joins => features.joins
  | .subqueries => features.subqueries
  | .whereConditions => features.whereConditions
  | .functions => features.functions
  | .tables => features.tables
  | .groupBy => features.groupBy
  | .orderBy => features.orderBy

/-- The counts with one of them changed; only that of subqueries may become negative. -/
def set (features : Features) (feature : Feature) (count : Int) : Features :=
  match feature with
  | .joins => { features with joins := count.toNat }
  | .subqueries => { features with subqueries := count }
  | .whereConditions => { features with whereConditions := count.toNat }
  | .functions => { features with functions := count.toNat }
  | .tables => { features with tables := count.toNat }
  | .groupBy => { features with groupBy := count.toNat }
  | .orderBy => { features with orderBy := count.toNat }

def greatestValue : Int := 0x7fffffffffffffff

def value (features : Features) (feature : Feature) : Int :=
  min (features.get feature) greatestValue

/-- The counts as signed numbers of 64 bits, in their order. -/
def values (features : Features) : List Int :=
  Feature.all.map features.value

/-- The counts as signed numbers of 64 bits, with their names. -/
def entries (features : Features) : List (String × Int) :=
  Feature.all.map fun feature => (feature.name, features.value feature)

def add (left right : Features) : Features where
  joins := left.joins + right.joins
  subqueries := left.subqueries + right.subqueries
  whereConditions := left.whereConditions + right.whereConditions
  functions := left.functions + right.functions
  tables := left.tables + right.tables
  groupBy := left.groupBy + right.groupBy
  orderBy := left.orderBy + right.orderBy

/-- Counts are added one by one. -/
instance : Add Features :=
  ⟨add⟩

end Features

end SqlMetrics
