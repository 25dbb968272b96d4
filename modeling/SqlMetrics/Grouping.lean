import SqlMetrics.Grouping.Passes

/-!
# Grouping

The seven passes, in their order, on the nodes of every level: first inside each bracket, then on
the level that holds it.
-/

set_option autoImplicit false

namespace SqlMetrics

def groupLevel (nodes : List Node) : List Node :=
  groupWhere (groupLists (groupAliases (groupComparisons (groupCasts (groupNames
    (groupCalls nodes))))))

mutual

def groupInside : Node → Node
  | .group .parenthesis children => .group .parenthesis (groupLevel (groupInsideAll children))
  | node => node

/-- Some nodes, each with everything in it grouped. -/
def groupInsideAll : List Node → List Node
  | [] => []
  | node :: rest => groupInside node :: groupInsideAll rest

end

/-- The nodes with every level grouped, the innermost first. -/
def groupNodes (nodes : List Node) : List Node :=
  groupLevel (groupInsideAll nodes)

end SqlMetrics
