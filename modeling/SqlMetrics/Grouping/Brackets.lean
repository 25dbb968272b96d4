import SqlMetrics.Node

/-!
# Brackets become groups

`nestBrackets` reads leaves from left to right and closes a group at each bracket that matches the
latest open one. A closing bracket with nothing to close stays a leaf, and brackets that are still
open at the end are closed there. Only a bracket opened within `limit` open ones is refused.
-/

set_option autoImplicit false

namespace SqlMetrics

/-- The nodes read so far: those of the innermost open bracket, last one first, and those around
it, from the inside out. -/
structure OpenGroups where
  inner : List Node := []
  outer : List (List Node) := []
  deriving Repr

namespace OpenGroups

def push (groups : OpenGroups) (node : Node) : OpenGroups :=
  { groups with inner := node :: groups.inner }

def openBracket (groups : OpenGroups) (bracket : Leaf) : OpenGroups :=
  ⟨[.leaf bracket], groups.inner :: groups.outer⟩

/-- Closes the innermost bracket with what was read in it; there is one if `outer` is not empty. -/
def close (groups : OpenGroups) : OpenGroups :=
  match groups.outer with
  | [] => groups
  | around :: further => ⟨.group .parenthesis groups.inner.reverse :: around, further⟩

def depth (groups : OpenGroups) : Nat :=
  groups.outer.length

/-- Reads a leaf; there is no result when a bracket opens within `limit` open ones. -/
def read? (limit : Nat) (groups : OpenGroups) (leaf : Leaf) : Option OpenGroups :=
  if leaf.opensBracket then
    if groups.depth < limit then some (groups.openBracket leaf) else none
  else if leaf.closesBracket && groups.depth != 0 then some (groups.push (.leaf leaf)).close
  else some (groups.push (.leaf leaf))

/-- The nodes of the whole text, given those of the innermost open bracket and those around it. -/
def closeAll (inner : List Node) : List (List Node) → List Node
  | [] => inner.reverse
  | around :: further => closeAll (.group .parenthesis inner.reverse :: around) further

end OpenGroups

/-- The leaves with a group for each bracket, or none if brackets nest deeper than the limit. -/
def nestBrackets (limit : Nat) (leaves : List Leaf) : Option (List Node) :=
  (leaves.foldlM (OpenGroups.read? limit) {}).map fun groups =>
    OpenGroups.closeAll groups.inner groups.outer

end SqlMetrics
