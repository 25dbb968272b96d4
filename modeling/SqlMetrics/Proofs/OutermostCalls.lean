import SqlMetrics.Proofs.Counting
import SqlMetrics.Proofs.Depth
import SqlMetrics.Proofs.Shape

/-! # Calls counted on the leaves

The calls of a statement are those of its leaves that open a bracket behind a name and stand within
no such bracket (`functions_eq_outermostCalls`).  `CallScan` finds them in one reading from left to
right, with a stack of the open brackets.  The passes move calls into identifiers, comparisons,
lists and clauses but never out of or into a call, so only the pass that forms calls matters
(`callsInAll_groupLevel`), and the open groups that `nestBrackets` goes through have a `CallScan`
of their own at each moment (`OpenGroups.scan`). -/
set_option autoImplicit false
namespace SqlMetrics

open Node

/-! ## Reading the leaves -/

/-- What is known of the leaves read so far: whether the last one is a name, for each open bracket,
from the inside out, whether a name stands right before it, and how many outermost calls there
were. -/
structure CallScan where
  afterName : Bool := false
  opened : List Bool := []
  outermost : Nat := 0
  deriving DecidableEq, Repr

/-- Reads a leaf.  A closing bracket that closes nothing is a leaf like any other mark. -/
def CallScan.read (scan : CallScan) (content : Leaf) : CallScan :=
  match content.bracket? with
  | some .opening =>
      { afterName := false
        opened := scan.afterName :: scan.opened
        outermost :=
          if scan.afterName && !scan.opened.any id then scan.outermost + 1 else scan.outermost }
  | some .closing => { scan with afterName := false, opened := scan.opened.tail }
  | none => { scan with afterName := content.kind = .name }

/-- The opening brackets right behind a name that stand in no bracket of this kind. -/
def outermostCalls (leaves : List Leaf) : Nat :=
  (leaves.foldl CallScan.read {}).outermost

/-! ## Calls of a level -/

theorem callsInAll_groupLevel (nodes : List Node) :
    callsInAll (groupLevel nodes) = callsInAll (groupCalls nodes) := by
  unfold groupLevel groupWhere groupLists groupAliases groupComparisons groupCasts groupNames
  rw [whereRule_wraps.callsInAll_sweep, listRule_wraps.callsInAll_sweep,
    aliasRule_wraps.callsInAll_sweep, comparisonRule_wraps.callsInAll_sweep,
    castRule_wraps.callsInAll_sweep, nameRule_wraps.callsInAll_sweep]

/-- The calls in a node, given whether a name stands right before it. -/
def callsAt (afterName : Bool) (node : Node) : Nat :=
  if afterName && node.isGroupOf .parenthesis then 1 else node.calls

def callsBehind (afterName : Bool) : List Node → Nat
  | [] => 0
  | node :: rest => callsAt afterName node + callsBehind (node.isLeafOf .name) rest

theorem callsAt_false (node : Node) : callsAt false node = node.calls := by
  rw [callsAt, Bool.false_and, if_neg Bool.false_ne_true]

theorem callsAt_leaf (afterName : Bool) (content : Leaf) :
    callsAt afterName (.leaf content) = 0 := by
  cases afterName <;> rfl

theorem callsAt_parenthesis (afterName : Bool) (children : List Node) :
    callsAt afterName (.group .parenthesis children) =
      if afterName then 1 else callsInAll children := by
  cases afterName <;> rfl

theorem callsBehind_callRule (node : Node) (rest : List Node) :
    (callRule node rest).1.calls + callsBehind false (rest.drop (callRule node rest).2) =
      callsBehind false (node :: rest) := by
  fun_cases callRule node rest with
  | case1 node next behind call =>
      obtain ⟨named, bracketed⟩ := Bool.and_eq_true_iff.mp call
      obtain ⟨content, rfl, -⟩ := isLeafOf_iff.mp named
      obtain ⟨children, rfl⟩ := isGroupOf_iff.mp bracketed
      rw [callsBehind, callsBehind, callsAt_leaf, named, callsAt_parenthesis, if_pos rfl, calls,
        Nat.zero_add]
      rfl
  | case2 node next behind noCall =>
      have same : callsAt (node.isLeafOf .name) next = callsAt false next := by
        rw [callsAt, if_neg noCall, callsAt_false]
      rw [List.drop_zero, callsBehind, callsBehind, callsBehind, callsAt_false node, same]
  | case3 node => rw [List.drop_nil, callsBehind, callsBehind, callsAt_false, callsBehind]

/-- The first pass makes a call of each name with brackets behind it. -/
theorem callsInAll_groupCalls (nodes : List Node) :
    callsInAll (groupCalls nodes) = callsBehind false nodes := by
  unfold groupCalls
  induction nodes using sweep.induct callRule with
  | case1 => rw [sweep_nil, callsInAll, callsBehind]
  | case2 node rest merged ih => rw [sweep_cons, callsInAll, ih, callsBehind_callRule]

/-! ## The nodes of an open level -/

def endsInName (level : List Node) : Bool :=
  level.head?.any (·.isLeafOf .name)

theorem isLeafOf_groupInside (node : Node) (kind : LeafKind) :
    (groupInside node).isLeafOf kind = node.isLeafOf kind := by
  rcases node with content | ⟨group, children⟩
  · rfl
  · cases group <;> rfl

/-- The calls of a level that was read, the last node first. -/
def levelCalls (level : List Node) : Nat :=
  callsBehind false (level.reverse.map groupInside)

theorem callsBehind_concat (afterName : Bool) (front : List Node) (node : Node) :
    callsBehind afterName (front ++ [node]) =
      callsBehind afterName front +
        callsAt ((front.getLast?.map (·.isLeafOf .name)).getD afterName) node := by
  induction front generalizing afterName with
  | nil => rw [List.nil_append, callsBehind, callsBehind, callsBehind, Nat.add_comm]; rfl
  | cons first rest ih =>
      rw [List.cons_append, callsBehind, ih, callsBehind, Nat.add_assoc, List.getLast?_cons]
      cases rest.getLast? <;> rfl

theorem levelCalls_cons (node : Node) (level : List Node) :
    levelCalls (node :: level) =
      levelCalls level + callsAt (endsInName level) (groupInside node) := by
  rw [levelCalls, List.reverse_cons, List.map_append, List.map_singleton, callsBehind_concat,
    levelCalls, List.getLast?_map, List.getLast?_reverse]
  cases level with
  | nil => rfl
  | cons last before => simp [endsInName, isLeafOf_groupInside]

/-- A level in brackets has its calls, unless it holds the arguments of one. -/
theorem callsAt_closed (afterName : Bool) (level : List Node) :
    callsAt afterName (groupInside (.group .parenthesis level.reverse)) =
      if afterName then 1 else levelCalls level := by
  rw [groupInside, callsAt_parenthesis, callsInAll_groupLevel, callsInAll_groupCalls,
    groupInsideAll_eq_map, levelCalls]

/-! ## Open groups are a scan -/

namespace OpenGroups

variable {limit : Nat} {groups next last : OpenGroups} {content : Leaf} {leaves : List Leaf}

/-- The calls of all nodes read so far, if the text ended here. -/
def callsSoFar (groups : OpenGroups) : Nat :=
  callsBehind false ((closeAll groups.inner groups.outer).map groupInside)

def scan (groups : OpenGroups) : CallScan where
  afterName := endsInName groups.inner
  opened := groups.outer.map endsInName
  outermost := groups.callsSoFar

/-- Another node in the innermost bracket adds its calls, unless a bracket around holds the
arguments of one. -/
theorem callsSoFar_push (node : Node) (outer : List (List Node)) :
    ∀ inner, callsSoFar ⟨node :: inner, outer⟩ =
      callsSoFar ⟨inner, outer⟩ +
        if outer.any endsInName then 0 else callsAt (endsInName inner) (groupInside node) := by
  induction outer generalizing node with
  | nil => exact levelCalls_cons node
  | cons around further ih =>
      intro inner
      have closed : ∀ level, callsSoFar ⟨level, around :: further⟩ =
          callsSoFar ⟨around, further⟩ +
            if further.any endsInName then 0 else
              if endsInName around then 1 else levelCalls level := by
        intro level
        rw [← callsAt_closed]
        exact ih (.group .parenthesis level.reverse) around
      rw [closed, closed, levelCalls_cons, List.any_cons]
      cases endsInName around <;> cases further.any endsInName <;> simp [Nat.add_assoc]

theorem callsSoFar_push_leaf (groups : OpenGroups) (content : Leaf) :
    (groups.push (.leaf content)).callsSoFar = groups.callsSoFar := by
  have added := callsSoFar_push (.leaf content) groups.outer groups.inner
  rwa [groupInside, callsAt_leaf, ite_self, Nat.add_zero] at added
  exact fun _ => Node.noConfusion

theorem callsSoFar_openBracket (groups : OpenGroups) (bracket : Leaf) :
    (groups.openBracket bracket).callsSoFar =
      if endsInName groups.inner && !groups.outer.any endsInName then groups.callsSoFar + 1
      else groups.callsSoFar := by
  have added := callsSoFar_push (.group .parenthesis [.leaf bracket]) groups.outer groups.inner
  have alone : levelCalls [.leaf bracket] = 0 := by cases bracket; rfl
  have opened := callsAt_closed (endsInName groups.inner) [.leaf bracket]
  rw [List.reverse_singleton, alone] at opened
  rw [opened] at added
  refine Eq.trans added ?_
  cases endsInName groups.inner <;> cases groups.outer.any endsInName <;> rfl

theorem scan_push (groups : OpenGroups) (content : Leaf) :
    (groups.push (.leaf content)).scan =
      { groups.scan with afterName := content.kind = .name } := by
  have last : endsInName (.leaf content :: groups.inner) = decide (content.kind = .name) := by
    simp [endsInName, isLeafOf, leafKind?]
  rw [scan, callsSoFar_push_leaf, push, last]
  rfl

theorem scan_openBracket (groups : OpenGroups) {content : Leaf}
    (kind : content.bracket? = some .opening) :
    (groups.openBracket content).scan = groups.scan.read content := by
  have mark : endsInName [.leaf content] = false := by
    simp [endsInName, isLeafOf, leafKind?, kind_of_bracket kind]
  have around : groups.scan.opened.any id = groups.outer.any endsInName := by
    rw [scan, List.any_map, Function.id_comp]
  rw [CallScan.read, kind, around, scan, callsSoFar_openBracket, openBracket, mark]
  rfl

theorem scan_closing (groups : OpenGroups) {content : Leaf}
    (kind : content.bracket? = some .closing) :
    (groups.closing content).scan = groups.scan.read content := by
  have pushed := groups.scan_push content
  rw [kind_of_bracket kind] at pushed
  rw [CallScan.read, kind]
  obtain ⟨inner, outer⟩ := groups
  cases outer with
  | nil => exact pushed
  | cons around further =>
      have total := congrArg CallScan.outermost pushed
      exact congrArg (CallScan.mk false (further.map endsInName)) total

theorem scan_read (read : groups.read? limit content = some next) :
    next.scan = groups.scan.read content := by
  rw [read_eq] at read
  cases kind : content.bracket? with
  | none =>
      rw [kind] at read
      cases read
      rw [CallScan.read, kind, scan_push]
  | some bracket =>
      rw [kind] at read
      cases bracket with
      | opening =>
          dsimp only at read
          split at read
          · cases read
            exact groups.scan_openBracket kind
          · cases read
      | closing =>
          cases read
          exact groups.scan_closing kind

theorem scan_run (run : Reads limit groups leaves last) :
    last.scan = leaves.foldl CallScan.read groups.scan := by
  induction run with
  | done => rfl
  | read here _ ih => rw [ih, scan_read here, List.foldl_cons]

end OpenGroups

/-- The calls of an accepted list of leaves are its outermost calls, wherever they are grouped. -/
theorem functions_eq_outermostCalls {leaves : List Leaf} {statement : Statement}
    (accepted : Statement.ofLeaves leaves = .ok statement) :
    statement.functions = outermostCalls leaves := by
  obtain ⟨nested, nests, rfl⟩ := nested_of_ofLeaves accepted
  obtain ⟨last, run, rfl⟩ := reads_of_nested nests
  have scanned := OpenGroups.scan_run run
  rw [Statement.functions, groupNodes, callsInAll_groupLevel, callsInAll_groupCalls,
    groupInsideAll_eq_map]
  exact congrArg CallScan.outermost scanned

/-- Calls beside an unmatched bracket, in a cast, within the arguments of another call, in a
subquery of a clause, and one that stays open. -/
theorem outermostCalls_everywhere :
    ∃ leaves statement, leaves =
        [⟨.verb, "SELECT"⟩, .name "f", .punctuation "(", .name "g", .punctuation "(",
          .name "a", .punctuation ")", .punctuation ")", .punctuation "::", .name "t",
          .punctuation "(", .literal "1", .punctuation ")", .punctuation ")", .keyword "WHERE",
          .punctuation "(", .name "h", .punctuation "(", .punctuation ")", .punctuation ")",
          .comparison "=", .name "k", .punctuation "(", .punctuation "(", .name "m",
          .punctuation "("] ∧
      Statement.ofLeaves leaves = .ok statement ∧ statement.functions = outermostCalls leaves ∧
      outermostCalls leaves = 4 :=
  ⟨_, _, rfl, rfl, functions_eq_outermostCalls rfl, by decide⟩

end SqlMetrics
