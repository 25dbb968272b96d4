import Mathlib.Algebra.GroupWithZero.Nat
import SqlMetrics.Features.Counters
import SqlMetrics.Proofs.Leaves

/-! # Counting over lists of nodes

Every counter goes through a list of nodes from left to right, so what it counts in two lists one
after the other follows from what it counts in each. -/
set_option autoImplicit false
namespace SqlMetrics
namespace Node

variable {front : List Node}

/-! ## Counts of a list are sums -/

theorem callsInAll_eq_sum (nodes : List Node) : callsInAll nodes = (nodes.map calls).sum := by
  induction nodes with
  | nil => rfl
  | cons node rest ih => rw [callsInAll, ih, List.map_cons, List.sum_cons]

theorem conditionsInAll_eq_sum (nodes : List Node) :
    conditionsInAll nodes = (nodes.map conditions).sum := by
  induction nodes with
  | nil => rfl
  | cons node rest ih => rw [conditionsInAll, ih, List.map_cons, List.sum_cons]

theorem selectsInAll_eq_sum (nodes : List Node) : selectsInAll nodes = (nodes.map selects).sum := by
  induction nodes with
  | nil => rfl
  | cons node rest ih => rw [selectsInAll, ih, List.map_cons, List.sum_cons]

theorem columnsInAll_eq_sum (nodes : List Node) : columnsInAll nodes = (nodes.map columns).sum := by
  induction nodes with
  | nil => rfl
  | cons node rest ih => rw [columnsInAll, ih, List.map_cons, List.sum_cons]

/-! ## Calls and conditions -/

theorem callsInAll_append (front back : List Node) :
    callsInAll (front ++ back) = callsInAll front + callsInAll back := by
  simp only [callsInAll_eq_sum, List.map_append, List.sum_append]

theorem calls_group {kind : GroupKind} (noCall : kind ≠ .function) (children : List Node) :
    (Node.group kind children).calls = callsInAll children := by
  cases kind <;> first | rfl | exact absurd rfl noCall

theorem callsInAll_eq_zero (noCalls : ∀ node ∈ front, node.calls = 0) : callsInAll front = 0 := by
  induction front with
  | nil => rfl
  | cons node rest ih =>
      have behind := ih fun other member => noCalls other (List.mem_cons_of_mem _ member)
      rw [callsInAll, noCalls node List.mem_cons_self, behind]

theorem callsInAll_leaves (leaves : List Leaf) : callsInAll (leaves.map .leaf) = 0 := by
  refine callsInAll_eq_zero fun node member => ?_
  obtain ⟨content, -, rfl⟩ := List.mem_map.mp member
  rw [calls]

theorem conditionsInAll_append (front back : List Node) :
    conditionsInAll (front ++ back) = conditionsInAll front + conditionsInAll back := by
  simp only [conditionsInAll_eq_sum, List.map_append, List.sum_append]

end Node

open Node

/-- The node that is made has the calls of all nodes it is made of. -/
theorem Wrapped.calls {node merged : Node} {taken : List Node}
    (wrapped : Wrapped node taken merged) : merged.calls = node.calls + callsInAll taken := by
  cases wrapped with
  | alone => rw [callsInAll, Nat.add_zero]
  | group noCall => rw [calls_group noCall, callsInAll]
  | extended => rw [calls_group (by decide), calls_group (by decide), callsInAll_append]

/-- Passes that wrap nodes make, hide and open no call. -/
theorem Wraps.callsInAll_sweep {rule : MergeRule} (wraps : Wraps rule) (nodes : List Node) :
    callsInAll (sweep rule nodes) = callsInAll nodes := by
  induction nodes using sweep.induct rule with
  | case1 => rw [sweep_nil]
  | case2 node rest merged ih =>
      rw [sweep_cons, callsInAll, (wraps node rest).calls, ih, callsInAll, Nat.add_assoc,
        ← callsInAll_append, List.take_append_drop]

/-! ## Subqueries -/

def Leaf.isSelect (content : Leaf) : Bool :=
  content.kind = .verb && sameLetters content.text "SELECT"

namespace Node

variable {front : List Node}

theorem selectsInAll_eq_countP {nodes : List Node}
    (each : ∀ node ∈ nodes, node.selects = node.leaves.countP Leaf.isSelect) :
    selectsInAll nodes = (leavesOfAll nodes).countP Leaf.isSelect := by
  induction nodes with
  | nil => rfl
  | cons node rest ih =>
      have behind := ih fun other member => each other (List.mem_cons_of_mem _ member)
      rw [selectsInAll, leavesOfAll_cons, List.countP_append, each node List.mem_cons_self, behind]

theorem selects_eq_countP (node : Node) : node.selects = node.leaves.countP Leaf.isSelect := by
  induction node with
  | leaf content =>
      rw [selects, leaves_leaf, List.countP_singleton]
      rfl
  | group kind children ih => rw [selects, leaves_group, selectsInAll_eq_countP ih]

theorem selectsInAll_eq (nodes : List Node) :
    selectsInAll nodes = (leavesOfAll nodes).countP Leaf.isSelect :=
  selectsInAll_eq_countP fun node _ => node.selects_eq_countP

/-! ## Tables -/

theorem tablesBefore_append (noFrom : ∀ node ∈ front, node.isKeyword "FROM" = false)
    (back : List Node) : tablesBefore (front ++ back) = tablesBefore back := by
  induction front with
  | nil => rfl
  | cons node rest ih =>
      have here := noFrom node List.mem_cons_self
      have behind := ih fun other member => noFrom other (List.mem_cons_of_mem _ member)
      rw [List.cons_append, tablesBefore, here, if_neg Bool.false_ne_true, behind]

theorem tablesBefore_eq_zero (noFrom : ∀ node ∈ front, node.isKeyword "FROM" = false) :
    tablesBefore front = 0 := by
  have all := tablesBefore_append noFrom []
  rwa [List.append_nil, tablesBefore] at all

theorem tablesWithin_cons {node : Node} (goesOn : node.closesFrom = false) (rest : List Node) :
    tablesWithin (node :: rest) = node.tables + tablesWithin rest := by
  rw [tablesWithin, goesOn, if_neg Bool.false_ne_true]

theorem tablesWithin_append (front back : List Node) :
    tablesWithin (front ++ back) =
      tablesWithin front + if front.any closesFrom then 0 else tablesWithin back := by
  induction front with
  | nil => simp [tablesWithin]
  | cons node rest ih =>
      rw [List.cons_append, tablesWithin, tablesWithin, List.any_cons]
      cases closes : node.closesFrom with
      | true => simp
      | false => simp [ih, Nat.add_assoc]

theorem tablesWithin_concat {last : Node} (noTables : last.tables = 0) (front : List Node) :
    tablesWithin (front ++ [last]) = tablesWithin front := by
  induction front with
  | nil => simp [tablesWithin, noTables]
  | cons node rest ih => rw [List.cons_append, tablesWithin, ih, tablesWithin]

theorem tablesBefore_concat {last : Node} (noTables : last.tables = 0) (front : List Node) :
    tablesBefore (front ++ [last]) = tablesBefore front := by
  induction front with
  | nil => simp [tablesBefore, tablesWithin]
  | cons node rest ih =>
      rw [List.cons_append, tablesBefore, tablesWithin_concat noTables, ih, tablesBefore]

/-! ## Columns of a clause -/

theorem clauseNodes_append {name : String} (absent : ∀ node ∈ front, node.isKeyword name = false)
    (back : List Node) : clauseNodes name (front ++ back) = clauseNodes name back := by
  rw [clauseNodes, clauseNodes, List.dropWhile_append_of_pos]
  intro node member
  rw [absent node member, Bool.not_false]

theorem clauseColumns_append {name : String} (absent : ∀ node ∈ front, node.isKeyword name = false)
    (back : List Node) : clauseColumns name (front ++ back) = clauseColumns name back := by
  rw [clauseColumns, clauseNodes_append absent, clauseColumns]

theorem clauseColumns_eq_zero {name : String}
    (absent : ∀ node ∈ front, node.isKeyword name = false) : clauseColumns name front = 0 := by
  have all := clauseColumns_append absent []
  rwa [List.append_nil] at all

theorem clauseColumns_single {name : String} {word node : Node} {back : List Node}
    (named : word.isKeyword name = true) (noKeyword : node.isAnyKeyword = false)
    (ends : ∀ next ∈ back.head?, next.isAnyKeyword = true) :
    clauseColumns name (word :: node :: back) = node.columns := by
  have stops : back.takeWhile (fun node => !node.isAnyKeyword) = [] := by
    cases back with
    | nil => rfl
    | cons next rest => exact List.takeWhile_cons_of_neg (by simp [ends next rfl])
  rw [clauseColumns, clauseNodes, List.dropWhile_cons_of_neg (by simp [named]), List.drop_succ_cons,
    List.drop_zero, List.takeWhile_cons_of_pos (by simp [noKeyword]), stops, columnsInAll,
    columnsInAll, Nat.add_zero]

end Node

open Node in
/-- The subqueries of a statement are the `SELECT` verbs among its leaves, but for its own. -/
theorem subqueries_ofLeaves {leaves : List Leaf} {statement : Statement} (filled : leaves ≠ [])
    (accepted : Statement.ofLeaves leaves = .ok statement) :
    statement.subqueries = (leaves.countP Leaf.isSelect : Int) - 1 := by
  have same := leavesOfAll_ofLeaves accepted
  have someNodes : ¬ statement.nodes.isEmpty = true := by
    intro empty
    rw [List.isEmpty_iff.mp empty, leavesOfAll_nil] at same
    exact filled same.symm
  rw [Statement.subqueries, if_neg someNodes, selectsInAll_eq, same]

end SqlMetrics
