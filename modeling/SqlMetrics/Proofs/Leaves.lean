import SqlMetrics.Proofs.Sweep
import SqlMetrics.Proofs.Tree
import SqlMetrics.Statement

/-! # No step loses a leaf

Nesting brackets and each pass keep the leaves, in their order: `leavesOfAll_nested` for the
brackets, `leavesOfAll_sweep` for any rule that puts the taken nodes behind its own node, and
`leavesOfAll_groupNodes` for the passes together on all levels. -/
set_option autoImplicit false
namespace SqlMetrics

open Node

/-! ## Passes -/

/-- The merged node has the leaves of the node, then those of the nodes it takes. -/
def KeepsLeaves (rule : MergeRule) : Prop :=
  ∀ node rest,
    (rule node rest).1.leaves = node.leaves ++ leavesOfAll (rest.take (rule node rest).2)

theorem leavesOfAll_sweep {rule : MergeRule} (keeps : KeepsLeaves rule) (nodes : List Node) :
    leavesOfAll (sweep rule nodes) = leavesOfAll nodes := by
  induction nodes using sweep.induct rule with
  | case1 => rw [sweep_nil]
  | case2 node rest merged ih =>
      rw [sweep_cons, leavesOfAll_cons, keeps node rest, ih, leavesOfAll_cons, List.append_assoc,
        ← leavesOfAll_append, List.take_append_drop]

theorem callRule_keepsLeaves : KeepsLeaves callRule := by
  intro node rest
  fun_cases callRule node rest <;> simp

theorem Wraps.keepsLeaves {rule : MergeRule} (wraps : Wraps rule) : KeepsLeaves rule := by
  intro node rest
  have wrapped := wraps node rest
  generalize (rule node rest).1 = merged, rest.take (rule node rest).2 = taken at wrapped ⊢
  cases wrapped with
  | alone => rw [leavesOfAll_nil, List.append_nil]
  | group => rw [leaves_group, leavesOfAll_cons]
  | extended => rw [leaves_group, leavesOfAll_append, leaves_group]

theorem leavesOfAll_groupLevel (nodes : List Node) :
    leavesOfAll (groupLevel nodes) = leavesOfAll nodes := by
  unfold groupLevel groupWhere groupLists groupAliases groupComparisons groupCasts groupNames
    groupCalls
  rw [leavesOfAll_sweep whereRule_wraps.keepsLeaves, leavesOfAll_sweep listRule_wraps.keepsLeaves,
    leavesOfAll_sweep aliasRule_wraps.keepsLeaves,
    leavesOfAll_sweep comparisonRule_wraps.keepsLeaves,
    leavesOfAll_sweep castRule_wraps.keepsLeaves, leavesOfAll_sweep nameRule_wraps.keepsLeaves,
    leavesOfAll_sweep callRule_keepsLeaves]

theorem leavesOfAll_map {change : Node → Node} (nodes : List Node)
    (keeps : ∀ node ∈ nodes, (change node).leaves = node.leaves) :
    leavesOfAll (nodes.map change) = leavesOfAll nodes := by
  induction nodes with
  | nil => rw [List.map_nil]
  | cons node rest ih =>
      rw [List.map_cons, leavesOfAll_cons, leavesOfAll_cons, keeps node List.mem_cons_self,
        ih fun next member => keeps next (List.mem_cons_of_mem _ member)]

theorem leaves_groupInside (node : Node) : (groupInside node).leaves = node.leaves := by
  induction node with
  | leaf content => simp [groupInside]
  | group kind children ih =>
      have inside := leavesOfAll_map children ih
      cases kind with
      | parenthesis =>
          rw [groupInside, leaves_group, leavesOfAll_groupLevel, groupInsideAll_eq_map, inside,
            leaves_group]
      | _ => simp [groupInside]

theorem leavesOfAll_groupNodes (nodes : List Node) :
    leavesOfAll (groupNodes nodes) = leavesOfAll nodes := by
  rw [groupNodes, leavesOfAll_groupLevel, groupInsideAll_eq_map]
  exact leavesOfAll_map nodes fun node _ => leaves_groupInside node

/-! ## Brackets -/

namespace OpenGroups

/-- Reading the leaves leads from some open groups to others. -/
inductive Reads (limit : Nat) : OpenGroups → List Leaf → OpenGroups → Prop where
  | done {groups : OpenGroups} : Reads limit groups [] groups
  | read {groups next last : OpenGroups} {content : Leaf} {rest : List Leaf}
      (here : groups.read? limit content = some next) (behind : Reads limit next rest last) :
      Reads limit groups (content :: rest) last

theorem reads_of_foldlM {limit : Nat} {last : OpenGroups} (leaves : List Leaf) :
    ∀ {groups}, leaves.foldlM (read? limit) groups = some last →
      Reads limit groups leaves last := by
  induction leaves with
  | nil =>
      intro groups run
      cases Option.some.inj run
      exact .done
  | cons content rest ih =>
      intro groups run
      rw [List.foldlM_cons] at run
      obtain ⟨next, here, run⟩ := Option.bind_eq_some_iff.mp run
      exact .read here (ih run)

/-- The leaves of some levels, of which the innermost comes first, as do the last nodes of each. -/
def levelLeaves : List (List Node) → List Leaf
  | [] => []
  | level :: around => levelLeaves around ++ leavesOfAll level.reverse

def readLeaves (groups : OpenGroups) : List Leaf :=
  levelLeaves (groups.inner :: groups.outer)

theorem readLeaves_push (groups : OpenGroups) (node : Node) :
    (groups.push node).readLeaves = groups.readLeaves ++ node.leaves := by
  simp [readLeaves, push, levelLeaves]

theorem readLeaves_openBracket (groups : OpenGroups) (bracket : Leaf) :
    (groups.openBracket bracket).readLeaves = groups.readLeaves ++ [bracket] := by
  simp [readLeaves, openBracket, levelLeaves]

theorem readLeaves_close (groups : OpenGroups) : groups.close.readLeaves = groups.readLeaves := by
  obtain ⟨inner, outer⟩ := groups
  cases outer with
  | nil => rfl
  | cons around further => simp [readLeaves, close, levelLeaves]

theorem readLeaves_read {limit : Nat} {groups next : OpenGroups} {content : Leaf}
    (read : groups.read? limit content = some next) :
    next.readLeaves = groups.readLeaves ++ [content] := by
  unfold read? at read
  split at read
  · split at read
    · cases read
      exact readLeaves_openBracket groups content
    · cases read
  · split at read
    · cases read
      rw [readLeaves_close, readLeaves_push, leaves_leaf]
    · cases read
      rw [readLeaves_push, leaves_leaf]

theorem readLeaves_run {limit : Nat} {groups last : OpenGroups} {leaves : List Leaf}
    (run : Reads limit groups leaves last) : last.readLeaves = groups.readLeaves ++ leaves := by
  induction run with
  | done => rw [List.append_nil]
  | read here _ ih => rw [ih, readLeaves_read here, List.append_assoc, List.singleton_append]

theorem leavesOfAll_closeAll (outer : List (List Node)) :
    ∀ inner, leavesOfAll (closeAll inner outer) = levelLeaves (inner :: outer) := by
  induction outer with
  | nil => intro inner; simp [closeAll, levelLeaves]
  | cons around further ih =>
      intro inner
      rw [closeAll, ih]
      simp [levelLeaves]

end OpenGroups

/-- Nested leaves are what closing all groups behind them yields. -/
theorem reads_of_nested {limit : Nat} {leaves : List Leaf} {nested : List Node}
    (nests : nestBrackets limit leaves = some nested) :
    ∃ last, OpenGroups.Reads limit {} leaves last ∧
      OpenGroups.closeAll last.inner last.outer = nested := by
  obtain ⟨last, run, closed⟩ := Option.map_eq_some_iff.mp nests
  exact ⟨last, OpenGroups.reads_of_foldlM leaves run, closed⟩

theorem leavesOfAll_nested {limit : Nat} {leaves : List Leaf} {nested : List Node}
    (nests : nestBrackets limit leaves = some nested) : leavesOfAll nested = leaves := by
  obtain ⟨last, run, rfl⟩ := reads_of_nested nests
  rw [OpenGroups.leavesOfAll_closeAll]
  exact OpenGroups.readLeaves_run run

/-! ## Accepted leaves -/

section Accepted
variable {leaves : List Leaf} {statement : Statement}

theorem nested_of_ofLeaves (accepted : Statement.ofLeaves leaves = .ok statement) :
    ∃ nested, nestBrackets nestingLimit leaves = some nested ∧
      statement = ⟨groupNodes nested⟩ := by
  unfold Statement.ofLeaves at accepted
  split at accepted
  · cases accepted
  case h_2 nested nests =>
    cases accepted
    exact ⟨nested, nests, rfl⟩

theorem leavesOfAll_ofLeaves (accepted : Statement.ofLeaves leaves = .ok statement) :
    leavesOfAll statement.nodes = leaves := by
  obtain ⟨nested, nests, rfl⟩ := nested_of_ofLeaves accepted
  exact (leavesOfAll_groupNodes nested).trans (leavesOfAll_nested nests)

end Accepted

end SqlMetrics
