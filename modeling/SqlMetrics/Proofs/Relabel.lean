import SqlMetrics.Proofs.Barrier
import SqlMetrics.Proofs.Counting

/-! # Passes see nodes from outside

A pass looks at the kinds of nodes, at the text of keywords and marks, and at whether a literal is
a number.  A change of nodes that keeps this look commutes with every pass (`groupLevel_map`), also
if it changes what stands in brackets.  The counts of joins and of the columns of a clause look at
no more than that (`joins_map`, `clauseColumns_map`). -/
set_option autoImplicit false
namespace SqlMetrics

open Node

/-- A change of nodes that no pass can see. -/
structure KeepsLook (f : Node → Node) : Prop where
  leafKind : ∀ node, (f node).leafKind? = node.leafKind?
  groupKind : ∀ node, (f node).groupKind? = node.groupKind?
  isKeyword : ∀ node text, (f node).isKeyword text = node.isKeyword text
  isPunctuation : ∀ node text, (f node).isPunctuation text = node.isPunctuation text
  isNumber : ∀ node, isNumber (f node) = isNumber node
  group : ∀ kind children, kind ≠ .parenthesis →
    f (.group kind children) = .group kind (children.map f)

/-- A rule does the same before and after the change. -/
def Commutes (f : Node → Node) (rule : MergeRule) : Prop :=
  ∀ node rest, rule (f node) (rest.map f) = (f (rule node rest).1, (rule node rest).2)

theorem sweep_map {f : Node → Node} {rule : MergeRule} (commutes : Commutes f rule)
    (nodes : List Node) : sweep rule (nodes.map f) = (sweep rule nodes).map f := by
  induction nodes using sweep.induct rule with
  | case1 => rw [List.map_nil, sweep_nil, List.map_nil]
  | case2 node rest merged ih =>
      rw [List.map_cons, sweep_cons, commutes, ← List.map_drop, sweep_cons, List.map_cons, ih]

/-! ## Views through the look -/

theorem identifierParts_eq (node : Node) :
    identifierParts node =
      if node.isGroupOf .identifier then node.children?.getD [] else [node] := by
  rcases node with content | ⟨kind, children⟩
  · rfl
  · cases kind <;> rfl

theorem columns_eq (node : Node) :
    node.columns =
      if node.isGroupOf .identifierList then (members (node.children?.getD [])).length
      else if node.isGroupOf .identifier then 1 else 0 := by
  rcases node with content | ⟨kind, children⟩
  · rfl
  · cases kind <;> rfl

namespace KeepsLook

variable {f : Node → Node} (keeps : KeepsLook f)
include keeps

theorem isLeafOf (node : Node) (kind : LeafKind) : (f node).isLeafOf kind = node.isLeafOf kind := by
  rw [Node.isLeafOf, Node.isLeafOf, keeps.leafKind]

theorem isGroupOf (node : Node) (kind : GroupKind) :
    (f node).isGroupOf kind = node.isGroupOf kind := by
  rw [Node.isGroupOf, Node.isGroupOf, keeps.groupKind]

theorem isDirection (node : Node) :
    SqlMetrics.isDirection (f node) = SqlMetrics.isDirection node := by
  simp only [SqlMetrics.isDirection, keeps.isKeyword]

theorem isCastable (node : Node) : SqlMetrics.isCastable (f node) = SqlMetrics.isCastable node := by
  simp only [SqlMetrics.isCastable, keeps.isGroupOf, keeps.isLeafOf]

theorem isOperand (node : Node) : SqlMetrics.isOperand (f node) = SqlMetrics.isOperand node := by
  simp only [isOperand_eq, keeps.isGroupOf, keeps.isLeafOf, keeps.isKeyword]

theorem takesAlias (node : Node) : SqlMetrics.takesAlias (f node) = SqlMetrics.takesAlias node := by
  simp only [SqlMetrics.takesAlias, keeps.isGroupOf, keeps.isLeafOf]

theorem isListMember (node : Node) :
    SqlMetrics.isListMember (f node) = SqlMetrics.isListMember node := by
  simp only [isListMember_eq, keeps.isGroupOf, keeps.isLeafOf, keeps.isKeyword]

theorem closesWhere (node : Node) :
    SqlMetrics.closesWhere (f node) = SqlMetrics.closesWhere node := by
  have words : Node.isKeyword (f node) = Node.isKeyword node := funext (keeps.isKeyword node)
  rw [SqlMetrics.closesWhere, SqlMetrics.closesWhere, words, keeps.isPunctuation]

end KeepsLook

section Passes

variable {f : Node → Node} (keeps : KeepsLook f)
include keeps

/-! ## Extensions and tails -/

theorem identifierParts_map (node : Node) :
    identifierParts (f node) = (identifierParts node).map f := by
  rw [identifierParts_eq, identifierParts_eq, keeps.isGroupOf]
  split
  · next identifier =>
      obtain ⟨children, rfl⟩ := isGroupOf_iff.mp identifier
      rw [keeps.group _ _ (by decide)]
      rfl
  · rfl

theorem extend_map (node : Node) (tail : List Node) :
    extend (f node) (tail.map f) = f (extend node tail) := by
  rw [extend, extend, List.isEmpty_map]
  split
  · rfl
  · rw [keeps.group _ _ (by decide), List.map_append, identifierParts_map keeps]

theorem dottedTail_map (rest : List Node) :
    dottedTail (rest.map f) = (dottedTail rest).map f := by
  fun_induction dottedTail rest with
  | case1 => rfl
  | case2 dot isDot => simp [dottedTail, keeps.isPunctuation, isDot]
  | case3 dot noDot => simp [dottedTail, keeps.isPunctuation, noDot]
  | case4 dot part rest isDot isPart ih =>
      simp [dottedTail, keeps.isPunctuation, keeps.isLeafOf, isDot, isPart, ih]
  | case5 dot part rest isDot noPart =>
      simp [dottedTail, keeps.isPunctuation, keeps.isLeafOf, isDot, noPart]
  | case6 dot part rest noDot => simp [dottedTail, keeps.isPunctuation, noDot]

theorem castTail_map (rest : List Node) :
    castTail (rest.map f) = (castTail rest).map f := by
  fun_induction castTail rest with
  | case1 => rfl
  | case2 cast isCast => simp [castTail, keeps.isPunctuation, isCast]
  | case3 cast noCast => simp [castTail, keeps.isPunctuation, noCast]
  | case4 cast type rest isCast isType ih =>
      simp [castTail, keeps.isPunctuation, keeps.isGroupOf, isCast, isType, ih]
  | case5 cast type rest isCast noType =>
      simp [castTail, keeps.isPunctuation, keeps.isGroupOf, isCast, noType]
  | case6 cast type rest noCast => simp [castTail, keeps.isPunctuation, noCast]

theorem directionTail_map (rest : List Node) :
    directionTail (rest.map f) = (directionTail rest).map f := by
  have same : isDirection ∘ f = isDirection := funext keeps.isDirection
  rw [directionTail, directionTail, ← List.map_take, List.filter_map, same]

theorem aliasTail_map (node : Node) (rest : List Node) :
    aliasTail (f node) (rest.map f) = (aliasTail node rest).map f := by
  fun_cases aliasTail node rest <;>
    simp_all [aliasTail, keeps.isKeyword, keeps.isGroupOf, keeps.isLeafOf]

theorem listTail_map (rest : List Node) :
    listTail (rest.map f) = (listTail rest).map f := by
  fun_induction listTail rest with
  | case1 comma member rest separated ih =>
      simp [listTail, keeps.isPunctuation, keeps.isListMember, separated, ih]
  | case2 comma member rest other =>
      simp [listTail, keeps.isPunctuation, keeps.isListMember, other]
  | case3 rest short =>
      rcases rest with _ | ⟨comma, _ | ⟨member, further⟩⟩
      · rfl
      · rfl
      · exact absurd rfl (short comma member further)

/-! ## Rules and passes -/

theorem callRule_commutes : Commutes f callRule := by
  intro node rest
  cases rest with
  | nil => rfl
  | cons next further =>
      simp only [callRule, List.map_cons, keeps.isLeafOf, keeps.isGroupOf]
      split
      · simp [keeps.group]
      · rfl

theorem nameRule_commutes : Commutes f nameRule := by
  intro node rest
  simp only [nameRule, keeps.isLeafOf, dottedTail_map keeps, List.length_map]
  split
  · simp [keeps.group]
  · rfl

theorem castRule_commutes : Commutes f castRule := by
  intro node rest
  simp only [castRule, keeps.isCastable, keeps.isLeafOf, keeps.isNumber, castTail_map keeps,
    List.isEmpty_map, List.length_map, ← List.map_drop, directionTail_map keeps]
  split
  · split
    · rw [← List.map_append, extend_map keeps, List.length_map]
    · rw [List.append_nil, List.append_nil, extend_map keeps]
  · rfl

theorem comparisonRule_commutes : Commutes f comparisonRule := by
  intro node rest
  match rest with
  | [] => rfl
  | [_] => rfl
  | operator :: right :: further =>
      simp only [comparisonRule, List.map_cons, keeps.isOperand, keeps.isLeafOf]
      split
      · simp [keeps.group]
      · rfl

theorem aliasRule_commutes : Commutes f aliasRule := by
  intro node rest
  simp only [aliasRule, keeps.takesAlias, aliasTail_map keeps, List.length_map, extend_map keeps]
  split <;> rfl

theorem listRule_commutes : Commutes f listRule := by
  intro node rest
  simp only [listRule, keeps.isListMember, listTail_map keeps, List.isEmpty_map, List.length_map]
  split
  · split
    · rfl
    · simp [keeps.group]
  · rfl

theorem whereRule_commutes : Commutes f whereRule := by
  intro node rest
  have same : (fun next => !closesWhere next) ∘ f = fun next => !closesWhere next :=
    funext fun next => congrArg Bool.not (keeps.closesWhere next)
  simp only [whereRule, keeps.isKeyword, List.takeWhile_map, same, List.length_map]
  split
  · simp [keeps.group]
  · rfl

/-- All passes on one level commute with a change that they cannot see. -/
theorem groupLevel_map (nodes : List Node) :
    groupLevel (nodes.map f) = (groupLevel nodes).map f := by
  unfold groupLevel groupWhere groupLists groupAliases groupComparisons groupCasts groupNames
    groupCalls
  rw [sweep_map (callRule_commutes keeps), sweep_map (nameRule_commutes keeps),
    sweep_map (castRule_commutes keeps), sweep_map (comparisonRule_commutes keeps),
    sweep_map (aliasRule_commutes keeps), sweep_map (listRule_commutes keeps),
    sweep_map (whereRule_commutes keeps)]

/-! ## Counts on the top level -/

theorem joins_map (nodes : List Node) :
    (Statement.mk (nodes.map f)).joins = (Statement.mk nodes).joins := by
  have same : (fun node => Node.isKeyword node "JOIN") ∘ f = fun node => node.isKeyword "JOIN" :=
    funext fun node => keeps.isKeyword node "JOIN"
  rw [Statement.joins, List.countP_map, same, Statement.joins]

theorem columns_map (node : Node) : (f node).columns = node.columns := by
  have marks : (fun item => leafKind? item != some .punctuation) ∘ f =
      fun item => item.leafKind? != some .punctuation :=
    funext fun item => by rw [Function.comp_apply, keeps.leafKind]
  rw [columns_eq, columns_eq, keeps.isGroupOf, keeps.isGroupOf]
  split
  · next list =>
      obtain ⟨items, rfl⟩ := isGroupOf_iff.mp list
      rw [keeps.group _ _ (by decide)]
      simp only [children?, Option.getD_some, members, List.filter_map, marks, List.length_map]
  · rfl

theorem columnsInAll_map (nodes : List Node) :
    columnsInAll (nodes.map f) = columnsInAll nodes := by
  have each : columns ∘ f = columns := funext (columns_map keeps)
  rw [columnsInAll_eq_sum, List.map_map, each, columnsInAll_eq_sum]

theorem clauseColumns_map (name : String) (nodes : List Node) :
    clauseColumns name (nodes.map f) = clauseColumns name nodes := by
  have other : (fun node => !Node.isKeyword node name) ∘ f = fun node => !node.isKeyword name :=
    funext fun node => congrArg Bool.not (keeps.isKeyword node name)
  have goesOn : (fun node => !isAnyKeyword node) ∘ f = fun node => !node.isAnyKeyword :=
    funext fun node => congrArg Bool.not (keeps.isLeafOf node .keyword)
  have clause : clauseNodes name (nodes.map f) = (clauseNodes name nodes).map f := by
    rw [clauseNodes, clauseNodes, List.dropWhile_map, other, ← List.map_drop, List.takeWhile_map,
      goesOn]
  rw [clauseColumns, clause, columnsInAll_map keeps, clauseColumns]

end Passes
end SqlMetrics
