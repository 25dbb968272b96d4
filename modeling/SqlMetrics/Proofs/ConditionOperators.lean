import Mathlib.Algebra.Order.BigOperators.Group.List
import Mathlib.Algebra.Order.Group.Nat
import SqlMetrics.Proofs.ComparisonLeaves
import SqlMetrics.Proofs.Counting

/-! # Every operator of a clause is charged once

Whether an operator was merged into a comparison, then into a list, or stayed alone depends on both
its neighbours.  The conditions of a clause are at most its operators and its words `BETWEEN` and
`IN`.  Where the clause has no brackets they are all of these words and all operators of ordering
and equality, and of the other operators those that were merged (`whereConditions_charged`). -/
set_option autoImplicit false
namespace SqlMetrics

namespace Node

mutual

/-- The operators inside comparisons that are conditions only there. -/
def groupedOthers : Node → Nat
  | .leaf _ => 0
  | .group .comparison children => (leavesOfAll children).countP Leaf.isOther
  | .group _ children => groupedOthersInAll children

def groupedOthersInAll : List Node → Nat
  | [] => 0
  | node :: rest => node.groupedOthers + groupedOthersInAll rest

end

end Node

open Node

namespace Node
variable {node : Node} {nodes children : List Node}

/-! ## At most the operators -/

/-- All leaves of the node are told from operators by their looks. -/
def Distinct (node : Node) : Prop :=
  ∀ content ∈ node.leaves, content.Distinct

theorem Distinct.child {kind : GroupKind} (distinct : (Node.group kind children).Distinct)
    {child : Node} (member : child ∈ children) : child.Distinct :=
  fun content inside => distinct content (mem_leaves_group member inside)

/-- The operators among some leaves, with the words `BETWEEN` and `IN`. -/
def operators (leaves : List Leaf) : Nat :=
  leaves.countP Leaf.isComparison + leaves.countP Leaf.isRange

theorem operators_leavesOfAll (nodes : List Node) :
    operators (leavesOfAll nodes) = (nodes.map fun node => operators node.leaves).sum := by
  induction nodes with
  | nil => rfl
  | cons node rest ih =>
      rw [List.map_cons, List.sum_cons, ← ih]
      simp only [operators, leavesOfAll_cons, List.countP_append]
      omega

theorem countP_comparison_le (items : List Node) :
    items.countP (·.isGroupOf .comparison) ≤ conditionsInAll items := by
  induction items with
  | nil => exact Nat.le_refl 0
  | cons item rest ih =>
      rw [List.countP_cons, conditionsInAll]
      split
      · next comparison =>
          obtain ⟨children, rfl⟩ := isGroupOf_iff.mp comparison
          rw [conditions]
          omega
      · omega

theorem conditionsInAll_le_operators
    (each : ∀ node ∈ nodes, node.conditions ≤ operators node.leaves) :
    conditionsInAll nodes ≤ operators (leavesOfAll nodes) := by
  rw [conditionsInAll_eq_sum, operators_leavesOfAll]
  exact List.sum_le_sum each

theorem conditions_le_operators (shaped : node.Shaped) (distinct : node.Distinct) :
    node.conditions ≤ operators node.leaves := by
  induction node with
  | leaf content =>
      have known := distinct content (by simp)
      have ordering : [content].countP Leaf.isOrdering ≤ [content].countP Leaf.isComparison := by
        refine List.countP_mono_left fun other member => ?_
        rw [List.mem_singleton.mp member]
        exact known.isComparison_of_isOrdering
      rw [conditions, leaves_leaf, known.leafConditions_eq, operators]
      omega
  | group kind children ih =>
      obtain ⟨here, below⟩ := everywhere_group_iff.mp shaped
      have inside := conditionsInAll_le_operators fun child member =>
        ih child member (below child member) (distinct.child member)
      rw [leaves_group]
      cases kind with
      | comparison =>
          obtain ⟨left, operator, right, rfl, -, isOperator, -⟩ := here
          obtain ⟨content, rfl, kind⟩ := isLeafOf_iff.mp isOperator
          have found : 0 < (leavesOfAll [left, .leaf content, right]).countP Leaf.isComparison :=
            List.countP_pos_iff.mpr ⟨content, by simp, by simp [Leaf.isComparison, kind]⟩
          rw [conditions, operators]
          omega
      | parenthesis => exact inside
      | identifierList => exact (countP_comparison_le children).trans inside
      | _ => exact Nat.zero_le _

/-! ## Nodes without brackets -/

def Flat (node : Node) : Prop :=
  .punctuation "(" ∉ node.leaves

theorem Flat.child {kind : GroupKind} (flat : (Node.group kind children).Flat) {child : Node}
    (member : child ∈ children) : child.Flat :=
  fun inside => flat (mem_leaves_group member inside)

theorem not_flat_parenthesis (shape : ParenthesisShape children) :
    ¬ (Node.group .parenthesis children).Flat := by
  obtain ⟨inside, closing, rfl, -⟩ := shape
  intro flat
  exact flat (by simp)

theorem not_flat_function (shaped : (Node.group .function children).Shaped) :
    ¬ (Node.group .function children).Flat := by
  obtain ⟨here, below⟩ := everywhere_group_iff.mp shaped
  obtain ⟨name, arguments, rfl⟩ := here
  have last : Node.group .parenthesis arguments ∈
      [.group .identifier [.leaf (.name name)], .group .parenthesis arguments] := by simp
  exact fun flat => not_flat_parenthesis (below _ last).here (flat.child last)

/-- No leaf of the node is a condition or an operator. -/
def IsSilent (node : Node) : Prop :=
  ∀ content ∈ node.leaves, content.IsSilent

theorem isSilent_leaf {content : Leaf} (silent : content.IsSilent) :
    (Node.leaf content).IsSilent := by
  intro other member
  rw [leaves_leaf] at member
  rwa [List.mem_singleton.mp member]

theorem isSilent_of_isLeafOf {kind : LeafKind} (leaf : node.isLeafOf kind = true)
    (quiet : kind ∉ [.keyword, .comparison]) : node.IsSilent := by
  obtain ⟨content, rfl, rfl⟩ := isLeafOf_iff.mp leaf
  exact isSilent_leaf (Leaf.isSilent_of_kind quiet)

theorem isSilent_of_isKeyword {text : String} (word : node.isKeyword text = true)
    (quiet : ∀ range ∈ conditionKeywords, sameLetters range text = false) : node.IsSilent := by
  obtain ⟨content, rfl, -⟩ := isLeafOf_iff.mp (isLeafOf_of_isKeyword word)
  exact isSilent_leaf (Leaf.isSilent_of_isKeyword word quiet)

theorem isSilent_of_isPunctuation {text : String} (mark : node.isPunctuation text = true) :
    node.IsSilent :=
  isSilent_of_isLeafOf (isLeafOf_of_isPunctuation mark) (by decide)

theorem isSilent_group {kind : GroupKind} (each : ∀ child ∈ children, child.IsSilent) :
    (Node.group kind children).IsSilent := by
  intro content member
  rw [leaves_group] at member
  obtain ⟨child, inChildren, inside⟩ := mem_leavesOfAll.mp member
  exact each child inChildren content inside

section Flat
variable (shaped : node.Shaped) (flat : node.Flat)
include shaped flat

theorem isGroupOf_parenthesis_eq_false : node.isGroupOf .parenthesis = false := by
  by_contra group
  obtain ⟨children, rfl⟩ := isGroupOf_iff.mp (by simpa using group)
  exact not_flat_parenthesis shaped.here flat

theorem isGroupOf_function_eq_false : node.isGroupOf .function = false := by
  by_contra group
  obtain ⟨children, rfl⟩ := isGroupOf_iff.mp (by simpa using group)
  exact not_flat_function shaped flat

theorem isSilent_identifier (identifier : node.isGroupOf .identifier = true) : node.IsSilent := by
  induction node with
  | leaf content => cases identifier
  | group kind children ih =>
      obtain ⟨here, below⟩ := everywhere_group_iff.mp shaped
      obtain ⟨others, same⟩ := isGroupOf_iff.mp identifier
      cases same
      obtain ⟨head, tail, rfl, begins, parts⟩ := here
      refine isSilent_group fun child member => ?_
      have noCall := isGroupOf_function_eq_false (below child member) (flat.child member)
      have noBracket := isGroupOf_parenthesis_eq_false (below child member) (flat.child member)
      rcases List.mem_cons.mp member with rfl | inTail
      · rcases begins with name | literal | function | parenthesis
        · exact isSilent_of_isLeafOf name (by decide)
        · exact isSilent_of_isLeafOf literal (by decide)
        · exact absurd function (by simp [noCall])
        · exact absurd parenthesis (by simp [noBracket])
      · rcases parts child inTail with
          period | cast | name | wildcard | inner | function | as_ | asc | desc
        · exact isSilent_of_isPunctuation period
        · exact isSilent_of_isPunctuation cast
        · exact isSilent_of_isLeafOf name (by decide)
        · exact isSilent_of_isLeafOf wildcard (by decide)
        · exact ih child member (below child member) (flat.child member) inner
        · exact absurd function (by simp [noCall])
        · exact isSilent_of_isKeyword as_ (by decide)
        · exact isSilent_of_isKeyword asc (by decide)
        · exact isSilent_of_isKeyword desc (by decide)

theorem isSilent_operand (operand : node.Operand) : node.IsSilent := by
  have noCall := isGroupOf_function_eq_false shaped flat
  have noBracket := isGroupOf_parenthesis_eq_false shaped flat
  rcases operand with identifier | function | parenthesis | literal | null | true_ | false_
  · exact isSilent_identifier shaped flat identifier
  · exact absurd function (by simp [noCall])
  · exact absurd parenthesis (by simp [noBracket])
  · exact isSilent_of_isLeafOf literal (by decide)
  · exact isSilent_of_isKeyword null (by decide)
  · exact isSilent_of_isKeyword true_ (by decide)
  · exact isSilent_of_isKeyword false_ (by decide)

theorem isSilent_member (inList : node.Member) (alone : node.isGroupOf .comparison = false) :
    node.IsSilent := by
  have noCall := isGroupOf_function_eq_false shaped flat
  have noBracket := isGroupOf_parenthesis_eq_false shaped flat
  rcases inList with identifier | function | parenthesis | comparison | literal | wildcard | null
  · exact isSilent_identifier shaped flat identifier
  · exact absurd function (by simp [noCall])
  · exact absurd parenthesis (by simp [noBracket])
  · exact absurd comparison (by simp [alone])
  · exact isSilent_of_isLeafOf literal (by decide)
  · exact isSilent_of_isLeafOf wildcard (by decide)
  · exact isSilent_of_isKeyword null (by decide)

end Flat

/-! ## Exactly the operators that are charged -/

/-- The two words and the orderings among the leaves, and the other operators in comparisons. -/
def charged (node : Node) : Nat :=
  node.leaves.countP Leaf.isRange + node.leaves.countP Leaf.isOrdering + node.groupedOthers

def chargedInAll (nodes : List Node) : Nat :=
  (leavesOfAll nodes).countP Leaf.isRange + (leavesOfAll nodes).countP Leaf.isOrdering
    + groupedOthersInAll nodes

theorem chargedInAll_eq_sum (nodes : List Node) :
    chargedInAll nodes = (nodes.map charged).sum := by
  induction nodes with
  | nil => rfl
  | cons node rest ih =>
      rw [List.map_cons, List.sum_cons, ← ih]
      simp only [charged, chargedInAll, leavesOfAll_cons, List.countP_append, groupedOthersInAll]
      omega

theorem charged_group {kind : GroupKind} (alone : kind ≠ .comparison) (children : List Node) :
    (Node.group kind children).charged = chargedInAll children := by
  rw [charged, chargedInAll, leaves_group]
  cases kind <;> first | rfl | exact absurd rfl alone

theorem conditionsInAll_eq_charged (each : ∀ node ∈ nodes, node.conditions = node.charged) :
    conditionsInAll nodes = chargedInAll nodes := by
  rw [conditionsInAll_eq_sum, chargedInAll_eq_sum]
  exact congrArg List.sum (List.map_congr_left each)

theorem groupedOthers_le (node : Node) : node.groupedOthers ≤ node.leaves.countP Leaf.isOther := by
  induction node with
  | leaf content => exact Nat.zero_le _
  | group kind children ih =>
      have inside : groupedOthersInAll children ≤ (leavesOfAll children).countP Leaf.isOther := by
        induction children with
        | nil => exact Nat.le_refl 0
        | cons child rest behind =>
            have first := ih child List.mem_cons_self
            have others := behind fun other member => ih other (List.mem_cons_of_mem _ member)
            rw [groupedOthersInAll, leavesOfAll_cons, List.countP_append]
            omega
      rw [leaves_group]
      cases kind <;> first | exact inside | exact Nat.le_refl _

section Silent
variable (silent : node.IsSilent)
include silent

theorem IsSilent.countP_isRange : node.leaves.countP Leaf.isRange = 0 :=
  List.countP_eq_zero.mpr fun content member => by simp [(silent content member).noRange]

theorem IsSilent.countP_isOther : node.leaves.countP Leaf.isOther = 0 := by
  refine List.countP_eq_zero.mpr fun content member => ?_
  have noOperator := (silent content member).noOperator
  rw [Leaf.isComparison] at noOperator
  simp [Leaf.isOther, noOperator]

theorem IsSilent.countP_isOrdering (distinct : node.Distinct) :
    node.leaves.countP Leaf.isOrdering = 0 := by
  refine List.countP_eq_zero.mpr fun content member => ?_
  rw [(distinct content member).isOrdering_eq_false (silent content member).noOperator]
  exact Bool.false_ne_true

theorem IsSilent.charged (distinct : node.Distinct) : node.charged = 0 := by
  have others := node.groupedOthers_le
  rw [silent.countP_isOther] at others
  rw [Node.charged, silent.countP_isRange, silent.countP_isOrdering distinct]
  omega

theorem IsSilent.conditions (shaped : node.Shaped) (distinct : node.Distinct) :
    node.conditions = 0 := by
  have noOperator : node.leaves.countP Leaf.isComparison = 0 :=
    List.countP_eq_zero.mpr fun content member => by simp [(silent content member).noOperator]
  have bound := conditions_le_operators shaped distinct
  rw [operators, noOperator, silent.countP_isRange] at bound
  omega

end Silent

theorem charged_comparison {left right : Node} {content : Leaf} (kind : content.kind = .comparison)
    (distinct : (Node.group .comparison [left, .leaf content, right]).Distinct)
    (leftSilent : left.IsSilent) (rightSilent : right.IsSilent) :
    (Node.group .comparison [left, .leaf content, right]).charged = 1 := by
  have known : content.Distinct := distinct content (by simp)
  have noRange : content.isRange = false := by
    have other (text : String) : content ≠ .keyword text := by
      rintro rfl
      cases kind
    simp [Leaf.isRange, other]
  have either := known.isOther_eq (by simp [Leaf.isComparison, kind])
  have leftOrderings := leftSilent.countP_isOrdering (distinct.child (by simp))
  have rightOrderings := rightSilent.countP_isOrdering (distinct.child (by simp))
  rw [charged, groupedOthers, leaves_group]
  simp only [leavesOfAll_cons, leavesOfAll_nil, leaves_leaf, List.append_nil, List.countP_append,
    leftSilent.countP_isRange, rightSilent.countP_isRange, leftSilent.countP_isOther,
    rightSilent.countP_isOther, leftOrderings, rightOrderings, List.countP_singleton, noRange,
    either]
  cases content.isOrdering <;> rfl

theorem countP_comparison_eq {items : List Node}
    (alone : ∀ item ∈ items, item.isGroupOf .comparison = false → item.conditions = 0) :
    items.countP (·.isGroupOf .comparison) = conditionsInAll items := by
  induction items with
  | nil => rfl
  | cons item rest ih =>
      have behind := ih fun other member => alone other (List.mem_cons_of_mem _ member)
      rw [List.countP_cons, conditionsInAll, behind]
      cases comparison : item.isGroupOf .comparison with
      | true =>
          obtain ⟨children, rfl⟩ := isGroupOf_iff.mp comparison
          rw [conditions, if_pos rfl]
          omega
      | false =>
          rw [alone item List.mem_cons_self comparison, if_neg Bool.false_ne_true]
          omega

theorem conditions_eq_charged (shaped : node.Shaped) (distinct : node.Distinct) (flat : node.Flat)
    (noClause : node.isGroupOf .whereClause = false) : node.conditions = node.charged := by
  induction node with
  | leaf content =>
      rw [conditions, (distinct content (by simp)).leafConditions_eq, charged, leaves_leaf,
        groupedOthers]
      rfl
  | group kind children ih =>
      obtain ⟨here, below⟩ := everywhere_group_iff.mp shaped
      cases kind with
      | identifier =>
          rw [(isSilent_identifier shaped flat rfl).charged distinct, conditions] <;> simp
      | identifierList =>
          have silent : ∀ item ∈ children, item.isGroupOf .comparison = false →
              item.IsSilent := by
            intro item member other
            rcases here.comma_or_member member with comma | inList
            · exact isSilent_of_isPunctuation comma
            · exact isSilent_member (below item member) (flat.child member) inList other
          have alone : ∀ item ∈ children, item.isGroupOf .comparison = false →
              item.conditions = 0 := fun item member other =>
            (silent item member other).conditions (below item member) (distinct.child member)
          have each : ∀ item ∈ children, item.conditions = item.charged := by
            intro item member
            cases comparison : item.isGroupOf .comparison with
            | true =>
                obtain ⟨operands, rfl⟩ := isGroupOf_iff.mp comparison
                exact ih _ member (below _ member) (distinct.child member) (flat.child member) rfl
            | false =>
                rw [alone item member comparison,
                  (silent item member comparison).charged (distinct.child member)]
          rw [conditions, countP_comparison_eq alone, conditionsInAll_eq_charged each,
            charged_group (by decide)]
      | parenthesis => exact absurd flat (not_flat_parenthesis here)
      | function => exact absurd flat (not_flat_function shaped)
      | comparison =>
          obtain ⟨left, operator, right, rfl, isLeft, isOperator, isRight⟩ := here
          obtain ⟨content, rfl, kind⟩ := isLeafOf_iff.mp isOperator
          have inLeft : left ∈ [left, .leaf content, right] := by simp
          have inRight : right ∈ [left, .leaf content, right] := by simp
          rw [conditions, charged_comparison kind distinct
            (isSilent_operand (below left inLeft) (flat.child inLeft) isLeft)
            (isSilent_operand (below right inRight) (flat.child inRight) isRight)]
      | whereClause => cases noClause
      | statement => exact absurd here id

end Node

/-! ## The first clause -/

namespace Statement
variable {statement : Statement} {front clause back : List Node}

theorem whereConditions_of_none
    (noClause : ∀ node ∈ statement.nodes, node.isGroupOf .whereClause = false) :
    statement.whereConditions = 0 := by
  have nothing : statement.nodes.find? (·.isGroupOf .whereClause) = .none :=
    List.find?_eq_none.mpr fun node member => by simp [noClause node member]
  rw [whereConditions, whereNodes, nothing]
  rfl

theorem whereConditions_of_first
    (split : statement.nodes = front ++ .group .whereClause clause :: back)
    (first : ∀ node ∈ front, node.isGroupOf .whereClause = false) :
    statement.whereConditions = conditionsInAll clause := by
  have before : front.find? (·.isGroupOf .whereClause) = none :=
    List.find?_eq_none.mpr fun node member => by simp [first node member]
  rw [whereConditions, whereNodes, split, List.find?_append, before, Option.none_or,
    List.find?_cons_of_pos rfl]
  rfl

section Accepted
variable {dialect : Dialect} {query : String}
  (accepted : Statement.parse dialect query = .ok statement)
include accepted

theorem clause_nodes (inside : .group .whereClause clause ∈ statement.nodes) :
    ∀ node ∈ clause, node.Shaped ∧ node.Distinct ∧ node.isGroupOf .whereClause = false := by
  intro node member
  obtain ⟨tokens, -, made⟩ := parse_eq_ok_iff.mp accepted
  obtain ⟨here, below⟩ := everywhere_group_iff.mp (ofTokens_shaped made _ inside)
  have distinct : (Node.group .whereClause clause).Distinct := fun content inClause =>
    distinct_of_parse accepted content (mem_leavesOfAll.mpr ⟨_, inside, inClause⟩)
  refine ⟨below node member, distinct.child member, ?_⟩
  obtain ⟨word, others, rfl, isWhere, plain⟩ := here
  rcases List.mem_cons.mp member with rfl | behind
  · obtain ⟨content, rfl, -⟩ := isLeafOf_iff.mp (isLeafOf_of_isKeyword isWhere)
    rfl
  · exact (plain node behind).2.2.2

/-- No predicate is lost or counted twice.  The conditions of the first clause are at most its
operators and words `BETWEEN` and `IN` at any depth.  Without a bracket in the clause they are these
words, the orderings whether merged or not, and the other operators inside comparisons.  Only
operators have the text of an ordering. -/
theorem whereConditions_charged :
    ((∀ node ∈ statement.nodes, node.isGroupOf .whereClause = false) →
      statement.whereConditions = 0) ∧
    (∀ front clause back, statement.nodes = front ++ .group .whereClause clause :: back →
      (∀ node ∈ front, node.isGroupOf .whereClause = false) →
      let leaves := leavesOfAll clause
      statement.whereConditions ≤ leaves.countP Leaf.isComparison + leaves.countP Leaf.isRange ∧
      (.punctuation "(" ∉ leaves →
        statement.whereConditions = leaves.countP Leaf.isRange + leaves.countP Leaf.isOrdering
          + groupedOthersInAll clause)) ∧
    ∀ content ∈ leavesOfAll statement.nodes,
      content.isOrdering = true → content.isComparison = true := by
  refine ⟨whereConditions_of_none, fun front clause back split first => ?_,
    fun content member ordering => ?_⟩
  · have inside : .group .whereClause clause ∈ statement.nodes := by simp [split]
    have known := clause_nodes accepted inside
    rw [whereConditions_of_first split first]
    refine ⟨?_, fun noBracket => ?_⟩
    · exact conditionsInAll_le_operators fun node member =>
        conditions_le_operators (known node member).1 (known node member).2.1
    · refine conditionsInAll_eq_charged fun node member => ?_
      obtain ⟨shaped, distinct, noClause⟩ := known node member
      have flat : node.Flat := fun inside => noBracket (mem_leavesOfAll.mpr ⟨node, member, inside⟩)
      exact conditions_eq_charged shaped distinct flat noClause
  · exact (distinct_of_parse accepted content member).isComparison_of_isOrdering ordering

end Accepted

/-- A chain, of which `LIKE` is merged and `=` is left over, and an operator without operands. -/
theorem whereConditions_of_chain :
    ∃ (statement : Statement) (front clause : List Node),
      Statement.parse .generic "SELECT 1 WHERE a LIKE b=c IN d ILIKE" = .ok statement ∧
      statement.nodes = front ++ [.group .whereClause clause] ∧
      (∀ node ∈ front, node.isGroupOf .whereClause = false) ∧
      .punctuation "(" ∉ leavesOfAll clause ∧
      (leavesOfAll clause).countP Leaf.isComparison = 3 ∧
      (leavesOfAll clause).countP Leaf.isRange = 1 ∧
      (leavesOfAll clause).countP Leaf.isOrdering = 1 ∧
      groupedOthersInAll clause = 1 ∧ statement.whereConditions = 3 := by
  let front : List Node := [.leaf ⟨.verb, "SELECT"⟩, .leaf (.literal "1")]
  let clause : List Node := [.leaf (.keyword "WHERE"),
    .group .comparison [.group .identifier [.leaf (.name "a")], .leaf (.comparison "LIKE"),
      .group .identifier [.leaf (.name "b")]],
    .leaf (.comparison "="), .group .identifier [.leaf (.name "c")], .leaf (.keyword "IN"),
    .group .identifier [.leaf (.name "d")], .leaf (.comparison "ILIKE")]
  let tokens : List Token := [.word ⟨"SELECT", none⟩, .blank, .literal "1", .blank,
    .word ⟨"WHERE", none⟩, .blank, .word ⟨"a", none⟩, .blank, .word ⟨"LIKE", none⟩, .blank,
    .word ⟨"b", none⟩, .comparison "=", .word ⟨"c", none⟩, .blank, .word ⟨"IN", none⟩, .blank,
    .word ⟨"d", none⟩, .blank, .word ⟨"ILIKE", none⟩]
  let leaves : List Leaf := [⟨.verb, "SELECT"⟩, .literal "1", .keyword "WHERE", .name "a",
    .comparison "LIKE", .name "b", .comparison "=", .name "c", .keyword "IN", .name "d",
    .comparison "ILIKE"]
  have scanned : Token.scan .generic "SELECT 1 WHERE a LIKE b=c IN d ILIKE" = .ok tokens :=
    by decide +kernel
  have lexed : leavesOf tokens = leaves := by decide +kernel
  have split : groupNodes (leaves.map .leaf) = front ++ [.group .whereClause clause] := by
    simp only [groupNodes, leaves, List.map_cons, List.map_nil, groupInsideAll, groupInside,
      groupLevel_eq_sweepLevel]
    rfl
  have made := accepted_of_nested lexed (by simp [leaves]) rfl
  have accepted := parse_eq_ok_iff.mpr ⟨tokens, scanned, made⟩
  have first : ∀ node ∈ front, node.isGroupOf .whereClause = false := by decide
  have noBracket : .punctuation "(" ∉ leavesOfAll clause := by decide
  have charged := ((whereConditions_charged accepted).2.1 front clause [] split first).2 noBracket
  exact ⟨_, front, clause, accepted, split, first, noBracket, by decide, by decide, by decide,
    by decide, charged⟩

end Statement

end SqlMetrics
