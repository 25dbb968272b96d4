import SqlMetrics.Proofs.Balanced
import SqlMetrics.Proofs.Relabel

/-! # What stands in brackets is hidden from the top level

`Node.hollow` empties all brackets.  No pass looks into brackets, so which joins and which columns
the top level has is already told by the hollow nodes, and what balanced brackets hold makes no
difference to these counts (`shallow_counts_opaque`). -/
set_option autoImplicit false
namespace SqlMetrics

open Node

namespace Node

/-! ## Empty brackets -/

mutual

/-- The node with nothing in its brackets. -/
def hollow : Node → Node
  | .leaf content => .leaf content
  | .group .parenthesis _ => .group .parenthesis []
  | .group kind children => .group kind (hollowAll children)

def hollowAll : List Node → List Node
  | [] => []
  | node :: rest => node.hollow :: hollowAll rest

end

theorem hollowAll_eq_map (nodes : List Node) : hollowAll nodes = nodes.map hollow := by
  induction nodes with
  | nil => rw [hollowAll, List.map_nil]
  | cons node rest ih => rw [hollowAll, ih, List.map_cons]

theorem hollow_leaf (content : Leaf) : (Node.leaf content).hollow = .leaf content := by
  rw [hollow]

theorem hollow_parenthesis (children : List Node) :
    (Node.group .parenthesis children).hollow = .group .parenthesis [] := by
  rw [hollow]

theorem hollow_group {kind : GroupKind} (other : kind ≠ .parenthesis) (children : List Node) :
    (Node.group kind children).hollow = .group kind (children.map hollow) := by
  rw [hollow, hollowAll_eq_map]
  exact other

theorem hollow_look (kind : GroupKind) (children : List Node) :
    ∃ inside, (Node.group kind children).hollow = .group kind inside := by
  by_cases brackets : kind = .parenthesis
  · rw [brackets, hollow_parenthesis]
    exact ⟨[], rfl⟩
  · exact ⟨_, hollow_group brackets children⟩

end Node

theorem keepsLook_hollow : KeepsLook hollow where
  leafKind node := by
    rcases node with content | ⟨kind, children⟩
    · rw [hollow_leaf]
    · obtain ⟨inside, emptied⟩ := hollow_look kind children
      rw [emptied, leafKind?, leafKind?]
  groupKind node := by
    rcases node with content | ⟨kind, children⟩
    · rw [hollow_leaf]
    · obtain ⟨inside, emptied⟩ := hollow_look kind children
      rw [emptied, groupKind?, groupKind?]
  isKeyword node text := by
    rcases node with content | ⟨kind, children⟩
    · rw [hollow_leaf]
    · obtain ⟨inside, emptied⟩ := hollow_look kind children
      rw [emptied, Node.isKeyword, Node.isKeyword]
  isPunctuation node text := by
    rcases node with content | ⟨kind, children⟩
    · rw [hollow_leaf]
    · obtain ⟨inside, emptied⟩ := hollow_look kind children
      rw [emptied, Node.isPunctuation, Node.isPunctuation]
  isNumber node := by
    rcases node with content | ⟨kind, children⟩
    · rw [hollow_leaf]
    · obtain ⟨inside, emptied⟩ := hollow_look kind children
      rw [emptied]
      rfl
  group kind children other := hollow_group other children

theorem hollow_groupInside (node : Node) : (groupInside node).hollow = node.hollow := by
  rcases node with content | ⟨kind, children⟩
  · rfl
  · cases kind <;> rfl

/-- Which nodes there are outside brackets is told by the hollow nodes before grouping. -/
theorem hollow_groupNodes (nodes : List Node) :
    (groupNodes nodes).map hollow = groupLevel (nodes.map hollow) := by
  have inside : hollow ∘ groupInside = hollow := funext hollow_groupInside
  rw [groupNodes, ← groupLevel_map keepsLook_hollow, groupInsideAll_eq_map, List.map_map, inside]

/-! ## Reading with empty brackets -/

namespace OpenGroups

variable {limit : Nat} {first second : OpenGroups}

/-- The open groups with all brackets closed so far emptied. -/
def hollow (groups : OpenGroups) : OpenGroups :=
  ⟨groups.inner.map Node.hollow, groups.outer.map (List.map Node.hollow)⟩

theorem depth_hollow (groups : OpenGroups) : groups.hollow.depth = groups.depth :=
  List.length_map _

theorem hollow_push (groups : OpenGroups) (node : Node) :
    (groups.push node).hollow = groups.hollow.push node.hollow :=
  rfl

theorem hollow_openBracket (groups : OpenGroups) (bracket : Leaf) :
    (groups.openBracket bracket).hollow = groups.hollow.openBracket bracket := by
  rw [openBracket, hollow, List.map_singleton, hollow_leaf]
  rfl

theorem hollow_close (same : first.hollow = second.hollow) :
    first.close.hollow = second.close.hollow := by
  obtain ⟨inner, outer⟩ := first
  obtain ⟨otherInner, otherOuter⟩ := second
  obtain ⟨inners, outers⟩ := OpenGroups.mk.inj same
  cases outer with
  | nil =>
      cases otherOuter with
      | nil => exact same
      | cons around further => cases outers
  | cons around further =>
      cases otherOuter with
      | nil => cases outers
      | cons otherAround otherFurther =>
          obtain ⟨arounds, furthers⟩ := List.cons.inj outers
          simp only [close, hollow, List.map_cons, hollow_parenthesis]
          rw [arounds, furthers]

theorem hollow_read (limit : Nat) (content : Leaf) (same : first.hollow = second.hollow) :
    (first.read? limit content).map hollow = (second.read? limit content).map hollow := by
  have depths : first.depth = second.depth := by rw [← depth_hollow, same, depth_hollow]
  rw [read_eq, read_eq]
  cases content.bracket? with
  | none => simp only [Option.map_some, hollow_push, same]
  | some bracket =>
      have pushed : (first.push (.leaf content)).hollow = (second.push (.leaf content)).hollow := by
        rw [hollow_push, hollow_push, same]
      cases bracket with
      | opening =>
          simp only [depths]
          split
          · simp only [Option.map_some, hollow_openBracket, same]
          · rfl
      | closing =>
          simp only [Option.map_some, closing, depths]
          split
          · rw [pushed]
          · rw [hollow_close pushed]

theorem hollow_run {last lastToo : OpenGroups} {leaves : List Leaf}
    (run : Reads limit first leaves last) (runToo : Reads limit second leaves lastToo)
    (same : first.hollow = second.hollow) : last.hollow = lastToo.hollow := by
  induction run generalizing second with
  | done =>
      cases runToo
      exact same
  | @read groups next last content rest here _ ih =>
      cases runToo with
      | read hereToo behindToo =>
          have alike := hollow_read limit content same
          rw [here, hereToo] at alike
          exact ih behindToo (Option.some.inj alike)

theorem hollow_closeAll (outer : List (List Node)) :
    ∀ {inner otherInner otherOuter},
      (mk inner outer).hollow = (mk otherInner otherOuter).hollow →
        (closeAll inner outer).map Node.hollow =
          (closeAll otherInner otherOuter).map Node.hollow := by
  induction outer with
  | nil =>
      intro inner otherInner otherOuter same
      obtain ⟨inners, outers⟩ := OpenGroups.mk.inj same
      cases otherOuter with
      | nil => rw [closeAll, closeAll, List.map_reverse, List.map_reverse, inners]
      | cons around further => cases outers
  | cons around further ih =>
      intro inner otherInner otherOuter same
      cases otherOuter with
      | nil => cases (OpenGroups.mk.inj same).2
      | cons otherAround otherFurther =>
          have closed : (mk inner (around :: further)).close.hollow =
              (mk otherInner (otherAround :: otherFurther)).close.hollow := hollow_close same
          rw [closeAll, closeAll]
          exact ih closed

end OpenGroups

/-! ## Two fillings of the same brackets -/

/-- Leaves in brackets between others. -/
def filled (front inside back : List Leaf) : List Leaf :=
  front ++ .punctuation "(" :: (inside ++ .punctuation ")" :: back)

section Filled
variable {limit : Nat} {front inside other back : List Leaf} {nested nestedToo : List Node}

/-- Balanced leaves that nest within the limit where they stand have room there. -/
theorem room_of_filled (balanced : balances 0 (bracketsOf inside) = true)
    (within : deepest 0 (bracketsOf (filled front inside back)) ≤ limit) :
    depthAfter 0 (bracketsOf front) + (deepest 0 (bracketsOf inside) + 1) ≤ limit := by
  have opens : bracketsOf (.punctuation "(" :: (inside ++ .punctuation ")" :: back)) =
      .opening :: (bracketsOf inside ++ bracketsOf (.punctuation ")" :: back)) := by
    rw [← bracketsOf_append]
    rfl
  have deeper := deepest_of_balances (depthAfter 0 (bracketsOf front) + 1) balanced
  rw [Nat.add_zero] at deeper
  rw [filled, bracketsOf_append, deepest_append, opens, deepest, Bracket.turn, deepest_append,
    deeper] at within
  omega

/-- Brackets around balanced leaves become one group, whatever has been read before them. -/
theorem nested_filled (balanced : balances 0 (bracketsOf inside) = true)
    (nests : nestBrackets limit (filled front inside back) = some nested) :
    ∃ before children after, front.foldlM (OpenGroups.read? limit) {} = some before ∧
      OpenGroups.Reads limit (before.push (.group .parenthesis children)) back after ∧
      OpenGroups.closeAll after.inner after.outer = nested := by
  obtain ⟨nodes, piece⟩ := exists_nests balanced (Nat.le_refl _)
  have room := room_of_filled balanced (deepest_le_of_nested nests)
  obtain ⟨after, run, closed⟩ := Option.map_eq_some_iff.mp nests
  have parts : filled front inside back =
      front ++ (.punctuation "(" :: (inside ++ [.punctuation ")"]) ++ back) := by
    simp [filled]
  rw [parts, List.foldlM_append] at run
  obtain ⟨before, runFront, run⟩ := Option.bind_eq_some_iff.mp run
  have depth : before.depth = depthAfter 0 (bracketsOf front) :=
    OpenGroups.depth_run (OpenGroups.reads_of_foldlM front runFront)
  rw [← depth] at room
  rw [List.foldlM_append, piece.brackets limit before room] at run
  exact ⟨before, _, after, runFront, OpenGroups.reads_of_foldlM back run, closed⟩

/-- With brackets emptied, the nested leaves do not tell what balanced brackets hold. -/
theorem hollow_nested (balanced : balances 0 (bracketsOf inside) = true)
    (balancedToo : balances 0 (bracketsOf other) = true)
    (nests : nestBrackets limit (filled front inside back) = some nested)
    (nestsToo : nestBrackets limit (filled front other back) = some nestedToo) :
    nested.map hollow = nestedToo.map hollow := by
  obtain ⟨before, children, after, runFront, run, rfl⟩ := nested_filled balanced nests
  obtain ⟨beforeToo, childrenToo, afterToo, runFrontToo, runToo, rfl⟩ :=
    nested_filled balancedToo nestsToo
  -- Both runs are the same up to the brackets, and alike behind them.
  cases runFront.symm.trans runFrontToo
  have closed : (before.push (.group .parenthesis children)).hollow =
      (before.push (.group .parenthesis childrenToo)).hollow := by
    rw [OpenGroups.hollow_push, OpenGroups.hollow_push, hollow_parenthesis, hollow_parenthesis]
  exact OpenGroups.hollow_closeAll after.outer (OpenGroups.hollow_run run runToo closed)

end Filled

/-- Two statements that differ in what balanced brackets hold have the same joins and the same
columns to group and to sort by, wherever these brackets stand. -/
theorem shallow_counts_opaque {front inside other back : List Leaf} {first second : Statement}
    (balanced : balances 0 (bracketsOf inside) = true)
    (balancedToo : balances 0 (bracketsOf other) = true)
    (accepted : Statement.ofLeaves (filled front inside back) = .ok first)
    (acceptedToo : Statement.ofLeaves (filled front other back) = .ok second) :
    first.joins = second.joins ∧ first.groupByColumns = second.groupByColumns ∧
      first.orderByColumns = second.orderByColumns := by
  obtain ⟨nested, nests, rfl⟩ := nested_of_ofLeaves accepted
  obtain ⟨nestedToo, nestsToo, rfl⟩ := nested_of_ofLeaves acceptedToo
  have same := hollow_nested balanced balancedToo nests nestsToo
  have trees : (groupNodes nested).map hollow = (groupNodes nestedToo).map hollow := by
    rw [hollow_groupNodes, hollow_groupNodes, same]
  have joins : (Statement.mk (groupNodes nested)).joins =
      (Statement.mk (groupNodes nestedToo)).joins := by
    rw [← joins_map keepsLook_hollow, trees, joins_map keepsLook_hollow]
  have columns : ∀ name, clauseColumns name (groupNodes nested) =
      clauseColumns name (groupNodes nestedToo) := by
    intro name
    rw [← clauseColumns_map keepsLook_hollow, trees, clauseColumns_map keepsLook_hollow]
  exact ⟨joins, columns "GROUP BY", columns "ORDER BY"⟩

/-- The arguments of a joined table function are a statement with a join and clauses of its own, or
a star.  A bracket before them closes none, and one behind them stays open. -/
theorem shallow_counts_of_arguments :
    ∃ front inside other back first second, front =
        [⟨.verb, "SELECT"⟩, .name "a", .punctuation ")", .keyword "FROM", .name "t",
          .keyword "JOIN", .name "f"] ∧
      inside =
        [⟨.verb, "SELECT"⟩, .name "b", .keyword "FROM", .punctuation "(", .name "u",
          .keyword "JOIN", .name "v", .punctuation ")", .keyword "ORDER BY", .name "c"] ∧
      other = [⟨.wildcard, "*"⟩] ∧
      back =
        [.name "x", .keyword "GROUP BY", .name "a", .punctuation ",", .name "d",
          .keyword "ORDER BY", .name "g", .punctuation "("] ∧
      balances 0 (bracketsOf inside) = true ∧ balances 0 (bracketsOf other) = true ∧
      Statement.ofLeaves (filled front inside back) = .ok first ∧
      Statement.ofLeaves (filled front other back) = .ok second ∧
      (first.joins = second.joins ∧ first.groupByColumns = second.groupByColumns ∧
        first.orderByColumns = second.orderByColumns) ∧
      second.joins = 1 ∧ second.groupByColumns = 2 ∧ second.orderByColumns = 0 := by
  let front : List Leaf :=
    [⟨.verb, "SELECT"⟩, .name "a", .punctuation ")", .keyword "FROM", .name "t",
      .keyword "JOIN", .name "f"]
  let inside : List Leaf :=
    [⟨.verb, "SELECT"⟩, .name "b", .keyword "FROM", .punctuation "(", .name "u",
      .keyword "JOIN", .name "v", .punctuation ")", .keyword "ORDER BY", .name "c"]
  let other : List Leaf := [⟨.wildcard, "*"⟩]
  let back : List Leaf :=
    [.name "x", .keyword "GROUP BY", .name "a", .punctuation ",", .name "d",
      .keyword "ORDER BY", .name "g", .punctuation "("]
  have balanced : balances 0 (bracketsOf inside) = true := by decide
  have balancedToo : balances 0 (bracketsOf other) = true := by decide
  have accepted : Statement.ofLeaves (filled front inside back) = .ok _ := rfl
  have acceptedToo : Statement.ofLeaves (filled front other back) = .ok ⟨groupNodes
      [.leaf ⟨.verb, "SELECT"⟩, .leaf (.name "a"), .leaf (.punctuation ")"),
        .leaf (.keyword "FROM"), .leaf (.name "t"), .leaf (.keyword "JOIN"), .leaf (.name "f"),
        .group .parenthesis [.leaf (.punctuation "("), .leaf ⟨.wildcard, "*"⟩,
          .leaf (.punctuation ")")],
        .leaf (.name "x"), .leaf (.keyword "GROUP BY"), .leaf (.name "a"),
        .leaf (.punctuation ","), .leaf (.name "d"), .leaf (.keyword "ORDER BY"),
        .leaf (.name "g"), .group .parenthesis [.leaf (.punctuation "(")]]⟩ := rfl
  refine ⟨front, inside, other, back, _, _, rfl, rfl, rfl, rfl, balanced, balancedToo, accepted,
    acceptedToo, shallow_counts_opaque balanced balancedToo accepted acceptedToo, ?_⟩
  simp only [groupNodes, groupInsideAll, groupInside, groupLevel_eq_sweepLevel]
  decide +kernel

end SqlMetrics
