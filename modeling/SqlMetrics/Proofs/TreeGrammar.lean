import Mathlib.Logic.Basic
import SqlMetrics.Proofs.ShapedPasses
import SqlMetrics.Statement

/-! # Every accepted statement has a tree in shape

Reading brackets yields groups that hold what stands between a pair of brackets
(`nested_bracketShape`).  From the inside out the passes turn them into trees in shape, so the
grammar of the tree holds of every statement that is accepted
(`ofTokens_inGrammar`). -/
set_option autoImplicit false
namespace SqlMetrics

open Node

/-! ## Leaves that stay alone -/

theorem callRule_makesGroups : MakesGroups callRule := by
  intro node rest content made
  fun_cases callRule node rest with
  | case1 node next behind call => simp [callRule, call] at made
  | case2 node next behind other => simpa [callRule, other] using made
  | case3 => exact made

/-- A leaf that stands alone after the passes up to lists stood alone before them. -/
theorem leaf_mem_of_mem_groupTerms {nodes : List Node} {content : Leaf}
    (member : .leaf content ∈ groupTerms nodes) : .leaf content ∈ nodes := by
  have aliases := leaf_mem_of_mem_sweep listRule_wraps.makesGroups member
  have comparisons := leaf_mem_of_mem_sweep aliasRule_wraps.makesGroups aliases
  have casts := leaf_mem_of_mem_sweep comparisonRule_wraps.makesGroups comparisons
  have names := leaf_mem_of_mem_sweep castRule_wraps.makesGroups casts
  have calls := leaf_mem_of_mem_sweep nameRule_wraps.makesGroups names
  exact leaf_mem_of_mem_sweep callRule_makesGroups calls

theorem leaf_mem_of_mem_groupLevel {nodes : List Node} {content : Leaf}
    (member : .leaf content ∈ groupLevel nodes) : .leaf content ∈ nodes :=
  leaf_mem_of_mem_groupTerms (leaf_mem_of_mem_sweep whereRule_wraps.makesGroups member)

/-! ## What reading brackets yields -/

namespace Node

/-- A group, if the node is one, holds what stands between a pair of brackets. -/
def BracketShape : Node → Prop
  | .leaf _ => True
  | .group kind children =>
      kind = .parenthesis ∧ ∃ inside closing,
        children = .leaf (.punctuation "(") :: inside ++ closing ∧
        (closing = [] ∨ closing = [.leaf (.punctuation ")")]) ∧ ∀ node ∈ inside, node.NoBracket

/-- Nothing but brackets was grouped in the node. -/
abbrev Bracketed (node : Node) : Prop :=
  node.Everywhere BracketShape

end Node

/-- What stands in an open bracket, the last node first. -/
def OpenLevel (level : List Node) : Prop :=
  ∃ inside, level = inside ++ [.leaf (.punctuation "(")] ∧
    ∀ node ∈ inside, node.NoBracket ∧ node.Bracketed

/-- What stands in no bracket. -/
def BaseLevel (level : List Node) : Prop :=
  ∀ node ∈ level, node.isPunctuation "(" = false ∧ node.Bracketed

/-- What was read before the end of the text: open brackets within one another, and around them
what stands in none. -/
def NestedLevels : List Node → List (List Node) → Prop
  | level, [] => BaseLevel level
  | level, around :: further => OpenLevel level ∧ NestedLevels around further

theorem eq_of_opensBracket {content : Leaf} (opens : content.opensBracket = true) :
    content = .punctuation "(" := by
  have mark : (Node.leaf content).isPunctuation "(" = true := opens
  exact Node.leaf.inj (isPunctuation_iff.mp mark)

theorem eq_of_closesBracket {content : Leaf} (closes : content.closesBracket = true) :
    content = .punctuation ")" := by
  have mark : (Node.leaf content).isPunctuation ")" = true := closes
  exact Node.leaf.inj (isPunctuation_iff.mp mark)

theorem NestedLevels.push {level : List Node} {outer : List (List Node)} {node : Node}
    (levels : NestedLevels level outer) (clear : node.NoBracket) (bracketed : node.Bracketed) :
    NestedLevels (node :: level) outer := by
  cases outer with
  | nil =>
      intro next member
      rcases List.mem_cons.mp member with rfl | member
      · exact ⟨clear.1, bracketed⟩
      · exact levels next member
  | cons around further =>
      obtain ⟨⟨inside, rfl, inLevel⟩, outside⟩ := levels
      refine ⟨⟨node :: inside, rfl, ?_⟩, outside⟩
      intro next member
      rcases List.mem_cons.mp member with rfl | member
      · exact ⟨clear, bracketed⟩
      · exact inLevel next member

theorem OpenLevel.bracketed {level closing : List Node} (opened : OpenLevel level)
    (ending : closing = [] ∨ closing = [.leaf (.punctuation ")")]) :
    (Node.group .parenthesis (closing ++ level).reverse).Bracketed := by
  obtain ⟨inside, rfl, inLevel⟩ := opened
  have children : (closing ++ (inside ++ [Node.leaf (.punctuation "(")])).reverse =
      Node.leaf (.punctuation "(") :: inside.reverse ++ closing := by
    rcases ending with rfl | rfl <;> simp
  rw [children]
  refine .group ⟨rfl, inside.reverse, closing, rfl, ending, ?_⟩ ?_
  · intro node member
    exact (inLevel node (List.mem_reverse.mp member)).1
  · intro child member
    rcases List.mem_append.mp member with h | h
    · rcases List.mem_cons.mp h with rfl | h
      · exact .leaf trivial
      · exact (inLevel child (List.mem_reverse.mp h)).2
    · rcases ending with rfl | rfl
      · cases h
      · rw [List.mem_singleton.mp h]
        exact .leaf trivial

theorem NestedLevels.close {level around closing : List Node} {further : List (List Node)}
    (levels : NestedLevels level (around :: further))
    (ending : closing = [] ∨ closing = [.leaf (.punctuation ")")]) :
    NestedLevels (.group .parenthesis (closing ++ level).reverse :: around) further :=
  levels.2.push ⟨rfl, rfl⟩ (levels.1.bracketed ending)

theorem NestedLevels.read {limit : Nat} {groups next : OpenGroups} {content : Leaf}
    (levels : NestedLevels groups.inner groups.outer)
    (read : groups.read? limit content = some next) : NestedLevels next.inner next.outer := by
  unfold OpenGroups.read? at read
  split at read
  case isTrue opens =>
    split at read
    · cases read
      rw [eq_of_opensBracket opens]
      exact ⟨⟨[], rfl, by simp⟩, levels⟩
    · cases read
  case isFalse noOpening =>
    have clear : (Node.leaf content).isPunctuation "(" = false := Bool.eq_false_iff.mpr noOpening
    obtain ⟨inner, outer⟩ := groups
    split at read
    case isTrue closes =>
      simp only [Bool.and_eq_true] at closes
      cases read
      cases outer with
      | nil => simp [OpenGroups.depth] at closes
      | cons around further =>
          rw [eq_of_closesBracket closes.1]
          exact levels.close (Or.inr rfl)
    case isFalse stays =>
      -- Where no bracket is open, a closing one is a leaf like any other.
      cases read
      cases outer with
      | nil =>
          intro node member
          rcases List.mem_cons.mp member with rfl | member
          · exact ⟨clear, .leaf trivial⟩
          · exact levels node member
      | cons around further =>
          have noClosing : content.closesBracket = false := by
            simpa [OpenGroups.depth] using stays
          exact levels.push ⟨clear, noClosing⟩ (.leaf trivial)

theorem NestedLevels.run {limit : Nat} {groups last : OpenGroups} {leaves : List Leaf}
    (levels : NestedLevels groups.inner groups.outer)
    (run : OpenGroups.Reads limit groups leaves last) : NestedLevels last.inner last.outer := by
  induction run with
  | done => exact levels
  | read here _ ih => exact ih (levels.read here)

theorem NestedLevels.closeAll (outer : List (List Node)) :
    ∀ {level}, NestedLevels level outer → BaseLevel (OpenGroups.closeAll level outer) := by
  induction outer with
  | nil =>
      intro level base node member
      exact base node (List.mem_reverse.mp member)
  | cons around further ih =>
      intro level levels
      exact ih (levels.close (Or.inl rfl))

/-- Reading brackets groups nothing but brackets, and no opening bracket is left over. -/
theorem nested_bracketShape {limit : Nat} {leaves : List Leaf} {nested : List Node}
    (nests : nestBrackets limit leaves = some nested) : BaseLevel nested := by
  obtain ⟨last, run, rfl⟩ := reads_of_nested nests
  have start : NestedLevels ({} : OpenGroups).inner ({} : OpenGroups).outer := by
    intro node member
    cases member
  exact (start.run run).closeAll

/-! ## From the inside out -/

theorem groupInside_look {node : Node} (bracketed : node.Bracketed) :
    (∃ content, node = .leaf content ∧ groupInside node = .leaf content) ∨
      ∃ children, groupInside node = .group .parenthesis children := by
  cases bracketed with
  | leaf here => exact Or.inl ⟨_, rfl, by rw [groupInside]; simp⟩
  | group here below =>
      obtain ⟨rfl, -⟩ := here
      exact Or.inr ⟨_, by rw [groupInside]⟩

theorem levelNode_groupInside {node : Node} (bracketed : node.Bracketed)
    (clear : node.isPunctuation "(" = false) (shaped : (groupInside node).Shaped) :
    LevelNode (groupInside node) := by
  rcases groupInside_look bracketed with ⟨content, rfl, same⟩ | ⟨children, same⟩
  · exact ⟨shaped, by rw [same]; exact clear, by rw [same]; rfl⟩
  · exact ⟨shaped, by rw [same]; rfl, by rw [same]; rfl⟩

theorem groupInside_shaped {node : Node} (bracketed : node.Bracketed) :
    (groupInside node).Shaped := by
  induction bracketed with
  | leaf here =>
      rw [groupInside]
      · exact shaped_leaf _
      · simp
  | group here below ih =>
      obtain ⟨rfl, inside, closing, rfl, ending, clear⟩ := here
      have inInside : ∀ node ∈ inside,
          node ∈ .leaf (.punctuation "(") :: inside ++ closing := fun node member =>
        List.mem_append_left _ (List.mem_cons_of_mem _ member)
      have same : (Node.leaf (.punctuation "(") :: inside ++ closing).map groupInside =
          .leaf (.punctuation "(") :: inside.map groupInside ++ closing := by
        rcases ending with rfl | rfl <;> simp [groupInside]
      have level : ∀ node ∈ inside.map groupInside, LevelNode node := by
        intro grouped member
        obtain ⟨node, inList, rfl⟩ := List.mem_map.mp member
        exact levelNode_groupInside (below node (inInside node inList)) (clear node inList).1
          (ih node (inInside node inList))
      have grouped := groupLevel_shaped _ level
      have noClosing : ∀ node ∈ groupLevel (inside.map groupInside),
          node.isPunctuation ")" = false := by
        intro node member
        cases mark : node.isPunctuation ")" with
        | false => rfl
        | true =>
            rw [isPunctuation_iff.mp mark] at member
            obtain ⟨before, inList, same⟩ := List.mem_map.mp (leaf_mem_of_mem_groupLevel member)
            rcases groupInside_look (below before (inInside before inList)) with
              ⟨content, rfl, leaf⟩ | ⟨children, group⟩
            · rw [leaf] at same
              exact absurd (clear _ inList).2 (by rw [same]; decide)
            · rw [group] at same
              cases same
      rw [groupInside, groupInsideAll_eq_map, same, groupLevel_brackets _ ending]
      refine .group ⟨_, closing, rfl, ending, ?_⟩ ?_
      · intro node member
        exact ⟨⟨(grouped node member).noOpening, noClosing node member⟩,
          (grouped node member).noName⟩
      · intro child member
        rcases List.mem_append.mp member with h | h
        · rcases List.mem_cons.mp h with rfl | h
          · exact shaped_leaf _
          · exact (grouped child h).shaped
        · rcases ending with rfl | rfl
          · cases h
          · rw [List.mem_singleton.mp h]
            exact shaped_leaf _

theorem levelNode_groupInsideAll {limit : Nat} {leaves : List Leaf} {nested : List Node}
    (nests : nestBrackets limit leaves = some nested) :
    ∀ node ∈ groupInsideAll nested, LevelNode node := by
  have base := nested_bracketShape nests
  intro grouped member
  rw [groupInsideAll_eq_map] at member
  obtain ⟨node, inNested, rfl⟩ := List.mem_map.mp member
  obtain ⟨clear, bracketed⟩ := base node inNested
  exact levelNode_groupInside bracketed clear (groupInside_shaped bracketed)

theorem groupNodes_shaped {limit : Nat} {leaves : List Leaf} {nested : List Node}
    (nests : nestBrackets limit leaves = some nested) :
    ∀ node ∈ groupNodes nested, GroupedNode node :=
  groupLevel_shaped _ (levelNode_groupInsideAll nests)

/-! ## Accepted statements -/

theorem ofLeaves_of_accepted {tokens : List Token} {statement : Statement}
    (accepted : Statement.ofTokens tokens = .ok statement) :
    Statement.ofLeaves (leavesOf tokens) = .ok statement := by
  unfold Statement.ofTokens at accepted
  split at accepted
  · cases accepted
  · exact accepted

/-- An accepted statement has a leaf, and its tree is that of its nested leaves. -/
theorem nested_of_accepted {tokens : List Token} {statement : Statement}
    (accepted : Statement.ofTokens tokens = .ok statement) :
    leavesOf tokens ≠ [] ∧ ∃ nested,
      nestBrackets nestingLimit (leavesOf tokens) = some nested ∧
        statement = ⟨groupNodes nested⟩ := by
  unfold Statement.ofTokens at accepted
  split at accepted
  · cases accepted
  case h_2 leaves some => exact ⟨some, nested_of_ofLeaves accepted⟩

theorem ofTokens_shaped {tokens : List Token} {statement : Statement}
    (accepted : Statement.ofTokens tokens = .ok statement) :
    ∀ node ∈ statement.nodes, node.Shaped := by
  obtain ⟨-, nested, nests, rfl⟩ := nested_of_accepted accepted
  exact fun node member => (groupNodes_shaped nests node member).shaped

theorem accepted_of_nested {tokens : List Token} {leaves : List Leaf} {nested : List Node}
    (lexed : leavesOf tokens = leaves) (filled : leaves ≠ [])
    (nests : nestBrackets nestingLimit leaves = .some nested) :
    Statement.ofTokens tokens = .ok ⟨groupNodes nested⟩ := by
  unfold Statement.ofTokens
  rw [lexed]
  split
  · exact absurd rfl filled
  · rw [Statement.ofLeaves, nests]

/-- The grammar of a tree below its root.  No group but the root is a statement, every group has
the children that its kind asks for, and brackets stand at the ends of bracketed groups, except
for closing ones that match none: these are children of the root. -/
structure Statement.InGrammar (statement : Statement) : Prop where
  shapes : ∀ node ∈ statement.nodes, node.Everywhere HasShape
  brackets : ∀ node ∈ statement.nodes, node.Everywhere BracketsInPlace
  noOpening : ∀ node ∈ statement.nodes, node ≠ .leaf (.punctuation "(")
  noName : ∀ node ∈ statement.nodes, node.isLeafOf .name = false

/-- The first statement of a token list, if it is accepted, has a tree of this grammar. -/
theorem ofTokens_inGrammar (tokens : List Token) (statement : Statement)
    (accepted : Statement.ofTokens tokens = .ok statement) : statement.InGrammar := by
  obtain ⟨-, nested, nests, rfl⟩ := nested_of_accepted accepted
  have grouped := groupNodes_shaped nests
  refine ⟨?_, ?_, ?_, ?_⟩
  · intro node member
    exact (grouped node member).shaped
  · intro node member
    exact (grouped node member).shaped.imp fun part => bracketsInPlace_of_hasShape
  · intro node member opening
    exact absurd (grouped node member).noOpening (by rw [opening]; decide)
  · intro node member
    exact (grouped node member).noName

/-- A call in a clause, and a bracket that closes nothing. -/
theorem inGrammar_unmatched_bracket :
    ∃ statement, Statement.ofTokens
        [.word ⟨"select", none⟩, .word ⟨"x", some '`'⟩, .word ⟨"where", none⟩,
          .word ⟨"f", some '`'⟩, .leftBracket, .literal "1", .comma, .literal "2", .rightBracket,
          .comparison "=", .literal "3", .rightBracket] = .ok statement ∧
      statement.InGrammar := by
  have lexed : leavesOf
      [.word ⟨"select", none⟩, .word ⟨"x", some '`'⟩, .word ⟨"where", none⟩,
        .word ⟨"f", some '`'⟩, .leftBracket, .literal "1", .comma, .literal "2", .rightBracket,
        .comparison "=", .literal "3", .rightBracket] =
      [⟨.verb, "SELECT"⟩, .name "`x`", .keyword "WHERE", .name "`f`", .punctuation "(",
        .literal "1", .punctuation ",", .literal "2", .punctuation ")", .comparison "=",
        .literal "3", .punctuation ")"] := by decide +kernel
  have accepted := accepted_of_nested lexed (by simp) rfl
  exact ⟨_, accepted, ofTokens_inGrammar _ _ accepted⟩

end SqlMetrics
