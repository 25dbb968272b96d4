import Mathlib.Control.Monad.Basic
import SqlMetrics.Proofs.TreeGrammar

/-! # Trees read back

The leaves of a tree, read from left to right, are the leaves that it was built from, and since no
group is empty the tree is shown as its leaves with single spaces between them
(`grouping_lossless`). -/
set_option autoImplicit false
namespace SqlMetrics

namespace Node

/-- The node is no group without children. -/
def HasChildren : Node → Prop
  | .leaf _ => True
  | .group _ children => children ≠ []

theorem hasChildren_of_hasShape {node : Node} (shape : node.HasShape) : node.HasChildren := by
  rcases node with content | ⟨kind, children⟩
  · trivial
  · cases kind with
    | identifier =>
        obtain ⟨head, tail, rfl, -⟩ := shape
        exact List.cons_ne_nil _ _
    | identifierList =>
        have three := ListShape.three shape
        exact List.ne_nil_of_length_pos (by omega)
    | parenthesis =>
        obtain ⟨inside, closing, rfl, -⟩ := shape
        exact List.cons_ne_nil _ _
    | function =>
        obtain ⟨name, arguments, rfl⟩ := shape
        exact List.cons_ne_nil _ _
    | comparison =>
        obtain ⟨left, operator, right, rfl, -⟩ := shape
        exact List.cons_ne_nil _ _
    | whereClause =>
        obtain ⟨word, clause, rfl, -⟩ := shape
        exact List.cons_ne_nil _ _
    | statement => exact absurd shape id

/-! ## A tree as text -/

/-- Some leaves as text, separated by single spaces. -/
def joined (leaves : List Leaf) : String :=
  " ".intercalate (leaves.map Leaf.text)

theorem joined_append {front back : List Leaf} (filled : front ≠ []) (more : back ≠ []) :
    joined (front ++ back) = joined front ++ " " ++ joined back := by
  rw [joined, List.map_append, String.intercalate_append_of_ne_nil (by simpa using filled)
    (by simpa using more)]
  rfl

/-- Nodes that have leaves and are shown as these are together shown as all their leaves. -/
theorem displayAll_eq_joined (nodes : List Node)
    (each : ∀ node ∈ nodes, node.leaves ≠ [] ∧ node.display = joined node.leaves) :
    displayAll nodes = joined (leavesOfAll nodes) := by
  induction nodes with
  | nil =>
      rw [displayAll, leavesOfAll_nil]
      rfl
  | cons node rest ih =>
      obtain ⟨filled, shown⟩ := each node List.mem_cons_self
      have others := ih fun next member => each next (List.mem_cons_of_mem _ member)
      cases rest with
      | nil => rw [displayAll, shown, leavesOfAll_cons, leavesOfAll_nil, List.append_nil]
      | cons next behind =>
          have more : leavesOfAll (next :: behind) ≠ [] := by
            have nextLeaves := (each next (List.mem_cons_of_mem _ List.mem_cons_self)).1
            rw [leavesOfAll_cons]
            exact List.append_ne_nil_of_left_ne_nil nextLeaves _
          rw [displayAll, shown, others, leavesOfAll_cons node, joined_append filled more]
          simp

theorem display_eq_joined {node : Node} (full : node.Everywhere HasChildren) :
    node.leaves ≠ [] ∧ node.display = joined node.leaves := by
  induction full with
  | leaf here =>
      rw [display, leaves_leaf]
      exact ⟨List.cons_ne_nil _ _, rfl⟩
  | @group kind children here below ih =>
      have shown := displayAll_eq_joined children ih
      rw [display, leaves_group]
      refine ⟨?_, shown⟩
      cases children with
      | nil => exact absurd rfl here
      | cons child others =>
          rw [leavesOfAll_cons]
          exact List.append_ne_nil_of_left_ne_nil (ih child List.mem_cons_self).1 _

end Node

open Node

theorem parse_eq_ok_iff {dialect : Dialect} {query : String} {statement : Statement} :
    Statement.parse dialect query = .ok statement ↔
      ∃ tokens, Token.scan dialect query = .ok tokens ∧
        Statement.ofTokens tokens = .ok statement := by
  unfold Statement.parse
  cases scanned : Token.scan dialect query with
  | error fault => simp
  | ok tokens => simp

theorem groupNodes_hasChildren {limit : Nat} {leaves : List Leaf} {nested : List Node}
    (nests : nestBrackets limit leaves = some nested) :
    ∀ node ∈ groupNodes nested, node.Everywhere HasChildren := fun node member =>
  (groupNodes_shaped nests node member).shaped.imp fun _ => hasChildren_of_hasShape

theorem root_hasChildren {tokens : List Token} {statement : Statement}
    (accepted : Statement.ofTokens tokens = .ok statement) :
    statement.root.Everywhere HasChildren := by
  obtain ⟨filled, nested, nests, rfl⟩ := nested_of_accepted accepted
  refine .group ?_ (groupNodes_hasChildren nests)
  intro empty
  have kept := (leavesOfAll_groupNodes nested).trans (leavesOfAll_nested nests)
  have noLeaves : leavesOfAll (groupNodes nested) = [] := congrArg leavesOfAll empty
  exact filled (kept.symm.trans noLeaves)

def passes : List (List Node → List Node) :=
  [groupCalls, groupNames, groupCasts, groupComparisons, groupAliases, groupLists, groupWhere]

theorem leavesOfAll_pass {pass : List Node → List Node} (member : pass ∈ passes)
    (nodes : List Node) : leavesOfAll (pass nodes) = leavesOfAll nodes := by
  simp only [passes, List.mem_cons, List.not_mem_nil, or_false] at member
  rcases member with rfl | rfl | rfl | rfl | rfl | rfl | rfl
  · exact leavesOfAll_sweep callRule_keepsLeaves nodes
  · exact leavesOfAll_sweep nameRule_wraps.keepsLeaves nodes
  · exact leavesOfAll_sweep castRule_wraps.keepsLeaves nodes
  · exact leavesOfAll_sweep comparisonRule_wraps.keepsLeaves nodes
  · exact leavesOfAll_sweep aliasRule_wraps.keepsLeaves nodes
  · exact leavesOfAll_sweep listRule_wraps.keepsLeaves nodes
  · exact leavesOfAll_sweep whereRule_wraps.keepsLeaves nodes

/-- Grouping is lossless.  Each pass keeps the leaves of all lists of nodes; whenever brackets nest
within the limit, the nested nodes and the grouped ones read back as the leaves, and no group is
empty; and an accepted query is shown as its leaves with single spaces between them. -/
theorem grouping_lossless :
    (∀ pass ∈ passes, ∀ nodes, leavesOfAll (pass nodes) = leavesOfAll nodes) ∧
      (∀ limit leaves nested, nestBrackets limit leaves = some nested →
        leavesOfAll nested = leaves ∧ leavesOfAll (groupNodes nested) = leaves ∧
          ∀ node ∈ groupNodes nested, node.Everywhere HasChildren) ∧
      ∀ dialect query statement, Statement.parse dialect query = .ok statement →
        statement.root.Everywhere HasChildren ∧
          ∃ tokens, Token.scan dialect query = .ok tokens ∧
            statement.root.leaves = leavesOf tokens ∧
            statement.display = " ".intercalate ((leavesOf tokens).map Leaf.text) := by
  refine ⟨fun pass member nodes => leavesOfAll_pass member nodes, ?_, ?_⟩
  · intro limit leaves nested nests
    have kept := leavesOfAll_nested nests
    exact ⟨kept, (leavesOfAll_groupNodes nested).trans kept, groupNodes_hasChildren nests⟩
  · intro dialect query statement parsed
    obtain ⟨tokens, scanned, accepted⟩ := parse_eq_ok_iff.mp parsed
    have full := root_hasChildren accepted
    have shown := (display_eq_joined full).2
    obtain ⟨-, nested, nests, rfl⟩ := nested_of_accepted accepted
    have kept : (Statement.mk (groupNodes nested)).root.leaves = leavesOf tokens := by
      rw [Statement.root, leaves_group, leavesOfAll_groupNodes, leavesOfAll_nested nests]
    rw [kept] at shown
    exact ⟨full, tokens, scanned, kept, shown⟩

/-- A call without its closing bracket, and a query with an alias as it is shown. -/
theorem lossless_unclosed_call :
    (∃ nested, nestBrackets 1 [.name "f", .punctuation "(", .name "a", .punctuation ","] =
        some nested ∧
      leavesOfAll (groupNodes nested) =
        [.name "f", .punctuation "(", .name "a", .punctuation ","]) ∧
      ∃ statement, Statement.parse .generic "select\t1 as x" = .ok statement ∧
        statement.display = "SELECT 1 AS x" := by
  have scanned : Token.scan .generic "select\t1 as x" =
      .ok [.word ⟨"select", none⟩, .blank, .literal "1", .blank, .word ⟨"as", none⟩, .blank,
        .word ⟨"x", none⟩] := by decide +kernel
  have lexed : leavesOf [.word ⟨"select", none⟩, .blank, .literal "1", .blank,
      .word ⟨"as", none⟩, .blank, .word ⟨"x", none⟩] =
      [⟨.verb, "SELECT"⟩, .literal "1", .keyword "AS", .name "x"] := by decide +kernel
  have accepted := accepted_of_nested lexed (by simp) rfl
  have parsed := parse_eq_ok_iff.mpr ⟨_, scanned, accepted⟩
  obtain ⟨-, tokens, again, -, shown⟩ := grouping_lossless.2.2 _ _ _ parsed
  rw [scanned] at again
  cases again
  rw [lexed] at shown
  exact ⟨⟨_, rfl, (grouping_lossless.2.1 1 _ _ rfl).2.1⟩, _, parsed, shown⟩

end SqlMetrics
