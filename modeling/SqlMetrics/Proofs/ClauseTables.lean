import Mathlib.Control.Monad.Basic
import SqlMetrics.Proofs.Acceptance
import SqlMetrics.Proofs.Counting
import SqlMetrics.Proofs.Terms
import SqlMetrics.Proofs.TreeGrammar

/-! # Tables in `WHERE` clauses

`Trims` cuts one `WHERE` clause of a tree, at any depth, down to the word `WHERE`.  That takes away
no more tables than the clause has behind a word `FROM` of its own, so a clause without that word
adds none, whatever subqueries its brackets hold (`tables_trims`).  A clause may have the word, in
`IS DISTINCT FROM`, and then its operands count as tables (`clause_with_from_adds_table`).

The word `WHERE` is in the clause, so it does not end the clause `FROM` before it: what stands
behind the clause counts too, unless it begins with one of the words that end both
(`tables_across_clause`). -/
set_option autoImplicit false
namespace SqlMetrics

open Node

namespace Node

/-- The second node is the first one with a single `WHERE` clause in it cut down to its word; these
were the children of the clause. -/
inductive Trims (clause : List Node) : Node → Node → Prop where
  | clause : Trims clause (.group .whereClause clause)
      (.group .whereClause [.leaf (.keyword "WHERE")])
  | inside {kind : GroupKind} {front back : List Node} {node other : Node}
      (trims : Trims clause node other) :
      Trims clause (.group kind (front ++ node :: back)) (.group kind (front ++ other :: back))

/-- The first node has the tables of the second one and at most so many more. -/
structure AtMostMore (more : Nat) (first second : Nat) : Prop where
  le : second ≤ first
  within : first ≤ second + more

variable {clause front : List Node} {node other : Node}

theorem Trims.groups (trims : Trims clause node other) :
    ∃ kind children others, node = .group kind children ∧ other = .group kind others := by
  cases trims with
  | clause => exact ⟨_, _, _, rfl, rfl⟩
  | inside trims => exact ⟨_, _, _, rfl, rfl⟩

/-! ## One node of a list is trimmed -/

theorem tablesWithin_replace {more : Nat} (closes : other.closesFrom = node.closesFrom)
    (tables : AtMostMore more node.tables other.tables) (front back : List Node) :
    AtMostMore more (tablesWithin (front ++ node :: back))
      (tablesWithin (front ++ other :: back)) := by
  obtain ⟨le, within⟩ := tables
  induction front with
  | nil =>
      rw [List.nil_append, List.nil_append, tablesWithin, tablesWithin, closes]
      split
      · exact ⟨Nat.le_refl 0, Nat.zero_le _⟩
      · exact ⟨by omega, by omega⟩
  | cons first rest ih =>
      obtain ⟨leRest, withinRest⟩ := ih
      rw [List.cons_append, List.cons_append, tablesWithin, tablesWithin]
      split
      · exact ⟨Nat.le_refl 0, Nat.zero_le _⟩
      · exact ⟨by omega, by omega⟩

theorem tablesBefore_replace {more : Nat} (noFrom : node.isKeyword "FROM" = false)
    (noFromToo : other.isKeyword "FROM" = false) (closes : other.closesFrom = node.closesFrom)
    (tables : AtMostMore more node.tables other.tables) (front back : List Node) :
    AtMostMore more (tablesBefore (front ++ node :: back))
      (tablesBefore (front ++ other :: back)) := by
  induction front with
  | nil =>
      simp only [List.nil_append, tablesBefore, noFrom, noFromToo, Bool.false_eq_true, if_false]
      exact ⟨Nat.le_refl _, Nat.le_add_right _ _⟩
  | cons first rest ih =>
      rw [List.cons_append, List.cons_append, tablesBefore, tablesBefore]
      split
      · exact tablesWithin_replace closes tables rest back
      · exact ih

/-! ## The tables of a trimmed node -/

theorem Trims.tables (trims : Trims clause node other) :
    AtMostMore (tablesBefore clause) node.tables other.tables := by
  induction trims with
  | clause =>
      have wordAlone : (Node.group .whereClause [.leaf (.keyword "WHERE")]).tables = 0 := by decide
      have all : (Node.group .whereClause clause).tables = tablesBefore clause := by
        rw [Node.tables] <;> simp
      rw [wordAlone, all]
      exact ⟨Nat.zero_le _, by omega⟩
  | @inside kind front back node other trims ih =>
      obtain ⟨inner, children, others, rfl, rfl⟩ := trims.groups
      have closes : (Node.group inner others).closesFrom = (Node.group inner children).closesFrom :=
        rfl
      have counted := tablesBefore_replace rfl rfl closes ih front back
      cases kind with
      | identifier =>
          rw [Node.tables, Node.tables]
          exact ⟨Nat.le_refl 1, Nat.le_add_right 1 _⟩
      | identifierList =>
          have members : (front ++ .group inner others :: back).countP (·.isGroupOf .identifier) =
              (front ++ .group inner children :: back).countP (·.isGroupOf .identifier) := by
            simp [isGroupOf, groupKind?, List.countP_cons]
          rw [Node.tables, Node.tables, members]
          exact ⟨Nat.le_refl _, Nat.le_add_right _ _⟩
      | _ => simpa only [Node.tables] using counted

end Node

/-- Cutting a `WHERE` clause, wherever it stands in the tree, never adds a table and takes away at
most those behind a `FROM` of the clause itself.  Without such a `FROM` the clause has no tables,
and the statement has the same without it. -/
theorem tables_trims {clause : List Node} {statement trimmed : Statement}
    (trims : Trims clause statement.root trimmed.root) :
    trimmed.tables ≤ statement.tables ∧
      statement.tables ≤ trimmed.tables + tablesBefore clause ∧
      ((∀ node ∈ clause, node.isKeyword "FROM" = false) →
        tablesBefore clause = 0 ∧ trimmed.tables = statement.tables) := by
  have rootTables : ∀ statement : Statement, statement.root.tables = statement.tables := by
    intro statement
    rw [Statement.root, Node.tables] <;> simp [Statement.tables]
  obtain ⟨le, within⟩ := trims.tables
  rw [rootTables, rootTables] at le within
  refine ⟨le, within, fun noFrom => ?_⟩
  have noTables := tablesBefore_eq_zero noFrom
  exact ⟨noTables, by omega⟩

/-- A clause with a subquery in it: the tables of the statement are those without the clause. -/
theorem trims_clause_with_subquery :
    ∃ (statement trimmed : Statement) (clause : List Node),
      Statement.ofLeaves [⟨.verb, "SELECT"⟩, .name "a", .keyword "FROM", .name "t",
        .keyword "WHERE", .name "a", .keyword "IN", .punctuation "(", ⟨.verb, "SELECT"⟩, .name "b",
        .keyword "FROM", .name "u", .punctuation ")"] = .ok statement ∧
      Trims clause statement.root trimmed.root ∧
      (∀ node ∈ clause, node.isKeyword "FROM" = false) ∧
      tablesBefore clause = 0 ∧ statement.tables = 1 ∧ trimmed.tables = statement.tables := by
  let front : List Node := [.leaf ⟨.verb, "SELECT"⟩, .group .identifier [.leaf (.name "a")],
    .leaf (.keyword "FROM"), .group .identifier [.leaf (.name "t")]]
  let clause : List Node := [.leaf (.keyword "WHERE"), .group .identifier [.leaf (.name "a")],
    .leaf (.keyword "IN"), .group .parenthesis [.leaf (.punctuation "("),
      .leaf ⟨.verb, "SELECT"⟩, .group .identifier [.leaf (.name "b")], .leaf (.keyword "FROM"),
      .group .identifier [.leaf (.name "u")], .leaf (.punctuation ")")]]
  have nodes : groupNodes [.leaf ⟨.verb, "SELECT"⟩, .leaf (.name "a"), .leaf (.keyword "FROM"),
      .leaf (.name "t"), .leaf (.keyword "WHERE"), .leaf (.name "a"), .leaf (.keyword "IN"),
      .group .parenthesis [.leaf (.punctuation "("), .leaf ⟨.verb, "SELECT"⟩, .leaf (.name "b"),
        .leaf (.keyword "FROM"), .leaf (.name "u"), .leaf (.punctuation ")")]] =
      front ++ .group .whereClause clause :: [] := by
    simp only [groupNodes, groupInsideAll, groupInside, groupLevel_eq_sweepLevel]
    rfl
  have trims : Trims clause (Statement.mk (front ++ .group .whereClause clause :: [])).root
      (Statement.mk (front ++ .group .whereClause [.leaf (.keyword "WHERE")] :: [])).root :=
    .inside .clause
  have noFrom : ∀ node ∈ clause, node.isKeyword "FROM" = false := by decide
  obtain ⟨noTables, same⟩ := (tables_trims trims).2.2 noFrom
  refine ⟨_, _, clause, ?_, trims, noFrom, noTables, by decide, same⟩
  rw [← nodes]
  rfl

/-- The operands of `IS DISTINCT FROM` in a clause: one of them counts as a table. -/
theorem clause_with_from_adds_table :
    ∃ (statement trimmed : Statement) (clause : List Node),
      Statement.parse .generic "SELECT a FROM t WHERE a IS DISTINCT FROM b" = .ok statement ∧
      Trims clause statement.root trimmed.root ∧
      tablesBefore clause = 1 ∧ statement.tables = 2 ∧ trimmed.tables = 1 := by
  let front : List Node := [.leaf ⟨.verb, "SELECT"⟩, .group .identifier [.leaf (.name "a")],
    .leaf (.keyword "FROM"), .group .identifier [.leaf (.name "t")]]
  let clause : List Node := [.leaf (.keyword "WHERE"), .group .identifier [.leaf (.name "a")],
    .leaf (.keyword "IS"), .leaf (.keyword "DISTINCT"), .leaf (.keyword "FROM"),
    .group .identifier [.leaf (.name "b")]]
  let tokens : List Token := [.word ⟨"SELECT", none⟩, .blank, .word ⟨"a", none⟩, .blank,
    .word ⟨"FROM", none⟩, .blank, .word ⟨"t", none⟩, .blank, .word ⟨"WHERE", none⟩, .blank,
    .word ⟨"a", none⟩, .blank, .word ⟨"IS", none⟩, .blank, .word ⟨"DISTINCT", none⟩, .blank,
    .word ⟨"FROM", none⟩, .blank, .word ⟨"b", none⟩]
  have scanned : Token.scan .generic "SELECT a FROM t WHERE a IS DISTINCT FROM b" = .ok tokens := by
    decide +kernel
  have lexed : leavesOf tokens =
      [⟨.verb, "SELECT"⟩, .name "a", .keyword "FROM", .name "t", .keyword "WHERE", .name "a",
        .keyword "IS", .keyword "DISTINCT", .keyword "FROM", .name "b"] := by decide +kernel
  have nodes : groupNodes [.leaf ⟨.verb, "SELECT"⟩, .leaf (.name "a"), .leaf (.keyword "FROM"),
      .leaf (.name "t"), .leaf (.keyword "WHERE"), .leaf (.name "a"), .leaf (.keyword "IS"),
      .leaf (.keyword "DISTINCT"), .leaf (.keyword "FROM"), .leaf (.name "b")] =
      front ++ .group .whereClause clause :: [] := by
    simp only [groupNodes, groupInsideAll, groupInside, groupLevel_eq_sweepLevel]
    rfl
  have accepted : Statement.ofTokens tokens = .ok ⟨front ++ .group .whereClause clause :: []⟩ := by
    rw [← nodes]
    exact accepted_of_nested lexed (by simp) rfl
  exact ⟨_, ⟨front ++ .group .whereClause [.leaf (.keyword "WHERE")] :: []⟩, clause,
    (Statement.parse_of_scan scanned).trans accepted, .inside .clause, by decide, by decide,
    by decide⟩

/-! ## What stands behind a clause -/

section Behind
variable {front between clause back nodes : List Node} {word : Node}

theorem closesWhere_of_groupWhere
    (noClause : ∀ node ∈ nodes, node.isGroupOf .whereClause = false) :
    ∀ front, groupWhere nodes = front ++ .group .whereClause clause :: back →
      ∀ next ∈ back.head?, closesWhere next := by
  induction nodes using sweep.induct whereRule with
  | case1 => simp
  | case2 node rest merged ih =>
      intro front split
      rw [groupWhere, sweep_cons] at split
      cases front with
      | cons first before =>
          refine ih (fun next member => noClause next ?_) before (List.cons.inj split).2
          exact List.mem_cons_of_mem _ (List.mem_of_mem_drop member)
      | nil =>
          obtain ⟨built, behind⟩ := List.cons.inj split
          cases starts : node.isKeyword "WHERE" with
          | false =>
              have kept : (whereRule node rest).1 = node := by simp [whereRule, starts]
              have noGroup := noClause node List.mem_cons_self
              rw [← kept, built] at noGroup
              cases noGroup
          | true =>
              rw [drop_whereRule starts] at behind
              exact behind ▸ head_groupWhere_dropWhile rest

theorem closesWhere_of_accepted {tokens : List Token} {statement : Statement}
    (accepted : Statement.ofTokens tokens = .ok statement)
    (split : statement.nodes = front ++ .group .whereClause clause :: back) :
    ∀ next ∈ back.head?, closesWhere next := by
  obtain ⟨-, nested, nests, rfl⟩ := nested_of_accepted accepted
  have named := groupTerms_named _ (levelNode_groupInsideAll nests)
  exact closesWhere_of_groupWhere (fun node member => (named node member).noClause) _ split

/-- In an accepted statement a `WHERE` clause behind the first `FROM` runs up to a node that ends
it, and no further.  The tables are those before the clause, and unless an earlier word ends the
clause `FROM`, also those of the clause itself and all behind it up to the next word that does.  So
it is just those before when the clause has no `FROM` and is the last one or followed by `GROUP BY`,
`ORDER BY` or `LIMIT`. -/
theorem tables_across_clause {tokens : List Token} {statement : Statement}
    (accepted : Statement.ofTokens tokens = .ok statement)
    (nodes : statement.nodes =
      front ++ word :: (between ++ .group .whereClause clause :: back))
    (noFrom : ∀ node ∈ front, node.isKeyword "FROM" = false) (starts : word.isKeyword "FROM") :
    (∀ next ∈ back.head?, closesWhere next) ∧
      statement.tables = tablesBefore (front ++ word :: between) +
        (if between.any closesFrom then 0 else tablesBefore clause + tablesWithin back) ∧
      (statement.tables = tablesBefore (front ++ word :: between) ↔
        between.any closesFrom ∨ tablesBefore clause = 0 ∧ tablesWithin back = 0) ∧
      ((∀ node ∈ clause, node.isKeyword "FROM" = false) →
        (∀ next ∈ back.head?, next.closesFrom) →
          statement.tables = tablesBefore (front ++ word :: between)) := by
  have ends : ∀ next ∈ back.head?, closesWhere next := by
    have split : statement.nodes =
        (front ++ word :: between) ++ .group .whereClause clause :: back := by
      rw [nodes, List.append_assoc, List.cons_append]
    exact closesWhere_of_accepted accepted split
  have tables : statement.tables = tablesBefore (front ++ word :: between) +
      (if between.any closesFrom then 0 else tablesBefore clause + tablesWithin back) := by
    have inClause : (Node.group .whereClause clause).tables = tablesBefore clause := by
      rw [Node.tables] <;> simp
    have goesOn : (Node.group .whereClause clause).closesFrom = false := rfl
    rw [Statement.tables, nodes, tablesBefore_append noFrom, tablesBefore_append noFrom,
      tablesBefore, tablesBefore, if_pos starts, if_pos starts, tablesWithin_append,
      tablesWithin_cons goesOn, inClause]
  refine ⟨ends, tables, ?_, fun noFromInside closes => ?_⟩
  · rw [tables]
    split <;> simp [*]
  · have noneInside := tablesBefore_eq_zero noFromInside
    have noneBehind : tablesWithin back = 0 := by
      cases back with
      | nil => rw [tablesWithin]
      | cons next rest => rw [tablesWithin, if_pos (closes next rfl)]
    rw [tables, noneInside, noneBehind]
    simp

end Behind

/-- Behind this clause `ORDER BY` ends both. -/
theorem clause_before_order :
    ∃ (tokens : List Token) (statement : Statement) (front between clause back : List Node)
      (word : Node),
      Statement.ofTokens tokens = .ok statement ∧
      statement.nodes = front ++ word :: (between ++ .group .whereClause clause :: back) ∧
      (∀ node ∈ front, node.isKeyword "FROM" = false) ∧ word.isKeyword "FROM" ∧
      back.length = 2 ∧ statement.tables = tablesBefore (front ++ word :: between) := by
  let front : List Node := [.leaf ⟨.verb, "SELECT"⟩, .group .identifier [.leaf (.name "a")]]
  let between : List Node := [.group .identifier [.leaf (.name "t")]]
  let clause : List Node := [.leaf (.keyword "WHERE"), .group .identifier [.leaf (.name "b")]]
  let back : List Node :=
    [.leaf (.keyword "ORDER BY"), .group .identifier [.leaf (.name "c")]]
  let tokens : List Token := [.word ⟨"SELECT", none⟩, .word ⟨"a", none⟩, .word ⟨"FROM", none⟩,
    .word ⟨"t", none⟩, .word ⟨"WHERE", none⟩, .word ⟨"b", none⟩, .word ⟨"ORDER", none⟩,
    .word ⟨"BY", none⟩, .word ⟨"c", none⟩]
  let leaves : List Leaf := [⟨.verb, "SELECT"⟩, .name "a", .keyword "FROM", .name "t",
    .keyword "WHERE", .name "b", .keyword "ORDER BY", .name "c"]
  have lexed : leavesOf tokens = leaves := by decide +kernel
  have nodes : groupNodes (leaves.map .leaf) =
      front ++ .leaf (.keyword "FROM") :: (between ++ .group .whereClause clause :: back) := by
    rw [groupNodes, groupInsideAll_leaves, groupLevel_eq_sweepLevel]
    rfl
  have accepted := accepted_of_nested lexed (by simp [leaves]) rfl
  have noFrom : ∀ node ∈ front, node.isKeyword "FROM" = false := by decide
  have noFromInside : ∀ node ∈ clause, node.isKeyword "FROM" = false := by decide
  have ends : ∀ next ∈ back.head?, next.closesFrom := by decide
  obtain ⟨-, -, -, same⟩ := tables_across_clause accepted nodes noFrom (by decide)
  exact ⟨tokens, _, front, between, clause, back, _, accepted, nodes, noFrom, by decide, rfl,
    same noFromInside ends⟩

/-- The branch of a `UNION` behind the clause: its column and its table count as tables. -/
theorem union_behind_clause_adds_tables :
    ∃ (statement : Statement) (front between clause back : List Node) (word : Node),
      Statement.parse .generic "SELECT a FROM t WHERE b UNION SELECT c FROM u" = .ok statement ∧
      statement.nodes = front ++ word :: (between ++ .group .whereClause clause :: back) ∧
      (∀ node ∈ front, node.isKeyword "FROM" = false) ∧ word.isKeyword "FROM" ∧
      (∀ node ∈ between, node.isGroupOf .whereClause = false) ∧
      tablesBefore (front ++ word :: between) = 1 ∧ statement.tables = 3 := by
  let front : List Node := [.leaf ⟨.verb, "SELECT"⟩, .group .identifier [.leaf (.name "a")]]
  let between : List Node := [.group .identifier [.leaf (.name "t")]]
  let clause : List Node := [.leaf (.keyword "WHERE"), .group .identifier [.leaf (.name "b")]]
  let back : List Node := [.leaf (.keyword "UNION"), .leaf ⟨.verb, "SELECT"⟩,
    .group .identifier [.leaf (.name "c")], .leaf (.keyword "FROM"),
    .group .identifier [.leaf (.name "u")]]
  let tokens : List Token := [.word ⟨"SELECT", none⟩, .blank, .word ⟨"a", none⟩, .blank,
    .word ⟨"FROM", none⟩, .blank, .word ⟨"t", none⟩, .blank, .word ⟨"WHERE", none⟩, .blank,
    .word ⟨"b", none⟩, .blank, .word ⟨"UNION", none⟩, .blank, .word ⟨"SELECT", none⟩, .blank,
    .word ⟨"c", none⟩, .blank, .word ⟨"FROM", none⟩, .blank, .word ⟨"u", none⟩]
  let leaves : List Leaf := [⟨.verb, "SELECT"⟩, .name "a", .keyword "FROM", .name "t",
    .keyword "WHERE", .name "b", .keyword "UNION", ⟨.verb, "SELECT"⟩, .name "c",
    .keyword "FROM", .name "u"]
  have scanned : Token.scan .generic "SELECT a FROM t WHERE b UNION SELECT c FROM u" =
      .ok tokens := by decide +kernel
  have lexed : leavesOf tokens = leaves := by decide +kernel
  have nodes : groupNodes (leaves.map .leaf) =
      front ++ .leaf (.keyword "FROM") :: (between ++ .group .whereClause clause :: back) := by
    rw [groupNodes, groupInsideAll_leaves, groupLevel_eq_sweepLevel]
    rfl
  have accepted := accepted_of_nested lexed (by simp [leaves]) rfl
  have tables : (Statement.mk (groupNodes (leaves.map .leaf))).tables = 3 := by
    rw [nodes]
    decide
  exact ⟨_, front, between, clause, back, _, (Statement.parse_of_scan scanned).trans accepted,
    nodes, by decide, by decide, by decide, by decide, tables⟩

end SqlMetrics
