import SqlMetrics.Proofs.Balanced
import SqlMetrics.Proofs.Plain.Counts

/-! # Derived tables

A statement in brackets behind `FROM` is grouped as it is on its own, so the counts of the statement
around it follow from its own counts (`features_derivedTable`). -/
set_option autoImplicit false
namespace SqlMetrics

open Node Plain

/-- A query for a column of a bracketed source, which may have a label. -/
def derivedTable (column : String) (source : List Leaf) (label : Option Alias) : List Leaf :=
  ⟨.verb, "SELECT"⟩ :: .name column :: .keyword "FROM" :: (inBrackets source ++ labelLeaves label)

def derivedTableNodes (column : String) (source : List Node) (label : Option Alias) : List Node :=
  [.leaf ⟨.verb, "SELECT"⟩, nameNode column, .leaf (.keyword "FROM"),
    extend (bracketNode source) (labelNodes label)]

/-! ## The tree -/

section Tree
variable {room : Nat} {source : List Leaf} {nodes : List Node}

theorem Level.bracketed_terms (level : Level room source nodes) (label : Option Alias) :
    Terms (room + 1) (inBrackets source ++ labelLeaves label)
      [extend (bracketNode (groupLevel nodes)) (labelNodes label)] := by
  have calls : groupCalls ([bracketNode (groupLevel nodes)] ++ (labelLeaves label).map .leaf) =
      bracketNode (groupLevel nodes) :: (labelLeaves label).map .leaf := by
    have kept : callRule (bracketNode (groupLevel nodes)) ((labelLeaves label).map .leaf) =
        (bracketNode (groupLevel nodes), 0) := by
      rcases label with _ | name | name <;> rfl
    rw [List.singleton_append, groupCalls, sweep_cons_kept kept]
    exact congrArg _ (groupCalls_leaves (labelLeaves label))
  have made := labelled_members label level.brackets calls rfl rfl rfl rfl
  rw [groupAliases_of_tail rfl (aliasTail_label rfl label)] at made
  exact made.alone

theorem Level.derivedTable_terms (level : Level room source nodes) (column : String)
    (label : Option Alias) :
    Terms (room + 1) (derivedTable column source label)
      (derivedTableNodes column (groupLevel nodes) label) := by
  have verb : (Leaf.mk .verb "SELECT").Divides := ⟨by decide, rfl, rfl⟩
  have table := Clauses.cons (.ofKeyword "FROM" (by decide)) (level.bracketed_terms label)
    Clauses.nil
  have name : Terms (room + 1) [.name column] [nameNode column] :=
    (DottedName.mk ⟨column, []⟩).member.alone
  have whole := (Clauses.cons verb name table).terms
  simpa [derivedTable, derivedTableNodes] using whole

end Tree

/-! ## The top level -/

section Nodes
variable (column : String) (source : List Node) (label : Option Alias)

theorem forall_derivedTableNodes {p : Node → Prop} (inert : ∀ node, Inert node → p node)
    (word : p (.leaf (.keyword "FROM"))) :
    ∀ node ∈ derivedTableNodes column source label, p node := by
  simp only [derivedTableNodes, List.forall_mem_cons]
  refine ⟨inert _ (inert_leaf (by decide)), inert _ (inert_group _ (by decide)), word, ?_,
    List.forall_mem_nil _⟩
  exact inert _ (inert_extend (inert_group _ (by decide)) _)

theorem isKeyword_derivedTableNodes {text : String} (noLabel : sameLetters "AS" text = false)
    (noFrom : sameLetters "FROM" text = false) :
    ∀ node ∈ derivedTableNodes column source label, node.isKeyword text = false := by
  apply forall_derivedTableNodes
  · intro node inert
    exact inert.noWord text noLabel
  · exact keyword_isKeyword noFrom

theorem joins_derivedTableNodes :
    (Statement.mk (derivedTableNodes column source label)).joins = 0 := by
  apply List.countP_eq_zero.mpr
  intro node member
  rw [isKeyword_derivedTableNodes column source label (by decide) (by decide) node member]
  exact Bool.false_ne_true

theorem groupByColumns_derivedTableNodes :
    (Statement.mk (derivedTableNodes column source label)).groupByColumns = 0 :=
  clauseColumns_eq_zero (isKeyword_derivedTableNodes column source label (by decide) (by decide))

theorem orderByColumns_derivedTableNodes :
    (Statement.mk (derivedTableNodes column source label)).orderByColumns = 0 :=
  clauseColumns_eq_zero (isKeyword_derivedTableNodes column source label (by decide) (by decide))

theorem whereConditions_derivedTableNodes :
    (Statement.mk (derivedTableNodes column source label)).whereConditions = 0 := by
  have noClause : ∀ node ∈ derivedTableNodes column source label,
      ¬ node.isGroupOf .whereClause = true := by
    apply forall_derivedTableNodes
    · intro node inert
      rw [inert.noClause]
      exact Bool.false_ne_true
    · exact Bool.false_ne_true
  rw [Statement.whereConditions, Statement.whereNodes, List.find?_eq_none.mpr noClause]
  rfl

theorem callsInAll_derivedTableNodes :
    callsInAll (derivedTableNodes column source label) = callsInAll source := by
  have name : (nameNode column).calls = 0 := rfl
  simp [derivedTableNodes, callsInAll, calls, name, calls_extend, calls_bracketNode,
    callsInAll_labelNodes]

theorem tablesBefore_derivedTableNodes :
    tablesBefore (derivedTableNodes column source label) =
      if label.isSome then 1 else tablesBefore source := by
  have verb : (Node.leaf ⟨.verb, "SELECT"⟩).isKeyword "FROM" = false := rfl
  have name : (nameNode column).isKeyword "FROM" = false := rfl
  have word : (Node.leaf (.keyword "FROM")).isKeyword "FROM" = true := by decide
  have goesOn : (extend (bracketNode source) (labelNodes label)).closesFrom = false :=
    closesFrom_of_inert (inert_extend (inert_group _ (by decide)) _)
  rw [derivedTableNodes, tablesBefore, verb, if_neg Bool.false_ne_true, tablesBefore, name,
    if_neg Bool.false_ne_true, tablesBefore, word, if_pos rfl, tablesWithin_cons goesOn,
    tablesWithin, Nat.add_zero]
  rcases label with _ | name | name
  · exact tables_bracketNode source
  · rfl
  · rfl

end Nodes

theorem countP_isSelect_derivedTable (column : String) (source : List Leaf) (label : Option Alias) :
    (derivedTable column source label).countP Leaf.isSelect =
      source.countP Leaf.isSelect + 1 := by
  have verb : Leaf.isSelect ⟨.verb, "SELECT"⟩ = true := by decide
  have labels : (labelLeaves label).countP Leaf.isSelect = 0 := by
    apply List.countP_eq_zero.mpr
    intro content member
    simpa [Leaf.isSelect] using fun verb => absurd verb (labelLeaves_noVerb label content member)
  have others : ∀ content ∈ [.name column, .keyword "FROM", opening, closing],
      Leaf.isSelect content = false := by
    simp [Leaf.isSelect, Leaf.name, Leaf.keyword, Leaf.punctuation]
  simp [derivedTable, inBrackets, verb, labels, others]

/-! ## The counts -/

/-- Balanced brackets of a source that nest within the limit around it: both the source and the
query for a column of it are accepted.  The query has one subquery more, the calls of the source,
and its tables unless a label makes it a single one; its own clauses count nothing. -/
theorem features_derivedTable {source : List Leaf} (filled : source ≠ [])
    (balanced : balances 0 (bracketsOf source) = true)
    (within : deepest 0 (bracketsOf source) ≤ 255) (column : String) :
    ∃ inner, Statement.ofLeaves source = .ok inner ∧
      ∀ label, ∃ outer, Statement.ofLeaves (derivedTable column source label) = .ok outer ∧
        outer.features =
          { joins := 0
            subqueries := inner.features.subqueries + 1
            whereConditions := 0
            functions := inner.features.functions
            tables := if label.isSome then 1 else inner.features.tables
            groupBy := 0
            orderBy := 0 } := by
  obtain ⟨nodes, level⟩ := exists_level balanced within
  have inside := level.ofLeaves (by decide)
  refine ⟨_, inside, fun label => ?_⟩
  have outside := (level.derivedTable_terms column label).ofLeaves (by decide)
  rw [groupWhere_eq_self (isKeyword_derivedTableNodes column (groupLevel nodes) label (by decide)
    (by decide))] at outside
  refine ⟨_, outside, ?_⟩
  have someLeaf : derivedTable column source label ≠ [] := List.cons_ne_nil _ _
  have subqueries : (Statement.mk (derivedTableNodes column (groupLevel nodes) label)).subqueries =
      (Statement.mk (groupLevel nodes)).subqueries + 1 := by
    rw [subqueries_ofLeaves someLeaf outside, countP_isSelect_derivedTable,
      subqueries_ofLeaves filled inside]
    omega
  rw [Statement.features, joins_derivedTableNodes, subqueries, whereConditions_derivedTableNodes,
    Statement.functions, callsInAll_derivedTableNodes, Statement.tables,
    tablesBefore_derivedTableNodes, groupByColumns_derivedTableNodes,
    orderByColumns_derivedTableNodes]
  rfl

/-- A source that ends in a `WHERE` clause with a period left open, in brackets with and without a
label. -/
theorem derivedTable_of_open_clause :
    ∃ source inner bare labelled, source =
        [⟨.verb, "SELECT"⟩, .name "b", .keyword "FROM", .name "t", .keyword "WHERE", .name "c",
          .keyword "IN", .punctuation "(", .name "f", .punctuation "(", .literal "1",
          .punctuation ")", .punctuation ")", .keyword "AND", .name "d", .punctuation "."] ∧
      source ≠ [] ∧ balances 0 (bracketsOf source) = true ∧ deepest 0 (bracketsOf source) ≤ 255 ∧
      Statement.ofLeaves source = .ok inner ∧
      Statement.ofLeaves (derivedTable "a" source none) = .ok bare ∧
      bare.features = ⟨0, inner.features.subqueries + 1, 0, inner.features.functions,
        inner.features.tables, 0, 0⟩ ∧
      Statement.ofLeaves (derivedTable "a" source (some (.worded "x"))) = .ok labelled ∧
      labelled.features =
        ⟨0, inner.features.subqueries + 1, 0, inner.features.functions, 1, 0, 0⟩ := by
  let source : List Leaf :=
    [⟨.verb, "SELECT"⟩, .name "b", .keyword "FROM", .name "t", .keyword "WHERE", .name "c",
      .keyword "IN", .punctuation "(", .name "f", .punctuation "(", .literal "1",
      .punctuation ")", .punctuation ")", .keyword "AND", .name "d", .punctuation "."]
  have someLeaf : source ≠ [] := List.cons_ne_nil _ _
  have balanced : balances 0 (bracketsOf source) = true := by decide
  have within : deepest 0 (bracketsOf source) ≤ 255 := by decide
  obtain ⟨inner, inside, around⟩ := features_derivedTable someLeaf balanced within "a"
  obtain ⟨bare, outside, counts⟩ := around none
  obtain ⟨labelled, outsideToo, countsToo⟩ := around (some (.worded "x"))
  exact ⟨source, inner, bare, labelled, rfl, someLeaf, balanced, within, inside, outside, counts,
    outsideToo, countsToo⟩

end SqlMetrics
