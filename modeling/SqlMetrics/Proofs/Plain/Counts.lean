import SqlMetrics.Proofs.Counting
import SqlMetrics.Proofs.Plain.Tree

/-! # What a plain `SELECT` counts

The seven counts of the tree of a plain statement are those that are read off its phrases
(`Select.features_ofLeaves`). -/
set_option autoImplicit false
namespace SqlMetrics

open Node

/-! ## Calls through lists and labels -/

theorem callsInAll_groupLists (nodes : List Node) :
    callsInAll (groupLists nodes) = callsInAll nodes :=
  listRule_wraps.callsInAll_sweep nodes

theorem calls_extend (base : Node) (tail : List Node) :
    (extend base tail).calls = base.calls + callsInAll tail :=
  (wrapped_extend base tail).calls

namespace Plain

/-! ## Lists -/

section Several
variable {α : Type} (several : Several α) {node : α → Node} {p : Node → Bool}

theorem Several.countP_written (marked : p (.leaf comma) = false)
    (each : ∀ thing, p (node thing) = true) :
    (several.written (.leaf comma) fun thing => [node thing]).countP p = several.count := by
  obtain ⟨first, others⟩ := several
  have behind : (others.flatMap fun thing => [.leaf comma, node thing]).countP p =
      others.length := by
    induction others with
    | nil => rfl
    | cons thing rest ih => simp [marked, each, ih]
  rw [written, List.countP_append, behind, List.countP_singleton, each, if_pos rfl, count,
    Nat.add_comm]

theorem Several.tables_list (each : ∀ thing, (node thing).isGroupOf .identifier = true) :
    (several.list node).tables = several.count := by
  rw [list]
  split
  · next alone =>
      have noOthers : several.others.length = 0 := by simpa using alone
      obtain ⟨children, identifier⟩ := isGroupOf_iff.mp (each several.first)
      rw [identifier, tables, count, noOthers]
  · exact several.countP_written rfl each

/-- A single thing has its own columns, and of more than one each is a column. -/
theorem Several.columns_list_eq (noMark : ∀ thing, (node thing).isLeafOf .punctuation = false) :
    (several.list node).columns =
      if several.others.isEmpty then (node several.first).columns else several.count := by
  rw [list]
  split
  · rfl
  · rw [columns, Node.members, ← List.countP_eq_length_filter]
    refine several.countP_written rfl fun thing => ?_
    simpa [isLeafOf] using noMark thing

theorem Several.columns_list (each : ∀ thing, (node thing).isGroupOf .identifier = true) :
    (several.list node).columns = several.count := by
  have noMark : ∀ thing, (node thing).isLeafOf .punctuation = false := by
    intro thing
    obtain ⟨children, identifier⟩ := isGroupOf_iff.mp (each thing)
    rw [identifier]
    rfl
  rw [several.columns_list_eq noMark]
  split
  · next alone =>
      have noOthers : several.others.length = 0 := by simpa using alone
      obtain ⟨children, identifier⟩ := isGroupOf_iff.mp (each several.first)
      rw [identifier, columns, count, noOthers]
  · rfl

theorem Several.callsInAll_written {nodes : α → List Node} :
    callsInAll (several.written (.leaf comma) nodes) =
      (several.all.map fun thing => callsInAll (nodes thing)).sum := by
  obtain ⟨first, others⟩ := several
  rw [written, callsInAll_append, all, List.map_cons, List.sum_cons]
  congr 1
  induction others with
  | nil => rfl
  | cons thing rest ih =>
      rw [List.flatMap_cons, callsInAll_append, ih, callsInAll, calls, Nat.zero_add, List.map_cons,
        List.sum_cons]

theorem Several.calls_list (each : ∀ thing, (node thing).calls = 0) :
    (several.list node).calls = 0 := by
  rw [list]
  split
  · exact each several.first
  · rw [calls_group (by decide)]
    exact callsInAll_eq_zero (several.forall_written rfl fun thing =>
      List.forall_mem_singleton.mpr (each thing))

end Several

/-! ## Calls -/

theorem DottedName.calls_node (name : DottedName) : name.node.calls = 0 := by
  rw [node, calls_group (by decide), callsInAll_leaves]

theorem callsInAll_labelNodes (label : Option Alias) : callsInAll (labelNodes label) = 0 := by
  rcases label with _ | name | name <;> rfl

theorem Item.callsInAll_nodes (item : Item) :
    callsInAll item.nodes = if item.expression.isCall then 1 else 0 := by
  obtain ⟨expression, label⟩ := item
  cases expression with
  | column name =>
      have noCalls := callsInAll_labelNodes (label.map .worded)
      simp [nodes, callsInAll, calls_extend, name.calls_node, noCalls, Expression.isCall]
  | star =>
      have noCalls := callsInAll_labelNodes (label.map .worded)
      simp [nodes, starNode, callsInAll, calls, noCalls, Expression.isCall]
  | call name arguments =>
      have noCalls := callsInAll_labelNodes (label.map .worded)
      simp [nodes, callsInAll, calls_extend, noCalls, callNode, calls, Expression.isCall]

theorem Select.callsInAll_itemNodes (select : Select) :
    callsInAll select.itemNodes = select.items.all.countP (·.expression.isCall) := by
  rw [itemNodes, callsInAll_groupLists, Several.callsInAll_written]
  induction select.items.all with
  | nil => rfl
  | cons item rest ih =>
      rw [List.map_cons, List.sum_cons, ih, item.callsInAll_nodes, List.countP_cons, Nat.add_comm]

theorem TableReference.calls_node (reference : TableReference) : reference.node.calls = 0 := by
  rw [node, calls_extend, reference.table.calls_node, callsInAll_labelNodes]

theorem SortColumn.calls_node (sort : SortColumn) : sort.node.calls = 0 := by
  rw [node, calls_extend, sort.column.calls_node, callsInAll_leaves]

theorem Operand.calls_node (operand : Operand) : operand.node.calls = 0 := by
  cases operand with
  | column name => exact name.calls_node
  | literal value => rfl

theorem calls_comparisonNode {left right : Node} (operator : String) (noLeft : left.calls = 0)
    (noRight : right.calls = 0) : (comparisonNode left operator right).calls = 0 := by
  rw [comparisonNode, calls_group (by decide)]
  simp [callsInAll, calls, noLeft, noRight]

theorem calls_bracketNode (inside : List Node) :
    (bracketNode inside).calls = callsInAll inside := by
  rw [bracketNode, calls_group (by decide), callsInAll, callsInAll_append]
  simp [callsInAll, calls]

theorem Join.callsInAll_nodes (join : Join) : callsInAll join.nodes = 0 := by
  have condition : callsInAll join.condition.nodes = 0 := by
    cases join.condition with
    | on left operator right =>
        have compared := calls_comparisonNode operator left.calls_node right.calls_node
        simp [JoinCondition.nodes, callsInAll, calls, compared]
    | sharing columns =>
        have names : (columns.list nameNode).calls = 0 := columns.calls_list fun _ => rfl
        simp [JoinCondition.nodes, callsInAll, calls, calls_bracketNode, names]
  simp [nodes, callsInAll, calls, join.reference.calls_node, condition]

theorem Predicate.callsInAll_nodes (predicate : Predicate) : callsInAll predicate.nodes = 0 := by
  induction predicate with
  | compare column operator operand =>
      simp [nodes, callsInAll,
        calls_comparisonNode operator column.calls_node operand.calls_node]
  | between column low high => simp [nodes, callsInAll, calls, column.calls_node]
  | among column values =>
      have list : (Literal.list values).calls = 0 := values.calls_list fun _ => rfl
      simp [nodes, callsInAll, calls, column.calls_node, calls_bracketNode, list]
  | both left right ihLeft ihRight =>
      simp [nodes, callsInAll_append, callsInAll, calls, ihLeft, ihRight]
  | either left right ihLeft ihRight =>
      simp [nodes, callsInAll_append, callsInAll, calls, ihLeft, ihRight]
  | bracketed inside ih => simp [nodes, callsInAll, calls_bracketNode, ih]

theorem callsInAll_clauseTerms {α : Type} {word : String} {nodes : α → List Node}
    (option : Option α) (content : ∀ thing, callsInAll (nodes thing) = 0) :
    callsInAll (clauseTerms word nodes option) = 0 := by
  cases option with
  | none => rfl
  | some thing => simp [clauseTerms, callsInAll, calls, content]

theorem Select.callsInAll_backNodes (select : Select) : callsInAll select.backNodes = 0 := by
  have columns : ∀ columns : Several DottedName,
      callsInAll [columns.list DottedName.node] = 0 := fun columns => by
    rw [callsInAll, columns.calls_list DottedName.calls_node, callsInAll]
  have sorts : ∀ sorts : Several SortColumn, callsInAll [sorts.list SortColumn.node] = 0 :=
    fun sorts => by rw [callsInAll, sorts.calls_list SortColumn.calls_node, callsInAll]
  rw [backNodes, callsInAll_append, callsInAll_append, callsInAll_clauseTerms _ columns,
    callsInAll_clauseTerms _ sorts, callsInAll_clauseTerms _ fun _ => rfl]

theorem Select.callsInAll_nodes (select : Select) :
    callsInAll select.nodes = select.items.all.countP (·.expression.isCall) := by
  have references : (select.references.list TableReference.node).calls = 0 :=
    select.references.calls_list TableReference.calls_node
  have joins : callsInAll (select.joins.flatMap Join.nodes) = 0 := by
    induction select.joins with
    | nil => rfl
    | cons join rest ih => rw [List.flatMap_cons, callsInAll_append, join.callsInAll_nodes, ih]
  have condition : callsInAll (whereNodes select.condition) = 0 := by
    cases select.condition with
    | none => rfl
    | some condition =>
        simp [whereNodes, callsInAll, calls, condition.callsInAll_nodes]
  rw [nodes, frontNodes, callsInAll_append, callsInAll_append, condition,
    select.callsInAll_backNodes, callsInAll, callsInAll_append, select.callsInAll_itemNodes]
  simp [callsInAll, calls, references, joins]

/-! ## Joins -/

theorem Join.countP_nodes (join : Join) :
    join.nodes.countP (·.isKeyword "JOIN") = if join.modifiers.isEmpty then 1 else 0 := by
  have reference := join.reference.inert.noWord "JOIN" (by decide)
  have condition : join.condition.nodes.countP (·.isKeyword "JOIN") = 0 := by
    rw [List.countP_eq_zero]
    cases join.condition with
    | on left operator right =>
        simp only [JoinCondition.nodes, List.forall_mem_cons]
        exact ⟨by decide, Bool.false_ne_true, List.forall_mem_nil _⟩
    | sharing columns =>
        simp only [JoinCondition.nodes, List.forall_mem_cons]
        exact ⟨by decide, Bool.false_ne_true, List.forall_mem_nil _⟩
  rw [nodes, List.countP_cons, List.countP_cons, condition, phrase_isJoin, reference]
  simp

theorem Select.countP_join (select : Select) :
    select.nodes.countP (·.isKeyword "JOIN") = select.joins.countP (·.modifiers.isEmpty) := by
  have items : select.itemNodes.countP (·.isKeyword "JOIN") = 0 :=
    List.countP_eq_zero.mpr fun node member => by
      simp [(select.inert_itemNodes node member).noWord "JOIN" (by decide)]
  have references := (select.references.list_inert TableReference.inert).noWord "JOIN" (by decide)
  have joins : (select.joins.flatMap Join.nodes).countP (·.isKeyword "JOIN") =
      select.joins.countP (·.modifiers.isEmpty) := by
    induction select.joins with
    | nil => rfl
    | cons join rest ih =>
        rw [List.flatMap_cons, List.countP_append, join.countP_nodes, ih, List.countP_cons,
          Nat.add_comm]
  have condition : (whereNodes select.condition).countP (·.isKeyword "JOIN") = 0 := by
    cases select.condition <;> rfl
  have noJoin := select.isKeyword_backNodes "JOIN"
  have back : select.backNodes.countP (·.isKeyword "JOIN") = 0 :=
    List.countP_eq_zero.mpr fun node member => by simp [noJoin node member]
  have begins : (Node.leaf (.keyword "FROM")).isKeyword "JOIN" = false := by decide
  rw [nodes, frontNodes, List.countP_append, List.countP_append, condition, back, List.countP_cons,
    List.countP_append, items, List.countP_cons, List.countP_cons, joins, references, begins]
  simp [isKeyword, Leaf.isKeyword]

/-! ## Conditions -/

theorem Literal.conditions_leaf (value : Literal) : (Node.leaf value.leaf).conditions = 0 := by
  simp [conditions, leafConditions, leaf, Leaf.literal, value.noSymbol]

theorem conditions_values (values : Several Literal) : (Literal.list values).conditions = 0 := by
  rw [Literal.list, Several.list]
  split
  · exact values.first.conditions_leaf
  · rw [conditions, List.countP_eq_zero]
    refine values.forall_written Bool.false_ne_true fun value => ?_
    exact List.forall_mem_singleton.mpr Bool.false_ne_true

theorem conditions_bracketNode (inside : List Node) :
    (bracketNode inside).conditions = conditionsInAll inside := by
  have opened : leafConditions opening = 0 := by decide
  have closed : leafConditions closing = 0 := by decide
  simp [bracketNode, conditions, conditionsInAll, conditionsInAll_append, opened, closed]

theorem Predicate.conditionsInAll_nodes (predicate : Predicate) :
    conditionsInAll predicate.nodes = predicate.atoms := by
  have joint : ∀ word ∈ ["AND", "OR"], (Node.leaf (.keyword word)).conditions = 0 := by decide
  have atom : ∀ word ∈ ["BETWEEN", "IN"], (Node.leaf (.keyword word)).conditions = 1 := by decide
  induction predicate with
  | compare column operator operand => rfl
  | between column low high =>
      simp only [nodes, conditionsInAll, atom "BETWEEN" (by simp), joint "AND" (by simp),
        low.conditions_leaf, high.conditions_leaf]
      rfl
  | among column values =>
      simp only [nodes, conditionsInAll, atom "IN" (by simp), conditions_bracketNode,
        conditions_values]
      rfl
  | both left right ihLeft ihRight =>
      rw [nodes, conditionsInAll_append, conditionsInAll, ihLeft, ihRight, joint "AND" (by simp),
        Nat.zero_add, atoms]
  | either left right ihLeft ihRight =>
      rw [nodes, conditionsInAll_append, conditionsInAll, ihLeft, ihRight, joint "OR" (by simp),
        Nat.zero_add, atoms]
  | bracketed inside ih =>
      rw [nodes, conditionsInAll, conditions_bracketNode, ih, conditionsInAll, Nat.add_zero, atoms]

theorem Select.noClause_frontNodes (select : Select) :
    ∀ node ∈ select.frontNodes, ¬ node.isGroupOf .whereClause = true :=
  select.forall_frontNodes (fun _ inert => by simp [inert.noClause]) Bool.false_ne_true
    (fun _ _ => Bool.false_ne_true) fun _ => Bool.false_ne_true

theorem Select.noClause_backNodes (select : Select) :
    ∀ node ∈ select.backNodes, ¬ node.isGroupOf .whereClause = true :=
  select.forall_backNodes (fun _ inert => by simp [inert.noClause])
    fun _ _ => Bool.false_ne_true

theorem Select.whereConditions_nodes (select : Select) :
    (Statement.mk select.nodes).whereConditions =
      (select.condition.map Predicate.atoms).getD 0 := by
  rw [Statement.whereConditions, Statement.whereNodes, nodes, List.find?_append,
    List.find?_eq_none.mpr select.noClause_frontNodes, Option.none_or]
  cases select.condition with
  | none =>
      rw [whereNodes, List.nil_append, List.find?_eq_none.mpr select.noClause_backNodes]
      rfl
  | some condition =>
      have word : (Node.leaf (.keyword "WHERE")).conditions = 0 := by decide
      rw [whereNodes, List.singleton_append, List.find?_cons_of_pos (by rfl)]
      simp only [Option.bind_some, children?, Option.getD_some, conditionsInAll, word,
        condition.conditionsInAll_nodes, Option.map_some, Nat.zero_add]

/-! ## Subqueries -/

def NoVerb (content : Leaf) : Prop :=
  content.kind ≠ .verb

theorem DottedName.noVerb (name : DottedName) : ∀ content ∈ name.leaves, NoVerb content :=
  name.forall_leaves (p := NoVerb) LeafKind.noConfusion fun _ => LeafKind.noConfusion

theorem Operand.noVerb (operand : Operand) : ∀ content ∈ operand.leaves, NoVerb content :=
  operand.forall_leaves (p := NoVerb) LeafKind.noConfusion (fun _ => LeafKind.noConfusion)
    fun _ => LeafKind.noConfusion

theorem inBrackets_noVerb {inside : List Leaf} (within : ∀ content ∈ inside, NoVerb content) :
    ∀ content ∈ inBrackets inside, NoVerb content := by
  refine List.forall_mem_cons.mpr ⟨LeafKind.noConfusion, List.forall_mem_append.mpr ⟨within, ?_⟩⟩
  exact List.forall_mem_singleton.mpr LeafKind.noConfusion

theorem Arguments.noVerb (arguments : Arguments) :
    ∀ content ∈ arguments.leaves, NoVerb content := by
  cases arguments with
  | absent => exact List.forall_mem_nil _
  | star => exact List.forall_mem_singleton.mpr LeafKind.noConfusion
  | listed operands => exact operands.forall_written LeafKind.noConfusion Operand.noVerb

theorem labelLeaves_noVerb (label : Option Alias) :
    ∀ content ∈ labelLeaves label, NoVerb content := by
  rcases label with _ | name | name <;>
    simp [labelLeaves, NoVerb, Leaf.keyword, Leaf.name]

theorem Item.noVerb (item : Item) : ∀ content ∈ item.leaves, NoVerb content := by
  obtain ⟨expression, label⟩ := item
  refine List.forall_mem_append.mpr ⟨?_, labelLeaves_noVerb _⟩
  cases expression with
  | column name => exact name.noVerb
  | star => exact List.forall_mem_singleton.mpr LeafKind.noConfusion
  | call name arguments =>
      exact List.forall_mem_cons.mpr ⟨LeafKind.noConfusion, inBrackets_noVerb arguments.noVerb⟩

theorem TableReference.noVerb (reference : TableReference) :
    ∀ content ∈ reference.leaves, NoVerb content :=
  List.forall_mem_append.mpr ⟨reference.table.noVerb, labelLeaves_noVerb _⟩

theorem Join.noVerb (join : Join) : ∀ content ∈ join.leaves, NoVerb content := by
  refine List.forall_mem_cons.mpr ⟨LeafKind.noConfusion, List.forall_mem_append.mpr
    ⟨join.reference.noVerb, ?_⟩⟩
  cases join.condition with
  | on left operator right =>
      refine List.forall_mem_cons.mpr ⟨LeafKind.noConfusion, List.forall_mem_append.mpr
        ⟨left.noVerb, List.forall_mem_cons.mpr ⟨LeafKind.noConfusion, right.noVerb⟩⟩⟩
  | sharing columns =>
      refine List.forall_mem_cons.mpr ⟨LeafKind.noConfusion, inBrackets_noVerb ?_⟩
      exact columns.forall_written LeafKind.noConfusion fun _ =>
        List.forall_mem_singleton.mpr LeafKind.noConfusion

theorem Predicate.noVerb (predicate : Predicate) :
    ∀ content ∈ predicate.leaves, NoVerb content := by
  induction predicate with
  | compare column operator operand =>
      exact List.forall_mem_append.mpr
        ⟨column.noVerb, List.forall_mem_cons.mpr ⟨LeafKind.noConfusion, operand.noVerb⟩⟩
  | between column low high =>
      refine List.forall_mem_append.mpr ⟨column.noVerb, ?_⟩
      simp [NoVerb, Leaf.keyword, Literal.leaf, Leaf.literal]
  | among column values =>
      refine List.forall_mem_append.mpr ⟨column.noVerb, List.forall_mem_cons.mpr
        ⟨LeafKind.noConfusion, inBrackets_noVerb ?_⟩⟩
      exact values.forall_written LeafKind.noConfusion fun _ =>
        List.forall_mem_singleton.mpr LeafKind.noConfusion
  | both left right ihLeft ihRight =>
      exact List.forall_mem_append.mpr
        ⟨ihLeft, List.forall_mem_cons.mpr ⟨LeafKind.noConfusion, ihRight⟩⟩
  | either left right ihLeft ihRight =>
      exact List.forall_mem_append.mpr
        ⟨ihLeft, List.forall_mem_cons.mpr ⟨LeafKind.noConfusion, ihRight⟩⟩
  | bracketed inside ih => exact inBrackets_noVerb ih

theorem clause_noVerb {α : Type} {word : String} {parts : α → List Leaf} (option : Option α)
    (content : ∀ thing, ∀ leaf ∈ parts thing, NoVerb leaf) :
    ∀ leaf ∈ clause word parts option, NoVerb leaf := by
  cases option with
  | none => exact List.forall_mem_nil _
  | some thing => exact List.forall_mem_cons.mpr ⟨LeafKind.noConfusion, content thing⟩

theorem SortColumn.noVerb (sort : SortColumn) : ∀ content ∈ sort.leaves, NoVerb content := by
  refine List.forall_mem_append.mpr ⟨sort.column.noVerb, ?_⟩
  rcases sort.direction with _ | _ | _ <;> simp [Direction.leaf, NoVerb, Leaf.keyword]

theorem Select.countP_isSelect (select : Select) : select.leaves.countP Leaf.isSelect = 1 := by
  have noVerb : ∀ content ∈ select.leaves.tail, NoVerb content := by
    simp only [leaves, List.tail_cons, List.forall_mem_append, List.forall_mem_cons]
    refine ⟨select.items.forall_written LeafKind.noConfusion Item.noVerb, LeafKind.noConfusion,
      select.references.forall_written LeafKind.noConfusion TableReference.noVerb, ?_,
      clause_noVerb _ Predicate.noVerb, clause_noVerb _ ?_, clause_noVerb _ ?_, clause_noVerb _ ?_⟩
    · intro content member
      obtain ⟨join, -, inJoin⟩ := List.mem_flatMap.mp member
      exact join.noVerb content inJoin
    · exact fun columns => columns.forall_written LeafKind.noConfusion DottedName.noVerb
    · exact fun columns => columns.forall_written LeafKind.noConfusion SortColumn.noVerb
    · exact fun value => List.forall_mem_singleton.mpr LeafKind.noConfusion
  have behind : select.leaves.tail.countP Leaf.isSelect = 0 := by
    refine List.countP_eq_zero.mpr fun content member => ?_
    simpa [Leaf.isSelect] using fun verb => absurd verb (noVerb content member)
  have verb : Leaf.isSelect ⟨.verb, "SELECT"⟩ = true := by decide
  rw [leaves, List.tail_cons] at behind
  rw [leaves, List.countP_cons, behind, verb, if_pos rfl]

/-! ## Tables and columns -/

theorem closesFrom_of_inert {node : Node} (inert : Inert node) : node.closesFrom = false := by
  have other : ∀ text ∈ fromTerminators, sameLetters "AS" text = false := by decide
  refine List.any_eq_false.mpr fun text member => ?_
  simp [inert.noWord text (other text member)]

theorem closesFrom_phrase (join : Join) : (Node.leaf join.phrase).closesFrom = false := by
  have other : ∀ text ∈ fromTerminators, ¬ joinLetters <:+ text.toList.map Char.toLower := by
    decide
  refine List.any_eq_false.mpr fun text member => ?_
  simp [phrase_isKeyword join (other text member)]

theorem tables_comparisonNode {left right : Node} (operator : String)
    (noLeft : left.isKeyword "FROM" = false) (noRight : right.isKeyword "FROM" = false) :
    (comparisonNode left operator right).tables = 0 := by
  have noFrom : ∀ node ∈ [left, .leaf (.comparison operator), right],
      node.isKeyword "FROM" = false := by
    simp only [List.forall_mem_cons]
    exact ⟨noLeft, rfl, noRight, List.forall_mem_nil _⟩
  simpa [comparisonNode, tables] using tablesBefore_eq_zero noFrom

theorem tables_bracketNode (inside : List Node) :
    (bracketNode inside).tables = tablesBefore inside := by
  have opens : (Node.leaf opening).isKeyword "FROM" = false := rfl
  have closes : (Node.leaf closing).tables = 0 := by rw [tables]
  rw [bracketNode, tables, tablesBefore, opens, if_neg Bool.false_ne_true,
    tablesBefore_concat closes]
  · simp
  · simp

theorem Join.tablesWithin_nodes (join : Join) (back : List Node) :
    tablesWithin (join.nodes ++ back) = tablesWithin back + 1 := by
  have condition : tablesWithin (join.condition.nodes ++ back) = tablesWithin back := by
    cases join.condition with
    | on left operator right =>
        have compared : (comparisonNode left.node operator right.node).tables = 0 :=
          tables_comparisonNode operator rfl rfl
        rw [JoinCondition.nodes, List.cons_append, tablesWithin_cons (by decide),
          List.cons_append, tablesWithin_cons rfl, List.nil_append, compared, tables,
          Nat.zero_add, Nat.zero_add]
    | sharing columns =>
        have names : (bracketNode [columns.list nameNode]).tables = 0 :=
          (tables_bracketNode _).trans (tablesBefore_eq_zero (List.forall_mem_singleton.mpr
            (isKeyword_list columns nameNode fun _ => rfl)))
        rw [JoinCondition.nodes, List.cons_append, tablesWithin_cons (by decide),
          List.cons_append, tablesWithin_cons rfl, List.nil_append, names, tables,
          Nat.zero_add, Nat.zero_add]
  obtain ⟨children, identifier⟩ := isGroupOf_iff.mp join.reference.isIdentifier
  rw [nodes, List.cons_append, tablesWithin_cons (closesFrom_phrase join), List.cons_append,
    tablesWithin_cons (closesFrom_of_inert join.reference.inert), condition, identifier]
  simp [tables, Nat.add_comm]

theorem Select.tablesWithin_backNodes (select : Select) : tablesWithin select.backNodes = 0 := by
  have closes : ∀ word ∈ ["GROUP BY", "ORDER BY", "LIMIT"],
      (Node.leaf (.keyword word)).closesFrom = true := by decide
  obtain ⟨items, references, joins, condition, grouping, sorting, limit⟩ := select
  cases grouping with
  | some columns => simp [backNodes, clauseTerms, tablesWithin, closes]
  | none =>
      cases sorting with
      | some columns => simp [backNodes, clauseTerms, tablesWithin, closes]
      | none => cases limit <;> simp [backNodes, clauseTerms, tablesWithin, closes]

theorem Select.tablesBefore_nodes (select : Select) :
    tablesBefore select.nodes = select.references.count + select.joins.length := by
  have items : ∀ node ∈ .leaf ⟨.verb, "SELECT"⟩ :: select.itemNodes,
      node.isKeyword "FROM" = false := by
    refine List.forall_mem_cons.mpr ⟨by decide, fun node member => ?_⟩
    exact (select.inert_itemNodes node member).noWord "FROM" (by decide)
  have begins : (Node.leaf (.keyword "FROM")).isKeyword "FROM" = true := by decide
  have joins (back : List Node) : tablesWithin (select.joins.flatMap Join.nodes ++ back) =
      tablesWithin back + select.joins.length := by
    induction select.joins with
    | nil => rfl
    | cons join rest ih =>
        rw [List.flatMap_cons, List.append_assoc, join.tablesWithin_nodes, ih, List.length_cons,
          Nat.add_assoc]
  have condition (back : List Node) :
      tablesWithin (whereNodes select.condition ++ back) = tablesWithin back := by
    cases select.condition with
    | none => rfl
    | some condition =>
        have noFrom : ∀ node ∈ .leaf (.keyword "WHERE") :: condition.nodes,
            node.isKeyword "FROM" = false :=
          List.forall_mem_cons.mpr ⟨by decide, condition.isKeyword_nodes (by decide)⟩
        rw [whereNodes, List.singleton_append, tablesWithin_cons rfl]
        simp [tables, tablesBefore_eq_zero noFrom]
  have references := select.references.tables_list TableReference.isIdentifier
  have inert := select.references.list_inert TableReference.inert
  have shape : select.nodes = (.leaf ⟨.verb, "SELECT"⟩ :: select.itemNodes) ++
      .leaf (.keyword "FROM") :: (select.references.list TableReference.node ::
        (select.joins.flatMap Join.nodes ++
          (whereNodes select.condition ++ select.backNodes))) := by
    simp [nodes, frontNodes]
  rw [shape, tablesBefore_append items, tablesBefore, begins, if_pos rfl,
    tablesWithin_cons (closesFrom_of_inert inert), references, joins, condition,
    select.tablesWithin_backNodes, Nat.zero_add]

theorem isAnyKeyword_list {α : Type} (several : Several α) {node : α → Node}
    (each : ∀ thing, (node thing).isGroupOf .identifier = true) :
    (several.list node).isAnyKeyword = false := by
  rw [Several.list]
  split
  · obtain ⟨children, identifier⟩ := isGroupOf_iff.mp (each several.first)
    rw [identifier]
    rfl
  · rfl

theorem clauseColumns_clauseTerms {α : Type} {name : String} (option : Option (Several α))
    {node : α → Node} {back : List Node} (each : ∀ thing, (node thing).isGroupOf .identifier = true)
    (absent : ∀ next ∈ back, next.isKeyword name = false)
    (ends : ∀ next ∈ back.head?, next.isAnyKeyword = true) :
    clauseColumns name (clauseTerms name (fun several => [several.list node]) option ++ back) =
      (option.map Several.count).getD 0 := by
  cases option with
  | none => exact clauseColumns_eq_zero absent
  | some several =>
      have named : (Node.leaf (.keyword name)).isKeyword name = true := by
        simp [isKeyword, Leaf.isKeyword, Leaf.keyword, sameLetters]
      exact (clauseColumns_single named (isAnyKeyword_list several each) ends).trans
        (several.columns_list each)

section Columns
variable (select : Select)

theorem Select.clauseColumns_nodes {name : String}
    (front : ∀ node ∈ select.frontNodes, node.isKeyword name = false) :
    clauseColumns name select.nodes = clauseColumns name select.backNodes := by
  have condition : ∀ node ∈ whereNodes select.condition, node.isKeyword name = false := by
    cases select.condition with
    | none => exact List.forall_mem_nil _
    | some condition => exact List.forall_mem_singleton.mpr rfl
  rw [nodes, clauseColumns_append front, clauseColumns_append condition]

def Select.limitNodes : List Node :=
  clauseTerms "LIMIT" (fun value => [.leaf value.leaf]) select.limit

def Select.sortingNodes : List Node :=
  clauseTerms "ORDER BY" (fun columns => [columns.list SortColumn.node]) select.sorting ++
    select.limitNodes

theorem Select.isKeyword_limitNodes {name : String} (other : sameLetters "LIMIT" name = false) :
    ∀ node ∈ select.limitNodes, node.isKeyword name = false :=
  forall_clauseTerms _ (keyword_isKeyword other) fun _ => List.forall_mem_singleton.mpr rfl

theorem Select.groupByColumns_nodes :
    clauseColumns "GROUP BY" select.nodes = (select.grouping.map Several.count).getD 0 := by
  have absent : ∀ node ∈ select.sortingNodes, node.isKeyword "GROUP BY" = false := by
    refine List.forall_mem_append.mpr ⟨?_, select.isKeyword_limitNodes (by decide)⟩
    refine forall_clauseTerms _ (by decide) fun columns => List.forall_mem_singleton.mpr ?_
    exact (columns.list_inert SortColumn.inert).noWord _ (by decide)
  have ends : ∀ next ∈ select.sortingNodes.head?, next.isAnyKeyword = true := by
    rw [sortingNodes, limitNodes]
    cases select.sorting <;> cases select.limit <;> simp [clauseTerms] <;> rfl
  rw [select.clauseColumns_nodes (select.isKeyword_frontNodes "GROUP BY")]
  exact clauseColumns_clauseTerms select.grouping (fun _ => rfl) absent ends

theorem Select.orderByColumns_nodes :
    clauseColumns "ORDER BY" select.nodes = (select.sorting.map Several.count).getD 0 := by
  have grouping : ∀ node ∈ clauseTerms "GROUP BY" (fun columns => [columns.list DottedName.node])
      select.grouping, node.isKeyword "ORDER BY" = false :=
    forall_clauseTerms _ (by decide) fun columns => List.forall_mem_singleton.mpr
      ((columns.list_inert DottedName.inert).noWord _ (by decide))
  have ends : ∀ next ∈ select.limitNodes.head?, next.isAnyKeyword = true := by
    rw [limitNodes]
    cases select.limit with
    | none => exact fun _ first => nomatch first
    | some value =>
        intro next first
        cases first
        rfl
  rw [select.clauseColumns_nodes (select.isKeyword_frontNodes "ORDER BY"), backNodes,
    clauseColumns_append grouping]
  exact clauseColumns_clauseTerms select.sorting SortColumn.isIdentifier
    (select.isKeyword_limitNodes (by decide)) ends

end Columns

/-! ## The counts -/

theorem Select.selectsInAll_nodes (select : Select)
    (built : Statement.ofLeaves select.leaves = .ok ⟨select.nodes⟩) :
    selectsInAll select.nodes = 1 := by
  rw [selectsInAll_eq, leavesOfAll_ofLeaves built, select.countP_isSelect]

/-- A plain statement whose condition nests within the limit is accepted, and its seven counts are
those of its phrases. -/
theorem Select.features_ofLeaves (select : Select)
    (fits : ∀ condition ∈ select.condition, condition.depth ≤ nestingLimit) :
    ∃ statement, Statement.ofLeaves select.leaves = .ok statement ∧
      statement.features = select.features := by
  have built := select.ofLeaves_leaves fits
  have subqueries : (Statement.mk select.nodes).subqueries = 0 := by
    have one := select.selectsInAll_nodes built
    have filled : select.nodes.isEmpty = false := rfl
    rw [Statement.subqueries, filled, if_neg Bool.false_ne_true, one]
    rfl
  refine ⟨_, built, ?_⟩
  rw [Statement.features, Statement.joins, Statement.functions, Statement.tables,
    Statement.groupByColumns, Statement.orderByColumns, subqueries, select.whereConditions_nodes,
    select.countP_join, select.callsInAll_nodes, select.tablesBefore_nodes,
    select.groupByColumns_nodes, select.orderByColumns_nodes, Select.features]

/-- A statement with every kind of clause: labels on both sides of a comma, a call of two arguments,
both kinds of join, and brackets around a value list. -/
theorem features_every_clause :
    ∃ select : Select,
      select.leaves =
        [⟨.verb, "SELECT"⟩, .name "t", .punctuation ".", .name "a", .keyword "AS", .name "x",
          .punctuation ",", .name "f", .punctuation "(", .name "b", .punctuation ",", .literal "1",
          .punctuation ")", .keyword "FROM", .name "t", .name "u", .punctuation ",", .name "v",
          .keyword "JOIN", .name "p", .keyword "ON", .name "id", .comparison "=", .name "key",
          .keyword "LEFT OUTER JOIN", .name "q", .keyword "USING", .punctuation "(", .name "id",
          .punctuation ")", .keyword "WHERE", .name "a", .keyword "BETWEEN", .literal "1",
          .keyword "AND", .literal "2", .keyword "AND", .punctuation "(", .name "c", .keyword "IN",
          .punctuation "(", .literal "3", .punctuation ",", .literal "4", .punctuation ")",
          .keyword "OR", .name "d", .comparison "NOT LIKE", .name "e", .punctuation ")",
          .keyword "GROUP BY", .name "x", .punctuation ",", .name "y", .keyword "ORDER BY",
          .name "x", .keyword "DESC", .keyword "LIMIT", .literal "5"] ∧
      (∀ condition ∈ select.condition, condition.depth ≤ nestingLimit) ∧
      ∃ statement, Statement.ofLeaves select.leaves = .ok statement ∧
        statement.features = ⟨1, 0, 3, 1, 4, 2, 1⟩ := by
  let name (text : String) : DottedName := ⟨⟨text, []⟩⟩
  let literal (text : String) (noSymbol : text ∉ comparisonSymbols) : Literal := ⟨text, noSymbol⟩
  let select : Select := {
    items := ⟨⟨.column ⟨⟨"t", ["a"]⟩⟩, some "x"⟩, [⟨.call "f" (.listed ⟨.column (name "b"),
      [.literal (literal "1" (by decide))]⟩), none⟩]⟩
    references := ⟨⟨name "t", some (.bare "u")⟩, [⟨name "v", none⟩]⟩
    joins := [{ reference := ⟨name "p", none⟩, condition := .on (name "id") "=" (name "key") },
      { modifiers := [.LEFT, .OUTER], modifying := by decide, reference := ⟨name "q", none⟩,
        condition := .sharing ⟨"id", []⟩ }]
    condition := some (.both
      (.between (name "a") (literal "1" (by decide)) (literal "2" (by decide)))
      (.bracketed (.either
        (.among (name "c") ⟨literal "3" (by decide), [literal "4" (by decide)]⟩)
        (.compare (name "d") "NOT LIKE" (.column (name "e"))))))
    grouping := some ⟨name "x", [name "y"]⟩
    sorting := some ⟨⟨name "x", some .descending⟩, []⟩
    limit := some (literal "5" (by decide)) }
  have fits : ∀ condition ∈ select.condition, condition.depth ≤ nestingLimit := by
    intro condition given
    cases given
    decide
  exact ⟨select, by rfl, fits, select.features_ofLeaves fits⟩

end Plain
end SqlMetrics
