import SqlMetrics.Proofs.Relabel
import SqlMetrics.Proofs.TreeGrammar

/-! # Trees without the spelling of names and literals

`Leaf.unspelled` forgets the text of a name, and of a literal all but whether it is a number.  The
tree of the leaves without spelling is the tree without spelling, and it has the same seven counts
as long as no literal is spelled like a comparison. -/
set_option autoImplicit false
namespace SqlMetrics

/-- A text that begins like a number. -/
def beginsNumber (text : String) : Bool :=
  text.toList.head?.any fun c => c.isDigit || c = '.'

/-- The leaf without the text of a name or a literal, which stays a number or none. -/
def Leaf.unspelled (content : Leaf) : Leaf :=
  match content.kind with
  | .name => .name ""
  | .literal => .literal (if beginsNumber content.text then "0" else "")
  | _ => content

namespace Node

mutual

/-- The node with all its leaves unspelled. -/
def unspelled : Node → Node
  | .leaf content => .leaf content.unspelled
  | .group kind children => .group kind (unspelledAll children)

def unspelledAll : List Node → List Node
  | [] => []
  | node :: rest => node.unspelled :: unspelledAll rest

end

theorem unspelledAll_eq_map (nodes : List Node) : unspelledAll nodes = nodes.map unspelled := by
  induction nodes with
  | nil => rw [unspelledAll, List.map_nil]
  | cons node rest ih => rw [unspelledAll, ih, List.map_cons]

@[simp] theorem unspelled_leaf (content : Leaf) :
    (Node.leaf content).unspelled = .leaf content.unspelled := by
  rw [unspelled]

@[simp] theorem unspelled_group (kind : GroupKind) (children : List Node) :
    (Node.group kind children).unspelled = .group kind (children.map unspelled) := by
  rw [unspelled, unspelledAll_eq_map]

end Node

open Node

/-! ## The look of a leaf -/

namespace Leaf

variable (content : Leaf)

theorem unspelled_kind : content.unspelled.kind = content.kind := by
  obtain ⟨kind, text⟩ := content
  cases kind <;> rfl

theorem unspelled_eq_self (noName : content.kind ≠ .name) (noLiteral : content.kind ≠ .literal) :
    content.unspelled = content := by
  obtain ⟨kind, text⟩ := content
  cases kind with
  | name => exact absurd rfl noName
  | literal => exact absurd rfl noLiteral
  | _ => rfl

theorem unspelled_isKeyword (text : String) :
    content.unspelled.isKeyword text = content.isKeyword text := by
  obtain ⟨kind, spelled⟩ := content
  cases kind <;> rfl

theorem unspelled_isPunctuation (text : String) :
    content.unspelled.isPunctuation text = content.isPunctuation text := by
  obtain ⟨kind, spelled⟩ := content
  cases kind <;> rfl

end Leaf

theorem isNumber_unspelled (node : Node) : isNumber node.unspelled = isNumber node := by
  rcases node with ⟨kind, text⟩ | ⟨kind, children⟩
  · cases kind with
    | literal =>
        rw [unspelled_leaf]
        cases numeral : beginsNumber text with
        | true =>
            have same : isNumber (.leaf ⟨.literal, text⟩) = true := numeral
            rw [same, Leaf.unspelled]
            simp only [numeral]
            decide
        | false =>
            have same : isNumber (.leaf ⟨.literal, text⟩) = false := numeral
            rw [same, Leaf.unspelled]
            simp only [numeral]
            decide
    | _ => rfl
  · rw [unspelled_group]
    rfl

theorem keepsLook_unspelled : KeepsLook unspelled where
  leafKind node := by
    rcases node with content | ⟨kind, children⟩
    · rw [unspelled_leaf, leafKind?, content.unspelled_kind, leafKind?]
    · rw [unspelled_group, leafKind?, leafKind?]
  groupKind node := by
    rcases node with content | ⟨kind, children⟩
    · rw [unspelled_leaf, groupKind?, groupKind?]
    · rw [unspelled_group, groupKind?, groupKind?]
  isKeyword node text := by
    rcases node with content | ⟨kind, children⟩
    · exact content.unspelled_isKeyword text
    · rw [unspelled_group, isKeyword, isKeyword]
  isPunctuation node text := by
    rcases node with content | ⟨kind, children⟩
    · exact content.unspelled_isPunctuation text
    · rw [unspelled_group, isPunctuation, isPunctuation]
  isNumber := isNumber_unspelled
  group kind children _ := unspelled_group kind children

/-! ## Brackets and levels -/

namespace OpenGroups

def unspelled (groups : OpenGroups) : OpenGroups :=
  ⟨groups.inner.map Node.unspelled, groups.outer.map (List.map Node.unspelled)⟩

theorem read_unspelled (limit : Nat) (groups : OpenGroups) (content : Leaf) :
    read? limit groups.unspelled content.unspelled =
      (read? limit groups content).map unspelled := by
  have depth : groups.unspelled.depth = groups.depth := List.length_map _
  rw [read?, Leaf.opensBracket, content.unspelled_isPunctuation, Leaf.closesBracket,
    content.unspelled_isPunctuation, depth, read?, Leaf.opensBracket, Leaf.closesBracket]
  split
  · next opens =>
      have same : content.unspelled = content :=
        content.unspelled_eq_self (fun name => by simp [Leaf.isPunctuation, name] at opens)
          fun literal => by simp [Leaf.isPunctuation, literal] at opens
      split
      · rw [Option.map_some, same]
        simp [openBracket, unspelled, same]
      · rfl
  · split
    · rw [Option.map_some]
      obtain ⟨inner, outer⟩ := groups
      cases outer with
      | nil => simp [close, push, unspelled]
      | cons around further => simp [close, push, unspelled]
    · simp [push, unspelled]

theorem foldlM_unspelled (limit : Nat) (leaves : List Leaf) (groups : OpenGroups) :
    (leaves.map Leaf.unspelled).foldlM (read? limit) groups.unspelled =
      (leaves.foldlM (read? limit) groups).map unspelled := by
  induction leaves generalizing groups with
  | nil => rfl
  | cons content rest ih =>
      rw [List.map_cons, List.foldlM_cons, List.foldlM_cons, read_unspelled]
      cases read? limit groups content with
      | none => rfl
      | some next => exact ih next

theorem closeAll_unspelled (outer : List (List Node)) (inner : List Node) :
    closeAll (inner.map Node.unspelled) (outer.map (List.map Node.unspelled)) =
      (closeAll inner outer).map Node.unspelled := by
  induction outer generalizing inner with
  | nil => rw [List.map_nil, closeAll, closeAll, List.map_reverse]
  | cons around further ih =>
      rw [List.map_cons, closeAll, closeAll, ← ih, List.map_cons, unspelled_group, List.map_reverse]

end OpenGroups

theorem nestBrackets_unspelled (limit : Nat) (leaves : List Leaf) :
    nestBrackets limit (leaves.map Leaf.unspelled) =
      (nestBrackets limit leaves).map (List.map unspelled) := by
  have run : (leaves.map Leaf.unspelled).foldlM (OpenGroups.read? limit) {} =
      (leaves.foldlM (OpenGroups.read? limit) {}).map OpenGroups.unspelled :=
    OpenGroups.foldlM_unspelled limit leaves {}
  rw [nestBrackets, nestBrackets, run, Option.map_map, Option.map_map]
  congr 1
  funext groups
  exact OpenGroups.closeAll_unspelled groups.outer groups.inner

theorem groupInside_unspelled (node : Node) :
    groupInside node.unspelled = (groupInside node).unspelled := by
  induction node with
  | leaf content => rw [unspelled_leaf, groupInside, groupInside, unspelled_leaf] <;> simp
  | group kind children ih =>
      cases kind with
      | parenthesis =>
          have inside : groupInsideAll (children.map unspelled) =
              (groupInsideAll children).map unspelled := by
            rw [groupInsideAll_eq_map, groupInsideAll_eq_map, List.map_map, List.map_map]
            exact List.map_congr_left ih
          rw [unspelled_group, groupInside, inside, groupLevel_map keepsLook_unspelled, groupInside,
            unspelled_group]
      | _ => simp [groupInside]

theorem groupNodes_unspelled (nodes : List Node) :
    groupNodes (nodes.map unspelled) = (groupNodes nodes).map unspelled := by
  have inside : groupInsideAll (nodes.map unspelled) = (groupInsideAll nodes).map unspelled := by
    rw [groupInsideAll_eq_map, groupInsideAll_eq_map, List.map_map, List.map_map]
    exact List.map_congr_left fun node _ => groupInside_unspelled node
  rw [groupNodes, inside, groupLevel_map keepsLook_unspelled, groupNodes]

/-! ## Counts -/

namespace Node

theorem countP_isGroupOf_unspelled (kind : GroupKind) (nodes : List Node) :
    (nodes.map unspelled).countP (·.isGroupOf kind) = nodes.countP (·.isGroupOf kind) := by
  have same : (fun node => isGroupOf node kind) ∘ unspelled = fun node => node.isGroupOf kind :=
    funext fun node => keepsLook_unspelled.isGroupOf node kind
  rw [List.countP_map, same]

theorem sum_unspelled {count : Node → Nat} {nodes : List Node}
    (each : ∀ node ∈ nodes, count node.unspelled = count node) :
    ((nodes.map unspelled).map count).sum = (nodes.map count).sum := by
  rw [List.map_map]
  exact congrArg List.sum (List.map_congr_left each)

theorem callsInAll_unspelled_of {nodes : List Node}
    (each : ∀ node ∈ nodes, node.unspelled.calls = node.calls) :
    callsInAll (nodes.map unspelled) = callsInAll nodes := by
  rw [callsInAll_eq_sum, sum_unspelled each, callsInAll_eq_sum]

theorem calls_unspelled (node : Node) : node.unspelled.calls = node.calls := by
  induction node with
  | leaf content => rw [unspelled_leaf, calls, calls]
  | group kind children ih =>
      have inside := callsInAll_unspelled_of ih
      rw [unspelled_group]
      cases kind <;> simp [calls, inside]

theorem selectsInAll_unspelled_of {nodes : List Node}
    (each : ∀ node ∈ nodes, node.unspelled.selects = node.selects) :
    selectsInAll (nodes.map unspelled) = selectsInAll nodes := by
  rw [selectsInAll_eq_sum, sum_unspelled each, selectsInAll_eq_sum]

theorem selects_unspelled (node : Node) : node.unspelled.selects = node.selects := by
  induction node with
  | leaf content =>
      obtain ⟨kind, text⟩ := content
      cases kind <;> rfl
  | group kind children ih =>
      rw [unspelled_group, selects, selects, selectsInAll_unspelled_of ih]

theorem closesFrom_unspelled (node : Node) : node.unspelled.closesFrom = node.closesFrom := by
  have words : node.unspelled.isKeyword = node.isKeyword :=
    funext (keepsLook_unspelled.isKeyword node)
  rw [closesFrom, words, closesFrom]

theorem tablesWithin_unspelled_of {nodes : List Node}
    (each : ∀ node ∈ nodes, node.unspelled.tables = node.tables) :
    tablesWithin (nodes.map unspelled) = tablesWithin nodes := by
  induction nodes with
  | nil => rfl
  | cons node rest ih =>
      have behind := ih fun other member => each other (List.mem_cons_of_mem _ member)
      rw [List.map_cons, tablesWithin, tablesWithin, closesFrom_unspelled,
        each node List.mem_cons_self, behind]

theorem tablesBefore_unspelled_of {nodes : List Node}
    (each : ∀ node ∈ nodes, node.unspelled.tables = node.tables) :
    tablesBefore (nodes.map unspelled) = tablesBefore nodes := by
  induction nodes with
  | nil => rfl
  | cons node rest ih =>
      have others : ∀ next ∈ rest, next.unspelled.tables = next.tables :=
        fun next member => each next (List.mem_cons_of_mem _ member)
      rw [List.map_cons, tablesBefore, tablesBefore, keepsLook_unspelled.isKeyword,
        tablesWithin_unspelled_of others, ih others]

theorem tables_unspelled (node : Node) : node.unspelled.tables = node.tables := by
  induction node with
  | leaf content => rw [unspelled_leaf, tables, tables]
  | group kind children ih =>
      have inside := tablesBefore_unspelled_of ih
      rw [unspelled_group]
      cases kind with
      | identifierList => rw [tables, tables, countP_isGroupOf_unspelled]
      | _ => simp [tables, inside]

/-! ## Conditions -/

/-- No literal in the node is spelled like a comparison. -/
def NoSymbol (node : Node) : Prop :=
  ∀ content ∈ node.leaves, content.kind = .literal → content.text ∉ comparisonSymbols

theorem NoSymbol.child {kind : GroupKind} {children : List Node}
    (all : NoSymbol (.group kind children)) {child : Node} (member : child ∈ children) :
    child.NoSymbol :=
  fun content inside => all content (mem_leaves_group member inside)

theorem leafConditions_unspelled {content : Leaf} (noName : content.kind ≠ .name)
    (noSymbol : content.kind = .literal → content.text ∉ comparisonSymbols) :
    leafConditions content.unspelled = leafConditions content := by
  by_cases literal : content.kind = .literal
  · have noConditions : leafConditions content = 0 := by
      rw [leafConditions, literal]
      simp [noSymbol literal]
    have shown : content.unspelled =
        .literal (if beginsNumber content.text then "0" else "") := by
      rw [Leaf.unspelled, literal]
    rw [noConditions, shown]
    cases beginsNumber content.text <;> decide
  · rw [content.unspelled_eq_self noName literal]

theorem conditionsInAll_unspelled_of {nodes : List Node}
    (each : ∀ node ∈ nodes, node.unspelled.conditions = node.conditions) :
    conditionsInAll (nodes.map unspelled) = conditionsInAll nodes := by
  rw [conditionsInAll_eq_sum, sum_unspelled each, conditionsInAll_eq_sum]

theorem noName_of_parenthesisShape {children : List Node} (shape : ParenthesisShape children) :
    ∀ child ∈ children, child.isLeafOf .name = false := by
  obtain ⟨inside, closing, rfl, ending, plain⟩ := shape
  intro child member
  rcases List.mem_append.mp member with front | back
  · rcases List.mem_cons.mp front with rfl | within
    · rfl
    · exact (plain child within).2
  · rcases ending with rfl | rfl
    · cases back
    · rw [List.mem_singleton.mp back]
      rfl

theorem noName_of_whereShape {children : List Node} (shape : WhereShape children) :
    ∀ child ∈ children, child.isLeafOf .name = false := by
  obtain ⟨word, clause, rfl, isWhere, plain⟩ := shape
  intro child member
  rcases List.mem_cons.mp member with rfl | within
  · exact isLeafOf_unique (isLeafOf_of_isKeyword isWhere) (by decide)
  · exact (plain child within).2.2.1

/-- In brackets and clauses every name is part of an identifier, so conditions see no name. -/
theorem conditions_unspelled {node : Node} (shaped : node.Shaped) (noSymbol : node.NoSymbol)
    (noName : node.isLeafOf .name = false) : node.unspelled.conditions = node.conditions := by
  induction node with
  | leaf content =>
      have other : content.kind ≠ .name := by simpa [isLeafOf, leafKind?] using noName
      rw [unspelled_leaf, conditions, conditions]
      exact leafConditions_unspelled other (noSymbol content (by simp))
  | group kind children ih =>
      rw [unspelled_group]
      cases kind with
      | parenthesis =>
          -- Shape is what carries the hypothesis on names down to the children.
          obtain ⟨here, below⟩ := everywhere_group_iff.mp shaped
          have noNames := noName_of_parenthesisShape here
          have inside := conditionsInAll_unspelled_of fun child member =>
            ih child member (below child member) (noSymbol.child member) (noNames child member)
          rw [conditions, conditions, inside]
      | identifierList => rw [conditions, conditions, countP_isGroupOf_unspelled]
      | _ => simp [conditions]

end Node

namespace Statement

def unspelled (statement : Statement) : Statement :=
  ⟨statement.nodes.map Node.unspelled⟩

theorem ofLeaves_unspelled (leaves : List Leaf) :
    ofLeaves (leaves.map Leaf.unspelled) = (ofLeaves leaves).map unspelled := by
  rw [ofLeaves, ofLeaves, nestBrackets_unspelled]
  cases nestBrackets nestingLimit leaves with
  | none => rfl
  | some nested =>
      rw [Option.map_some]
      simp only [groupNodes_unspelled]
      rfl

theorem whereConditions_unspelled {statement : Statement}
    (shaped : ∀ node ∈ statement.nodes, node.Shaped)
    (noSymbol : ∀ node ∈ statement.nodes, node.NoSymbol) :
    statement.unspelled.whereConditions = statement.whereConditions := by
  have same : (fun node => isGroupOf node .whereClause) ∘ Node.unspelled =
      fun node => node.isGroupOf .whereClause :=
    funext fun node => keepsLook_unspelled.isGroupOf node .whereClause
  rw [whereConditions, whereNodes, unspelled, List.find?_map, same, whereConditions, whereNodes]
  cases found : statement.nodes.find? fun node => node.isGroupOf .whereClause with
  | none => rfl
  | some node =>
      have member := List.mem_of_find?_eq_some found
      have clause : node.isGroupOf .whereClause = true := by simpa using List.find?_some found
      obtain ⟨children, rfl⟩ := isGroupOf_iff.mp clause
      obtain ⟨here, below⟩ := everywhere_group_iff.mp (shaped _ member)
      have noNames := noName_of_whereShape here
      have literals := noSymbol _ member
      simp only [Option.map_some, Option.bind_some, unspelled_group, children?, Option.getD_some]
      exact conditionsInAll_unspelled_of fun child inside =>
        conditions_unspelled (below child inside) (literals.child inside) (noNames child inside)

/-- The counts do not look at spelling. -/
theorem features_unspelled {statement : Statement}
    (shaped : ∀ node ∈ statement.nodes, node.Shaped)
    (noSymbol : ∀ node ∈ statement.nodes, node.NoSymbol) :
    statement.unspelled.features = statement.features := by
  have joined : statement.unspelled.joins = statement.joins :=
    joins_map keepsLook_unspelled statement.nodes
  have nested : statement.unspelled.subqueries = statement.subqueries := by
    rw [subqueries, unspelled, List.isEmpty_map,
      selectsInAll_unspelled_of fun node _ => node.selects_unspelled, subqueries]
  rw [features, features, joined, nested, whereConditions_unspelled shaped noSymbol, functions,
    tables, groupByColumns, orderByColumns, unspelled,
    callsInAll_unspelled_of fun node _ => node.calls_unspelled,
    tablesBefore_unspelled_of fun node _ => node.tables_unspelled,
    clauseColumns_map keepsLook_unspelled, clauseColumns_map keepsLook_unspelled]
  rfl

end Statement

end SqlMetrics
