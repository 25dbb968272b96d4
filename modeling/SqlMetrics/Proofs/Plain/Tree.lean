import SqlMetrics.Proofs.Phrases
import SqlMetrics.Proofs.Plain.Phrases

/-! # The tree of a plain `SELECT`

A plain statement is its clauses in a row, each divided from the next by its keyword, so its tree is
the nodes of its phrases with the condition in a `WHERE` clause of its own
(`Select.ofLeaves_leaves`). -/
set_option autoImplicit false
namespace SqlMetrics
namespace Plain

open Node

/-! ## Join phrases -/

theorem phrase_isKeyword (join : Join) {text : String}
    (other : ¬ joinLetters <:+ text.toList.map Char.toLower) :
    (Node.leaf join.phrase).isKeyword text = false :=
  joinLeaf_isKeyword join.modifiers other

theorem phrase_isJoin (join : Join) :
    (Node.leaf join.phrase).isKeyword "JOIN" = join.modifiers.isEmpty :=
  joinLeaf_isJoin join.modifiers

theorem phrase_divides (join : Join) : join.phrase.Divides := by
  have other : ∀ word ∈ ["AS", "ASC", "DESC", "NULL", "TRUE", "FALSE"],
      join.phrase.isKeyword word = false := by
    have noJoin : ∀ word ∈ ["AS", "ASC", "DESC", "NULL", "TRUE", "FALSE"],
        ¬ joinLetters <:+ word.toList.map Char.toLower := by decide
    exact fun word member => phrase_isKeyword join (noJoin word member)
  refine .ofKeyword _ ?_
  have noKeyword :
      ["AS", "ASC", "DESC", "NULL", "TRUE", "FALSE"].any join.phrase.isKeyword = false :=
    List.any_eq_false.mpr fun word member => by simp [other word member]
  exact (Bool.not_eq_true' _).mpr noKeyword

/-! ## Clauses -/

def clauseTerms {α : Type} (word : String) (nodes : α → List Node) : Option α → List Node
  | none => []
  | some content => .leaf (.keyword word) :: nodes content

def Select.itemNodes (select : Select) : List Node :=
  groupLists (select.items.written (.leaf comma) Item.nodes)

def Select.frontNodes (select : Select) : List Node :=
  .leaf ⟨.verb, "SELECT"⟩ :: (select.itemNodes ++ .leaf (.keyword "FROM") ::
    select.references.list TableReference.node :: select.joins.flatMap Join.nodes)

def Select.backNodes (select : Select) : List Node :=
  clauseTerms "GROUP BY" (fun columns => [columns.list DottedName.node]) select.grouping ++
    (clauseTerms "ORDER BY" (fun columns => [columns.list SortColumn.node]) select.sorting ++
      clauseTerms "LIMIT" (fun value => [.leaf value.leaf]) select.limit)

def whereNodes : Option Predicate → List Node
  | none => []
  | some condition => [.group .whereClause (.leaf (.keyword "WHERE") :: condition.nodes)]

def Select.nodes (select : Select) : List Node :=
  select.frontNodes ++ (whereNodes select.condition ++ select.backNodes)

section Clauses
variable {room : Nat} {leaves : List Leaf} {terms : List Node}

theorem clause_append {α : Type} (word : String) {parts : α → List Leaf} {nodes : α → List Node}
    (option : Option α) (divides : (Leaf.keyword word).dividesMembers = true)
    (content : ∀ thing ∈ option, Terms room (parts thing) (nodes thing))
    (behind : Clauses room leaves terms) :
    Clauses room (clause word parts option ++ leaves) (clauseTerms word nodes option ++ terms) := by
  cases option with
  | none => exact behind
  | some thing => exact Clauses.cons (.ofKeyword word divides) (content thing rfl) behind

theorem JoinCondition.append (condition : JoinCondition)
    (behind : Clauses (room + 1) leaves terms) :
    Clauses (room + 1) (condition.leaves ++ leaves) (condition.nodes ++ terms) := by
  cases condition with
  | on left operator right =>
      exact Clauses.cons (.ofKeyword "ON" (by decide))
        (comparison_member left operator (.column right)).alone behind
  | sharing columns =>
      have names : Terms room (columns.written comma fun column => [.name column])
          [columns.list nameNode] :=
        columns.terms (fun column _ => (DottedName.mk ⟨column, []⟩).member) fun _ _ => rfl
      have noWhere : ∀ node ∈ [columns.list nameNode], node.isKeyword "WHERE" = false := by
        rw [List.forall_mem_singleton]
        exact isKeyword_list columns nameNode fun _ => rfl
      exact Clauses.cons (.ofKeyword "USING" (by decide)) (bracketNode_terms names noWhere) behind

theorem TableReference.member (reference : TableReference) :
    Members room reference.leaves [reference.node] :=
  reference.table.member_label reference.label

theorem joins_append (joins : List Join) (behind : Clauses (room + 1) leaves terms) :
    Clauses (room + 1) (joins.flatMap Join.leaves ++ leaves)
      (joins.flatMap Join.nodes ++ terms) := by
  induction joins with
  | nil => exact behind
  | cons join rest ih =>
      have condition := join.condition.append ih
      have whole := Clauses.cons (phrase_divides join) join.reference.member.alone condition
      simpa [Join.leaves, Join.nodes] using whole

end Clauses

/-! ## Keywords on the top level -/

/-- A node that begins no clause: at most it is the word before a label. -/
structure Inert (node : Node) : Prop where
  noWord : ∀ text, sameLetters "AS" text = false → node.isKeyword text = false
  noClause : node.isGroupOf .whereClause = false

theorem inert_group {kind : GroupKind} (children : List Node) (other : kind ≠ .whereClause) :
    Inert (.group kind children) where
  noWord _ _ := rfl
  noClause := by simpa [isGroupOf, groupKind?] using other

theorem inert_leaf {content : Leaf} (other : content.kind ≠ .keyword) : Inert (.leaf content) where
  noWord text _ := by simp [isKeyword, Leaf.isKeyword, other]
  noClause := rfl

theorem inert_extend {base : Node} (inert : Inert base) (tail : List Node) :
    Inert (extend base tail) := by
  rw [extend]
  split
  · exact inert
  · exact inert_group _ (by decide)

theorem inert_labelNodes (label : Option Alias) : ∀ node ∈ labelNodes label, Inert node := by
  have word : Inert (.leaf (.keyword "AS")) :=
    ⟨fun text other => by simpa [isKeyword, Leaf.isKeyword, Leaf.keyword] using other, rfl⟩
  have named : ∀ name, Inert (nameNode name) := fun name => inert_group _ (by decide)
  rcases label with _ | name | name <;> simp [labelNodes, word, named]

theorem Item.inert_nodes (item : Item) : ∀ node ∈ item.nodes, Inert node := by
  obtain ⟨expression, label⟩ := item
  cases expression with
  | column name =>
      exact List.forall_mem_singleton.mpr (inert_extend (inert_group _ (by decide)) _)
  | star => exact List.forall_mem_cons.mpr ⟨inert_leaf (by decide), inert_labelNodes _⟩
  | call name arguments =>
      exact List.forall_mem_singleton.mpr (inert_extend (inert_group _ (by decide)) _)

theorem Several.forall_written {α β : Type} {p : β → Prop} {mark : β} {parts : α → List β}
    (several : Several α) (marked : p mark) (each : ∀ thing, ∀ part ∈ parts thing, p part) :
    ∀ part ∈ several.written mark parts, p part := by
  intro part member
  rw [written, List.mem_append, List.mem_flatMap] at member
  rcases member with first | ⟨thing, -, other⟩
  · exact each several.first part first
  · rcases List.mem_cons.mp other with rfl | inThing
    · exact marked
    · exact each thing part inThing

theorem Select.inert_itemNodes (select : Select) : ∀ node ∈ select.itemNodes, Inert node := by
  refine forall_mem_sweep (P := Inert) (fun node rest inert _ => ?_) _ ?_
  · unfold listRule
    split
    · dsimp only
      split
      · exact inert
      · exact inert_group _ (by decide)
    · exact inert
  · exact select.items.forall_written (inert_leaf (by decide)) Item.inert_nodes

theorem Several.list_inert {α : Type} (several : Several α) {node : α → Node}
    (each : ∀ thing, Inert (node thing)) : Inert (several.list node) := by
  rw [list]
  split
  · exact each several.first
  · exact inert_group _ (by decide)

theorem DottedName.inert (name : DottedName) : Inert name.node :=
  inert_group _ (by decide)

theorem TableReference.inert (reference : TableReference) : Inert reference.node :=
  inert_extend reference.table.inert _

theorem SortColumn.inert (sort : SortColumn) : Inert sort.node :=
  inert_extend sort.column.inert _

section Nodes
variable {p : Node → Prop} (inert : ∀ node, Inert node → p node)
include inert

theorem Join.forall_nodes (join : Join) (phrase : p (.leaf join.phrase))
    (on : p (.leaf (.keyword "ON"))) (sharing : p (.leaf (.keyword "USING"))) :
    ∀ node ∈ join.nodes, p node := by
  have condition : ∀ node ∈ join.condition.nodes, p node := by
    cases join.condition with
    | on left operator right =>
        simp only [JoinCondition.nodes, List.forall_mem_cons]
        exact ⟨on, inert _ (inert_group _ (by decide)), List.forall_mem_nil _⟩
    | sharing columns =>
        simp only [JoinCondition.nodes, List.forall_mem_cons]
        exact ⟨sharing, inert _ (inert_group _ (by decide)), List.forall_mem_nil _⟩
  refine List.forall_mem_cons.mpr ⟨phrase, ?_⟩
  exact List.forall_mem_cons.mpr ⟨inert _ join.reference.inert, condition⟩

/-- The nodes before the condition are the verb, a few keywords and what begins no clause. -/
theorem Select.forall_frontNodes (select : Select) (verb : p (.leaf ⟨.verb, "SELECT"⟩))
    (words : ∀ word ∈ ["FROM", "ON", "USING"], p (.leaf (.keyword word)))
    (phrases : ∀ join : Join, p (.leaf join.phrase)) : ∀ node ∈ select.frontNodes, p node := by
  refine List.forall_mem_cons.mpr ⟨verb, List.forall_mem_append.mpr ⟨?_, ?_⟩⟩
  · exact fun node member => inert node (select.inert_itemNodes node member)
  · refine List.forall_mem_cons.mpr ⟨words "FROM" (by simp), ?_⟩
    refine List.forall_mem_cons.mpr
      ⟨inert _ (select.references.list_inert TableReference.inert), ?_⟩
    intro node member
    obtain ⟨join, -, inJoin⟩ := List.mem_flatMap.mp member
    exact join.forall_nodes inert (phrases join) (words "ON" (by simp)) (words "USING" (by simp))
      node inJoin

omit inert in
theorem forall_clauseTerms {α : Type} {word : String} {nodes : α → List Node} (option : Option α)
    (keyword : p (.leaf (.keyword word))) (content : ∀ thing, ∀ node ∈ nodes thing, p node) :
    ∀ node ∈ clauseTerms word nodes option, p node := by
  cases option with
  | none => exact List.forall_mem_nil _
  | some thing => exact List.forall_mem_cons.mpr ⟨keyword, content thing⟩

theorem Select.forall_backNodes (select : Select)
    (words : ∀ word ∈ ["GROUP BY", "ORDER BY", "LIMIT"], p (.leaf (.keyword word))) :
    ∀ node ∈ select.backNodes, p node := by
  refine List.forall_mem_append.mpr ⟨?_, List.forall_mem_append.mpr ⟨?_, ?_⟩⟩
  · refine forall_clauseTerms _ (words "GROUP BY" (by simp)) fun columns => ?_
    exact List.forall_mem_singleton.mpr (inert _ (columns.list_inert DottedName.inert))
  · refine forall_clauseTerms _ (words "ORDER BY" (by simp)) fun columns => ?_
    exact List.forall_mem_singleton.mpr (inert _ (columns.list_inert SortColumn.inert))
  · refine forall_clauseTerms _ (words "LIMIT" (by simp)) fun value => ?_
    have literal : Inert (.leaf value.leaf) := inert_leaf (by simp [Literal.leaf, Leaf.literal])
    exact List.forall_mem_singleton.mpr (inert _ literal)

end Nodes

/-- No keyword before the condition has this text. -/
structure NamesClause (text : String) : Prop where
  noLabel : sameLetters "AS" text = false := by decide
  noWord : ∀ word ∈ ["FROM", "ON", "USING"], sameLetters word text = false := by decide
  noJoin : ¬ joinLetters <:+ text.toList.map Char.toLower := by decide

theorem Select.isKeyword_frontNodes (select : Select) (text : String)
    (names : NamesClause text := by exact {}) :
    ∀ node ∈ select.frontNodes, node.isKeyword text = false :=
  select.forall_frontNodes (fun _ inert => inert.noWord text names.noLabel)
    (by simp [isKeyword, Leaf.isKeyword])
    (fun word member => keyword_isKeyword (names.noWord word member))
    fun join => phrase_isKeyword join names.noJoin

theorem Select.isKeyword_backNodes (select : Select) (text : String)
    (noLabel : sameLetters "AS" text = false := by decide)
    (noWord : ∀ word ∈ ["GROUP BY", "ORDER BY", "LIMIT"], sameLetters word text = false := by
      decide) :
    ∀ node ∈ select.backNodes, node.isKeyword text = false :=
  select.forall_backNodes (fun _ inert => inert.noWord text noLabel)
    fun word member => keyword_isKeyword (noWord word member)

/-! ## The statement -/

theorem TableReference.isIdentifier (reference : TableReference) :
    reference.node.isGroupOf .identifier = true :=
  reference.table.isIdentifier_extend _

theorem SortColumn.isIdentifier (sort : SortColumn) : sort.node.isGroupOf .identifier = true :=
  sort.column.isIdentifier_extend _

theorem Select.terms (select : Select) {room : Nat}
    (fits : ∀ condition ∈ select.condition, condition.depth ≤ room + 1) :
    Terms (room + 1) select.leaves (select.frontNodes ++
      (clauseTerms "WHERE" Predicate.nodes select.condition ++ select.backNodes)) := by
  have limit := clause_append "LIMIT" select.limit (by decide)
    (fun value _ => value.member.alone) (Clauses.nil : Clauses (room + 1) [] [])
  have sorting := clause_append "ORDER BY" select.sorting (by decide)
    (fun columns _ => columns.terms (fun sort _ => sort.member)
      fun sort _ => isListMember_of_identifier sort.isIdentifier) limit
  have grouping := clause_append "GROUP BY" select.grouping (by decide)
    (fun columns _ => columns.terms (fun name _ => name.member) fun _ _ => rfl) sorting
  have condition := clause_append "WHERE" select.condition (by decide)
    (fun condition within => condition.terms (fits condition within)) grouping
  have references : Terms (room + 1) _ [select.references.list TableReference.node] :=
    select.references.terms (fun reference _ => reference.member)
      fun reference _ => isListMember_of_identifier reference.isIdentifier
  have tables := Clauses.cons (.ofKeyword "FROM" (by decide)) references
    (joins_append select.joins condition)
  have items : Members (room + 1) _ _ := select.items.members fun item _ => item.members
  have verb : (Leaf.mk .verb "SELECT").Divides := ⟨by decide, rfl, rfl⟩
  have whole := (Clauses.cons verb items.terms tables).terms
  simpa [Select.leaves, Select.frontNodes, Select.backNodes, Select.itemNodes] using whole

theorem Select.closesWhere_backNodes (select : Select) :
    ∀ next ∈ select.backNodes.head?, closesWhere next = true := by
  have closes : ∀ word ∈ ["GROUP BY", "ORDER BY", "LIMIT"],
      closesWhere (.leaf (.keyword word)) = true := by decide
  obtain ⟨items, references, joins, condition, grouping, sorting, limit⟩ := select
  cases grouping with
  | some columns => simpa [backNodes, clauseTerms] using closes "GROUP BY" (by simp)
  | none =>
      cases sorting with
      | some columns => simpa [backNodes, clauseTerms] using closes "ORDER BY" (by simp)
      | none =>
          cases limit with
          | some value => simpa [backNodes, clauseTerms] using closes "LIMIT" (by simp)
          | none => simp [backNodes, clauseTerms]

theorem Select.ofLeaves_leaves (select : Select)
    (fits : ∀ condition ∈ select.condition, condition.depth ≤ nestingLimit) :
    Statement.ofLeaves select.leaves = .ok ⟨select.nodes⟩ := by
  have terms : Terms (255 + 1) _ _ := select.terms fits
  have front := select.isKeyword_frontNodes "WHERE"
  have back := select.isKeyword_backNodes "WHERE"
  rw [terms.ofLeaves (Nat.le_refl _), groupWhere_append_of_forall front, nodes]
  cases select.condition with
  | none => rw [clauseTerms, whereNodes, List.nil_append, groupWhere_eq_self back]
  | some condition =>
      rw [clauseTerms, List.cons_append,
        groupWhere_clause condition.closesWhere_nodes select.closesWhere_backNodes,
        groupWhere_eq_self back]
      rfl

end Plain
end SqlMetrics
