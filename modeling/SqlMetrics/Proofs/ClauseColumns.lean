import Mathlib.Data.Option.Basic
import SqlMetrics.Proofs.Opaque
import SqlMetrics.Proofs.Plain.Counts
import SqlMetrics.Proofs.TopLevel

/-! # The columns of a clause

The names, calls, numbers and brackets that `GROUP BY` or `ORDER BY` lists (`ClauseItem`), and what
the clause counts: each item when there are several, but a single one only if it is a name or has a
direction (`itemColumns`).  It counts the same whatever stands before it, as long as no bracket is
open there and it is the first of its kind (`columns_of_clause`). -/
set_option autoImplicit false
namespace SqlMetrics

open Node Plain

/-! ## Items -/

structure BalancedLeaves where
  leaves : List Leaf
  balanced : balances 0 (bracketsOf leaves) = true

/-- What may have a direction behind it. -/
inductive SortKey where
  | column (name : DottedName)
  | call (name : String) (inside : BalancedLeaves)
  | number (text : String) (spelled : isNumber (.leaf (.literal text)) = true)

/-- An item of a clause: literals and brackets have no direction. -/
inductive ClauseItem where
  | sorted (key : SortKey) (direction : Option Direction)
  | literal (text : String)
  | bracketed (inside : BalancedLeaves)

def SortKey.leaves : SortKey → List Leaf
  | .column name => name.leaves
  | .call name inside => .name name :: inBrackets inside.leaves
  | .number text _ => [.literal text]

def ClauseItem.leaves : ClauseItem → List Leaf
  | .sorted key direction => key.leaves ++ directionLeaves direction
  | .literal text => [.literal text]
  | .bracketed inside => inBrackets inside.leaves

def ClauseItem.isColumn : ClauseItem → Bool
  | .sorted (.column _) _ => true
  | .sorted _ direction => direction.isSome
  | .literal _ | .bracketed _ => false

def itemColumns (items : Several ClauseItem) : Nat :=
  if items.others.isEmpty then if items.first.isColumn then 1 else 0 else items.count

/-! ## Items as nodes -/

def BalancedLeaves.node (inside : BalancedLeaves) : Node :=
  bracketNode (groupLevel (groupInsideAll
    ((nestBrackets nestingLimit inside.leaves).getD [])))

def SortKey.node : SortKey → Node
  | .column name => name.node
  | .call name inside => .group .function [nameNode name, inside.node]
  | .number text _ => .leaf (.literal text)

def ClauseItem.node : ClauseItem → Node
  | .sorted key direction => extend key.node ((directionLeaves direction).map .leaf)
  | .literal text => .leaf (.literal text)
  | .bracketed inside => inside.node

def BalancedLeaves.Fits (inside : BalancedLeaves) : Prop :=
  deepest 0 (bracketsOf inside.leaves) + 1 ≤ nestingLimit

def SortKey.Fits : SortKey → Prop
  | .call _ inside => inside.Fits
  | .column _ | .number _ _ => True

def ClauseItem.Fits : ClauseItem → Prop
  | .sorted key _ => key.Fits
  | .literal _ => True
  | .bracketed inside => inside.Fits

theorem BalancedLeaves.level {inside : BalancedLeaves} (fits : inside.Fits) :
    Level nestingLimit (inBrackets inside.leaves) [inside.node] := by
  obtain ⟨nodes, nests⟩ := exists_nests inside.balanced (Nat.le_sub_of_add_le fits)
  have found : nestBrackets nestingLimit inside.leaves = some nodes :=
    nests.nestBrackets (Nat.sub_le _ _)
  rw [node, found]
  exact Level.brackets ⟨nodes, nests, rfl⟩

theorem SortKey.member {key : SortKey} (fits : key.Fits) (direction : Option Direction) :
    Members nestingLimit (key.leaves ++ directionLeaves direction)
      [extend key.node ((directionLeaves direction).map .leaf)] := by
  cases key with
  | column name => exact name.directed direction
  | call name inside =>
      have called : Level nestingLimit [.name name] [.leaf (.name name)] := Level.leaf rfl rfl
      refine directed_member direction (called.append (BalancedLeaves.level fits)) ?_ rfl
        (.inl rfl)
      have calls : groupCalls (.leaf (.name name) :: inside.node ::
            (directionLeaves direction).map .leaf) =
          SortKey.node (.call name inside) :: (directionLeaves direction).map .leaf := by
        rw [groupCalls, sweep_cons, callRule, if_pos (by rfl)]
        exact congrArg _ (groupCalls_leaves _)
      have kept : nameRule (SortKey.node (.call name inside))
          ((directionLeaves direction).map .leaf) = (SortKey.node (.call name inside), 0) := rfl
      rw [List.append_assoc, List.singleton_append, List.singleton_append, calls, groupNames,
        sweep_cons_kept kept]
      exact congrArg _ (groupNames_directionLeaves direction)
  | number text spelled =>
      have made : Level nestingLimit [.literal text] [.leaf (.literal text)] := Level.leaf rfl rfl
      refine directed_member direction made ?_ rfl (.inr spelled)
      have leaves : groupCalls ((.literal text :: directionLeaves direction).map .leaf) = _ :=
        groupCalls_leaves (.literal text :: directionLeaves direction)
      have kept : nameRule (.leaf (.literal text)) ((directionLeaves direction).map .leaf) =
          (.leaf (.literal text), 0) := rfl
      rw [List.map_cons] at leaves
      rw [List.singleton_append, leaves, groupNames, sweep_cons_kept kept]
      exact congrArg _ (groupNames_directionLeaves direction)

theorem ClauseItem.member {item : ClauseItem} (fits : item.Fits) :
    Members nestingLimit item.leaves [item.node] := by
  cases item with
  | sorted key direction => exact SortKey.member fits direction
  | literal text =>
      have made : Level nestingLimit [.literal text] [.leaf (.literal text)] := Level.leaf rfl rfl
      exact ⟨_, made, groupMembers_single rfl⟩
  | bracketed inside => exact ⟨_, BalancedLeaves.level fits, groupMembers_single rfl⟩

/-! ## The list of the items -/

section List
variable {items : Several ClauseItem} {before after : List Leaf}

/-- What the node of an item is to its clause: one member, and a column or none by itself. -/
structure ItemNode (column : Bool) (node : Node) : Prop where
  member : isListMember node = true
  columns : node.columns = if column then 1 else 0
  noMark : node.isLeafOf .punctuation = false
  noKeyword : node.isLeafOf .keyword = false

theorem ItemNode.group {kind : GroupKind} (children : List Node)
    (listed : kind = .identifier ∨ kind = .function ∨ kind = .parenthesis) :
    ItemNode (kind = .identifier) (.group kind children) := by
  rcases listed with rfl | rfl | rfl <;> exact ⟨rfl, rfl, rfl, rfl⟩

theorem ItemNode.literal (text : String) : ItemNode false (.leaf (.literal text)) :=
  ⟨rfl, rfl, rfl, rfl⟩

theorem ClauseItem.itemNode (item : ClauseItem) : ItemNode item.isColumn item.node := by
  cases item with
  | sorted key direction =>
      have directed : ∀ direction base, ItemNode true
          (extend base ((directionLeaves (some direction)).map .leaf)) :=
        fun _ _ => .group _ (.inl rfl)
      cases direction with
      | none =>
          cases key with
          | column name => exact .group _ (.inl rfl)
          | call name inside => exact .group _ (.inr (.inl rfl))
          | number text spelled => exact .literal text
      | some direction => cases key <;> exact directed direction _
  | literal text => exact .literal text
  | bracketed inside => exact .group _ (.inr (.inr rfl))

theorem Plain.Several.written_of_mem {α β : Type} {thing : α} (several : Several α) (mark : β)
    (parts : α → List β) (member : thing ∈ several.all) :
    ∃ before after, several.written mark parts = before ++ (parts thing ++ after) := by
  obtain ⟨first, others⟩ := several
  rcases List.mem_cons.mp member with rfl | inOthers
  · exact ⟨[], _, rfl⟩
  · obtain ⟨front, back, rfl⟩ := List.append_of_mem inOthers
    refine ⟨parts first ++ (front.flatMap fun other => mark :: parts other) ++ [mark],
      back.flatMap fun other => mark :: parts other, ?_⟩
    simp [Several.written]

theorem ClauseItem.fits_of_within {item : ClauseItem}
    (within : deepest 0 (bracketsOf (before ++ (item.leaves ++ after))) ≤ nestingLimit) :
    item.Fits := by
  have fits (front : List Leaf) (inside : BalancedLeaves) (back : List Leaf)
      (same : before ++ (item.leaves ++ after) = filled front inside.leaves back) :
      inside.Fits := by
    rw [same] at within
    have room := room_of_filled inside.balanced within
    rw [BalancedLeaves.Fits]
    omega
  cases item with
  | sorted key direction =>
      cases key with
      | column name => trivial
      | call name inside =>
          refine fits (before ++ [.name name]) inside (directionLeaves direction ++ after) ?_
          simp [ClauseItem.leaves, SortKey.leaves, inBrackets, filled]
      | number text spelled => trivial
  | literal text => trivial
  | bracketed inside =>
      refine fits before inside after ?_
      simp [ClauseItem.leaves, inBrackets, filled]

theorem terms_of_items (fits : ∀ item ∈ items.all, item.Fits) :
    Terms nestingLimit (items.written comma ClauseItem.leaves) [items.list ClauseItem.node] :=
  items.terms (fun item member => ClauseItem.member (fits item member))
    fun item _ => item.itemNode.member

theorem columns_of_items (items : Several ClauseItem) :
    (items.list ClauseItem.node).columns = itemColumns items := by
  rw [items.columns_list_eq fun item => item.itemNode.noMark, itemColumns,
    items.first.itemNode.columns]

theorem noKeyword_of_items (items : Several ClauseItem) :
    (items.list ClauseItem.node).isLeafOf .keyword = false := by
  rw [Several.list]
  split
  · exact items.first.itemNode.noKeyword
  · rfl

end List

/-! ## The clause among others -/

inductive ColumnClause where
  | grouping
  | sorting
  deriving DecidableEq, Repr

namespace ColumnClause

def name : ColumnClause → String
  | .grouping => "GROUP BY"
  | .sorting => "ORDER BY"

def other : ColumnClause → ColumnClause
  | .grouping => .sorting
  | .sorting => .grouping

def count (statement : Statement) : ColumnClause → Nat
  | .grouping => statement.groupByColumns
  | .sorting => statement.orderByColumns

def followers (clause : ColumnClause) : List String :=
  [clause.other.name, "HAVING", "LIMIT", "OFFSET", "FETCH", "UNION", "UNION ALL", "INTERSECT",
    "EXCEPT", "WINDOW", "RETURNING", "INTO"]

end ColumnClause

section Clause
variable {clause : ColumnClause} {front back : List Leaf} {items : Several ClauseItem}

theorem groupNodes_keyword {content : Leaf} (divides : content.dividesTerms = true)
    (noWhere : content.isKeyword "WHERE" = false) (behind : List Node) :
    groupNodes (.leaf content :: behind) = .leaf content :: groupNodes behind := by
  have leaf : groupInside (.leaf content) = .leaf content := by simp [groupInside]
  have noWhere : (Node.leaf content).isKeyword "WHERE" = false := noWhere
  rw [groupNodes, groupInsideAll, leaf, groupLevel_eq, groupTerms_cons divides,
    groupWhere_cons noWhere]
  rfl

theorem groupNodes_clause {word : Leaf} {before inside after : List Node} {node : Node}
    (closes : closesWhere (.leaf word) = true)
    (terms : groupTerms (groupInsideAll inside) = [node])
    (noWhere : node.isKeyword "WHERE" = false)
    (apart : ∀ next ∈ after.head?, ∃ content : Leaf, next = .leaf content ∧
      content.dividesTerms = true) :
    groupNodes (before ++ .leaf word :: (inside ++ after)) =
      groupNodes before ++ .leaf word :: node :: groupNodes after := by
  have leaf : ∀ content, groupInside (.leaf content) = .leaf content := fun _ => by
    simp [groupInside]
  have apartInside : ∀ next ∈ (after.map groupInside).head?, ∃ content : Leaf,
      next = .leaf content ∧ content.dividesTerms = true := by
    intro next head
    rw [List.head?_map, Option.mem_map] at head
    obtain ⟨first, found, rfl⟩ := head
    obtain ⟨content, rfl, divides⟩ := apart first found
    exact ⟨content, leaf content, divides⟩
  rw [groupInsideAll_eq_map] at terms
  simp only [groupNodes, groupInsideAll_eq_map, List.map_append, List.map_cons, leaf]
  rw [groupLevel_eq, groupTerms_append (dividesTerms_of_closesWhere closes),
    groupTerms_append_of_head apartInside, terms, groupWhere_append closes, List.singleton_append,
    groupWhere_cons noWhere]
  rfl

theorem follower_divides {next : Leaf} (follows : clause.followers.any next.isKeyword = true) :
    next.kind = .keyword ∧ next.dividesTerms = true ∧ next.isKeyword "WHERE" = false := by
  obtain ⟨text, inList, word⟩ := List.any_eq_true.mp follows
  have others : ∀ text ∈ clause.followers,
      sameLetters text "WHERE" = false ∧
        ∀ member ∈ ["AS", "ASC", "DESC", "NULL", "TRUE", "FALSE"],
          sameLetters text member = false := by
    cases clause <;> decide
  obtain ⟨noWhere, noMember⟩ := others text inList
  exact ⟨Leaf.kind_of_isKeyword word, dividesTerms_of_isKeyword word noMember,
    Leaf.isKeyword_apart word noWhere⟩

theorem nested_cons {limit : Nat} {content : Leaf} {rest : List Leaf} {nested : List Node}
    (noBracket : content.kind ≠ .punctuation)
    (nests : nestBrackets limit (content :: rest) = some nested) :
    ∃ more, nested = .leaf content :: more := by
  have noMark : ∀ text, content.isPunctuation text = false := fun text => by
    simp [Leaf.isPunctuation, noBracket]
  have alone : Nests limit [content] [.leaf content] := Nests.leaf (noMark "(") (noMark ")")
  have parted : nestBrackets limit ([content] ++ rest) = some nested := nests
  obtain ⟨nodes, more, first, -, rfl⟩ := nested_append alone.closed parted
  cases (alone.nestBrackets (Nat.le_refl limit)).symm.trans first
  exact ⟨more, rfl⟩

theorem ColumnClause.closesWhere_name (clause : ColumnClause) :
    closesWhere (.leaf (.keyword clause.name)) = true := by
  cases clause <;> decide

/-- The nodes of a statement at the first clause of its kind: nothing is merged across the name of
the clause or across the keyword behind it. -/
theorem exists_nodes_of_clause {statement : Statement}
    (closed : depthAfter 0 (bracketsOf front) = 0)
    (first : ∀ content ∈ topLeaves 0 front, content.isKeyword clause.name = false)
    (ends : ∀ next ∈ back.head?, clause.followers.any next.isKeyword = true)
    (accepted : Statement.ofLeaves (front ++ .keyword clause.name ::
      (items.written comma ClauseItem.leaves ++ back)) = .ok statement) :
    ∃ before after, statement.nodes = before ++ .leaf (.keyword clause.name) ::
        items.list ClauseItem.node :: after ∧
      (∀ node ∈ before, node.isKeyword clause.name = false) ∧
      ∀ next ∈ after.head?, next.isAnyKeyword = true := by
  obtain ⟨nested, nests, rfl⟩ := nested_of_ofLeaves accepted
  have fits : ∀ item ∈ items.all, item.Fits := by
    intro item member
    obtain ⟨before, after, parts⟩ := items.written_of_mem comma ClauseItem.leaves member
    have within := deepest_le_of_nested nests
    have whole : front ++ .keyword clause.name ::
        (items.written comma ClauseItem.leaves ++ back) =
        (front ++ .keyword clause.name :: before) ++ (item.leaves ++ (after ++ back)) := by
      simp [parts]
    rw [whole] at within
    exact ClauseItem.fits_of_within within
  obtain ⟨-, ⟨inside, nestsItems, rfl⟩, terms⟩ := terms_of_items fits
  have word : Nests nestingLimit [.keyword clause.name] [.leaf (.keyword clause.name)] :=
    Nests.leaf rfl rfl
  have piece := word.append nestsItems
  obtain ⟨before, rest, nestsFront, nestsRest, rfl⟩ := nested_append closed nests
  obtain ⟨found, after, nestsPiece, nestsBack, rfl⟩ := nested_append piece.closed nestsRest
  cases (piece.nestBrackets (Nat.le_refl _)).symm.trans nestsPiece
  have noWhere : (items.list ClauseItem.node).isKeyword "WHERE" = false :=
    isKeyword_of_isLeafOf (noKeyword_of_items items)
  have behind : (∀ next ∈ after.head?, ∃ content : Leaf, next = .leaf content ∧
        content.dividesTerms = true) ∧
      ∀ next ∈ (groupNodes after).head?, next.isAnyKeyword = true := by
    cases back with
    | nil =>
        cases nestsBack
        simp [groupNodes, groupInsideAll, groupLevel_eq, OpenGroups.closeAll]
    | cons next further =>
        obtain ⟨keyword, divides, noWhere⟩ := follower_divides (ends next rfl)
        obtain ⟨more, rfl⟩ := nested_cons (by rw [keyword]; decide) nestsBack
        rw [groupNodes_keyword divides noWhere]
        simp [divides, isAnyKeyword, isLeafOf, leafKind?, keyword]
  refine ⟨groupNodes before, groupNodes after, ?_, isKeyword_groupNodes nestsFront first, behind.2⟩
  exact groupNodes_clause clause.closesWhere_name terms noWhere behind.1

/-- The first `GROUP BY` or `ORDER BY` outside brackets counts its items up to the next keyword:
all of them if there are several, and a single one if it is a name or has a direction.  What stands
before the clause makes no difference as long as it leaves no bracket open. -/
theorem columns_of_clause {statement : Statement}
    (closed : depthAfter 0 (bracketsOf front) = 0)
    (first : ∀ content ∈ topLeaves 0 front, content.isKeyword clause.name = false)
    (ends : ∀ next ∈ back.head?, clause.followers.any next.isKeyword = true)
    (accepted : Statement.ofLeaves (front ++ .keyword clause.name ::
      (items.written comma ClauseItem.leaves ++ back)) = .ok statement) :
    clause.count statement = itemColumns items := by
  obtain ⟨before, after, nodes, absent, endsNodes⟩ :=
    exists_nodes_of_clause closed first ends accepted
  have named : (Node.leaf (.keyword clause.name)).isKeyword clause.name = true := by
    cases clause <;> decide
  have counted : clause.count statement = clauseColumns clause.name statement.nodes := by
    cases clause <;> rfl
  calc clause.count statement
      = clauseColumns clause.name
          (.leaf (.keyword clause.name) :: items.list ClauseItem.node :: after) := by
        rw [counted, nodes, clauseColumns_append absent]
    _ = (items.list ClauseItem.node).columns :=
        clauseColumns_single named (noKeyword_of_items items) endsNodes
    _ = itemColumns items := columns_of_items items

end Clause

/-- Items of every kind behind a condition and a bracket that closes nothing, and a call that stands
alone. -/
theorem columns_of_mixed_items :
    (∃ statement, Statement.ofLeaves [⟨.verb, "SELECT"⟩, .name "a", .punctuation ")",
        .keyword "WHERE", .name "b", .keyword "ORDER BY", .name "t", .punctuation ".", .name "c",
        .punctuation ",", .name "f", .punctuation "(", .punctuation "(", .keyword "ORDER BY",
        .punctuation ")", .punctuation ")", .punctuation ",", .literal "2", .keyword "DESC",
        .punctuation ",", .literal "NULL", .punctuation ",", .punctuation "(", .name "d",
        .punctuation ",", .name "e", .punctuation ")", .keyword "WINDOW", .name "w"] =
          .ok statement ∧ statement.orderByColumns = 5) ∧
      ∃ statement, Statement.ofLeaves [.name "a", .keyword "GROUP BY", .name "f",
        .punctuation "(", .name "a", .punctuation ")"] = .ok statement ∧
          statement.groupByColumns = 0 := by
  let items : Several ClauseItem := {
    first := .sorted (.column ⟨"t", ["c"]⟩) none
    others := [.sorted (.call "f" ⟨[.punctuation "(", .keyword "ORDER BY", .punctuation ")"],
      by decide⟩) none, .sorted (.number "2" (by decide)) (some .descending), .literal "NULL",
      .bracketed ⟨[.name "d", .punctuation ",", .name "e"], by decide⟩] }
  let call : Several ClauseItem := { first := .sorted (.call "f" ⟨[.name "a"], by decide⟩) none }
  let front : List Leaf :=
    [⟨.verb, "SELECT"⟩, .name "a", .punctuation ")", .keyword "WHERE", .name "b"]
  have sorted := @columns_of_clause .sorting front [.keyword "WINDOW", .name "w"] items _
    (by decide) (by decide) (by decide) rfl
  have grouped := @columns_of_clause .grouping [.name "a"] [] call _ (by decide) (by decide)
    (by decide) rfl
  exact ⟨⟨_, rfl, sorted⟩, _, rfl, grouped⟩

end SqlMetrics
