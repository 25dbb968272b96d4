import SqlMetrics.Proofs.Plain.Grammar
import SqlMetrics.Proofs.Terms

/-! # The phrases of a plain `SELECT` as nodes

What the passes make of each phrase: names, labels, items, table references, comparisons, sort
columns, lists of them, and conditions. -/
set_option autoImplicit false
namespace SqlMetrics

open Node

namespace Plain

/-! ## Lists -/

section Several
variable {α : Type} {room : Nat} {parts : α → List Leaf} {nodes : α → List Node} {node : α → Node}

/-- A single thing stands alone, and more are a list of them. -/
def Several.list (node : α → Node) (several : Several α) : Node :=
  if several.others.isEmpty then node several.first
  else .group .identifierList (several.written (.leaf comma) fun thing => [node thing])

theorem listTail_written (others : List α) (member : ∀ thing ∈ others, isListMember (node thing)) :
    listTail (others.flatMap fun thing => [.leaf comma, node thing]) =
      others.flatMap fun thing => [.leaf comma, node thing] := by
  induction others with
  | nil => rfl
  | cons thing rest ih =>
      have here := member thing List.mem_cons_self
      have behind := ih fun other inside => member other (List.mem_cons_of_mem _ inside)
      simp only [List.flatMap_cons, List.cons_append, List.nil_append, listTail]
      rw [if_pos (by simp [here, isPunctuation, Leaf.isPunctuation, Leaf.punctuation]), behind]

theorem groupLists_written (several : Several α)
    (member : ∀ thing ∈ several.all, isListMember (node thing)) :
    groupLists (several.written (.leaf comma) fun thing => [node thing]) = [several.list node] := by
  obtain ⟨first, others⟩ := several
  have tail := listTail_written others fun thing inside =>
    member thing (List.mem_cons_of_mem _ inside)
  have here : isListMember (node first) = true := member first List.mem_cons_self
  rw [groupLists, Several.written, List.singleton_append, sweep_cons]
  cases others with
  | nil => simp [listRule, listTail, Several.list]
  | cons second others =>
      have filled : ((second :: others).flatMap fun thing => [.leaf comma, node thing]).isEmpty =
          false := rfl
      rw [listRule, if_pos here, tail]
      simp only [filled, Bool.false_eq_true, if_false, List.drop_length, sweep_nil]
      rfl

/-- Members with commas between them are made one by one. -/
theorem Several.members (several : Several α)
    (each : ∀ thing ∈ several.all, Members room (parts thing) (nodes thing)) :
    Members room (several.written comma parts) (several.written (.leaf comma) nodes) := by
  obtain ⟨first, others⟩ := several
  induction others generalizing first with
  | nil => simpa [Several.written] using each first (by simp [Several.all])
  | cons second others ih =>
      have behind := ih second fun thing inside => each thing (List.mem_cons_of_mem _ inside)
      have here := each first (by simp [Several.all])
      simpa [Several.written] using here.comma behind

theorem Several.terms (several : Several α)
    (each : ∀ thing ∈ several.all, Members room (parts thing) [node thing])
    (member : ∀ thing ∈ several.all, isListMember (node thing)) :
    Terms room (several.written comma parts) [several.list node] := by
  have members := (several.members each).terms
  rwa [groupLists_written several member] at members

end Several

/-! ## Names and operands -/

section Names
variable {room : Nat}

def nameNode (name : String) : Node :=
  .group .identifier [.leaf (.name name)]

def DottedName.node (name : DottedName) : Node :=
  .group .identifier (name.leaves.map .leaf)

def Operand.node : Operand → Node
  | .column name => name.node
  | .literal value => .leaf value.leaf

def IsPlain (content : Leaf) : Prop :=
  content.opensBracket = false ∧ content.closesBracket = false

theorem DottedName.forall_leaves {p : Leaf → Prop} (name : DottedName) (mark : p period)
    (part : ∀ text, p (.name text)) : ∀ content ∈ name.leaves, p content := by
  intro content member
  simp only [leaves, Several.written, List.mem_append, List.mem_flatMap, List.mem_cons,
    List.not_mem_nil, or_false] at member
  rcases member with rfl | ⟨_, -, rfl | rfl⟩
  · exact part _
  · exact mark
  · exact part _

theorem dottedTail_written (others : List String) {behind : List Node}
    (stops : ∀ next ∈ behind.head?, next.isPunctuation "." = false) :
    dottedTail ((others.flatMap fun part => [period, .name part]).map .leaf ++ behind) =
      (others.flatMap fun part => [period, .name part]).map .leaf := by
  induction others with
  | nil =>
      match behind with
      | [] => rfl
      | [next] => simp [dottedTail, stops next rfl]
      | next :: _ :: _ => simp [dottedTail, stops next rfl]
  | cons part rest ih =>
      simp only [List.flatMap_cons, List.map_cons, List.cons_append, List.nil_append, dottedTail]
      rw [if_pos (by decide), if_pos (by simp [isLeafOf, leafKind?, Leaf.name]), ih]

theorem groupNames_dotted (name : DottedName) {behind : List Node}
    (stops : ∀ next ∈ behind.head?, next.isPunctuation "." = false) :
    groupNames (name.leaves.map .leaf ++ behind) = name.node :: groupNames behind := by
  obtain ⟨first, others⟩ := name
  have tail := dottedTail_written others stops
  rw [groupNames, DottedName.leaves, Several.written, List.singleton_append, List.map_cons,
    List.cons_append, sweep_cons, nameRule, if_pos (by rfl), tail, List.drop_left' rfl]
  rfl

theorem groupCalls_leaves (leaves : List Leaf) :
    groupCalls (leaves.map .leaf) = leaves.map .leaf := by
  refine groupCalls_eq_self fun node member => ?_
  obtain ⟨content, -, rfl⟩ := List.mem_map.mp member
  rfl

/-- A dotted name and some leaves behind it, up to the passes that find more than names. -/
theorem DottedName.members (name : DottedName) {back : List Leaf}
    (plain : ∀ content ∈ back, IsPlain content)
    (stops : ∀ next ∈ (back.map Node.leaf).head?, next.isPunctuation "." = false) :
    Members room (name.leaves ++ back)
      (groupAliases (groupComparisons (groupCasts
        (name.node :: groupNames (back.map .leaf))))) := by
  have level : Level room (name.leaves ++ back) ((name.leaves ++ back).map .leaf) := by
    refine Level.leaves fun content member => ?_
    rcases List.mem_append.mp member with inName | inBack
    · exact name.forall_leaves (p := IsPlain) ⟨rfl, rfl⟩ (fun _ => ⟨rfl, rfl⟩) content inName
    · exact plain content inBack
  refine ⟨_, level, ?_⟩
  rw [groupMembers, groupCalls_leaves, List.map_append, groupNames_dotted name stops]

/-! ## Labels -/

def labelNodes : Option Alias → List Node
  | none => []
  | some (.worded name) => [.leaf (.keyword "AS"), nameNode name]
  | some (.bare name) => [nameNode name]

theorem labelLeaves_plain (label : Option Alias) :
    ∀ content ∈ labelLeaves label, IsPlain content := by
  rcases label with _ | name | name <;>
    simp [labelLeaves, IsPlain, Leaf.opensBracket, Leaf.closesBracket, Leaf.isPunctuation,
      Leaf.keyword, Leaf.name]

theorem labelLeaves_stops (label : Option Alias) :
    ∀ next ∈ ((labelLeaves label).map Node.leaf).head?, next.isPunctuation "." = false := by
  rcases label with _ | name | name <;>
    simp [labelLeaves, isPunctuation, Leaf.isPunctuation, Leaf.keyword, Leaf.name]

theorem groupNames_label (label : Option Alias) :
    groupNames ((labelLeaves label).map .leaf) = labelNodes label := by
  rcases label with _ | name | name <;>
    simp [labelLeaves, labelNodes, nameNode, groupNames, sweep_cons, nameRule, dottedTail,
      isLeafOf, leafKind?, Leaf.keyword, Leaf.name]

theorem groupComparisons_groupCasts_label (base : Node) (noCast : base.isPunctuation "::" = false)
    (noDirection : isDirection base = false) (noOperator : base.isLeafOf .comparison = false)
    (label : Option Alias) :
    groupComparisons (groupCasts (base :: labelNodes label)) = base :: labelNodes label := by
  rw [groupCasts_eq_self, groupComparisons_eq_self]
  · have word : (Node.leaf (.keyword "AS")).isLeafOf .comparison = false := rfl
    have named : ∀ name, (nameNode name).isLeafOf .comparison = false := fun _ => rfl
    rcases label with _ | name | name <;> simp [labelNodes, noOperator, word, named]
  · have word : (Node.leaf (.keyword "AS")).isPunctuation "::" = false := rfl
    have named : ∀ name, (nameNode name).isPunctuation "::" = false := fun _ => rfl
    rcases label with _ | name | name <;> simp [labelNodes, noCast, word, named]
  · have word : isDirection (.leaf (.keyword "AS")) = false := by decide
    have named : ∀ name, isDirection (nameNode name) = false := fun _ => rfl
    rcases label with _ | name | name <;> simp [labelNodes, noDirection, word, named]

theorem aliasTail_label {base : Node} (noLiteral : base.isLeafOf .literal = false)
    (label : Option Alias) : aliasTail base (labelNodes label) = labelNodes label := by
  have word : (Node.leaf (.keyword "AS")).isKeyword "AS" = true := by decide
  have named : ∀ name, (nameNode name).isGroupOf .identifier = true := fun _ => rfl
  rcases label with _ | name | name <;> simp [labelNodes, aliasTail, word, named, noLiteral]

/-- A node whose alias is all that stands behind it takes it. -/
theorem groupAliases_of_tail {base : Node} {tail : List Node} (takes : takesAlias base = true)
    (found : aliasTail base tail = tail) : groupAliases (base :: tail) = [extend base tail] := by
  rw [groupAliases, sweep_cons, aliasRule, if_pos takes]
  simp only [found, List.drop_length, sweep_nil]

theorem DottedName.member_label (name : DottedName) (label : Option Alias) :
    Members room (name.leaves ++ labelLeaves label) [extend name.node (labelNodes label)] := by
  have made : Members room _ _ :=
    name.members (labelLeaves_plain label) (labelLeaves_stops label)
  rw [groupNames_label, groupComparisons_groupCasts_label name.node rfl rfl rfl] at made
  rwa [groupAliases_of_tail rfl (aliasTail_label rfl label)] at made

theorem DottedName.member (name : DottedName) : Members room name.leaves [name.node] := by
  have made : Members room _ _ := name.member_label none
  rwa [labelLeaves, List.append_nil] at made

theorem Literal.member (value : Literal) : Members room [value.leaf] [.leaf value.leaf] :=
  ⟨_, Level.leaf rfl rfl, groupMembers_single rfl⟩

theorem Operand.member (operand : Operand) : Members room operand.leaves [operand.node] := by
  cases operand with
  | column name => exact name.member
  | literal value => exact value.member

theorem Operand.isListMember (operand : Operand) : SqlMetrics.isListMember operand.node = true := by
  cases operand <;> rfl

theorem DottedName.isIdentifier_extend (name : DottedName) (tail : List Node) :
    (extend name.node tail).isGroupOf .identifier = true := by
  rw [extend]
  split <;> rfl

theorem isListMember_of_identifier {node : Node} (identifier : node.isGroupOf .identifier = true) :
    isListMember node = true := by
  obtain ⟨children, rfl⟩ := isGroupOf_iff.mp identifier
  rfl

end Names

/-! ## Items and table references -/

section Phrases
variable {room : Nat}

def bracketNode (inside : List Node) : Node :=
  .group .parenthesis (.leaf opening :: (inside ++ [.leaf closing]))

def starNode : Node :=
  .leaf ⟨.wildcard, "*"⟩

def Arguments.nodes : Arguments → List Node
  | .absent => []
  | .star => [starNode]
  | .listed operands => [operands.list Operand.node]

def callNode (name : String) (arguments : Arguments) : Node :=
  .group .function [nameNode name, bracketNode arguments.nodes]

def Item.nodes (item : Item) : List Node :=
  let label := labelNodes (item.label.map .worded)
  match item.expression with
  | .column name => [extend name.node label]
  | .star => starNode :: label
  | .call name arguments => [extend (callNode name arguments) label]

def TableReference.node (reference : TableReference) : Node :=
  extend reference.table.node (labelNodes reference.label)

theorem isKeyword_list {α : Type} (several : Several α) (node : α → Node) {text : String}
    (noWord : ∀ thing, (node thing).isKeyword text = false) :
    (several.list node).isKeyword text = false := by
  rw [Several.list]
  split
  · exact noWord several.first
  · rfl

theorem Arguments.terms (arguments : Arguments) : Terms room arguments.leaves arguments.nodes := by
  cases arguments with
  | absent => exact Terms.nil
  | star =>
      have made : Members room [⟨.wildcard, "*"⟩] [starNode] :=
        ⟨_, Level.leaf (by decide) (by decide), groupMembers_single rfl⟩
      exact made.alone
  | listed operands =>
      exact operands.terms (fun operand _ => operand.member) fun operand _ => operand.isListMember

theorem Operand.isKeyword (operand : Operand) (text : String) :
    operand.node.isKeyword text = false := by
  cases operand <;> rfl

theorem Arguments.level (arguments : Arguments) :
    Level (room + 1) (inBrackets arguments.leaves) [bracketNode arguments.nodes] := by
  refine arguments.terms.brackets ?_
  cases arguments with
  | absent => simp [nodes]
  | star => simp [nodes, starNode, Node.isKeyword, Leaf.isKeyword]
  | listed operands =>
      intro node member
      rw [nodes, List.mem_singleton] at member
      rw [member]
      exact isKeyword_list operands _ fun operand => operand.isKeyword "WHERE"

theorem groupCalls_call (name : String) (arguments : Arguments) (back : List Leaf) :
    groupCalls (.leaf (.name name) :: bracketNode arguments.nodes :: back.map .leaf) =
      callNode name arguments :: back.map .leaf := by
  rw [groupCalls, sweep_cons, callRule, if_pos (by rfl)]
  exact congrArg _ (groupCalls_leaves back)

/-- A node that no pass before the aliases changes keeps its place before a label. -/
theorem labelled_members {base : Node} {front : List Leaf} {nodes : List Node}
    (label : Option Alias) (made : Level room front nodes)
    (calls : groupCalls (nodes ++ (labelLeaves label).map .leaf) =
      base :: (labelLeaves label).map .leaf)
    (noName : base.isLeafOf .name = false) (noCast : base.isPunctuation "::" = false)
    (noDirection : isDirection base = false) (noOperator : base.isLeafOf .comparison = false) :
    Members room (front ++ labelLeaves label) (groupAliases (base :: labelNodes label)) := by
  have labelled : Level room (labelLeaves label) ((labelLeaves label).map .leaf) :=
    Level.leaves (labelLeaves_plain label)
  have kept : nameRule base ((labelLeaves label).map .leaf) = (base, 0) := by
    simp [nameRule, noName]
  have names : groupNames (base :: (labelLeaves label).map .leaf) = base :: labelNodes label := by
    rw [groupNames, sweep_cons_kept kept]
    exact congrArg _ (groupNames_label label)
  refine ⟨_, made.append labelled, ?_⟩
  rw [groupMembers, calls, names,
    groupComparisons_groupCasts_label base noCast noDirection noOperator]

theorem call_members (name : String) (arguments : Arguments) (label : Option Alias) :
    Members (room + 1) (.name name :: inBrackets arguments.leaves ++ labelLeaves label)
      [extend (callNode name arguments) (labelNodes label)] := by
  have called : Level (room + 1) [.name name] [.leaf (.name name)] := Level.leaf rfl rfl
  have whole : Level (room + 1) _ _ := called.append arguments.level
  have made := labelled_members label whole (groupCalls_call name arguments (labelLeaves label))
    rfl rfl rfl rfl
  rwa [groupAliases_of_tail rfl (aliasTail_label rfl label)] at made

theorem star_members (label : Option Alias) :
    Members room (⟨.wildcard, "*"⟩ :: labelLeaves label) (starNode :: labelNodes label) := by
  have star : Level room [⟨.wildcard, "*"⟩] [starNode] := Level.leaf (by decide) (by decide)
  have calls : groupCalls ([starNode] ++ (labelLeaves label).map .leaf) =
      starNode :: (labelLeaves label).map .leaf :=
    groupCalls_leaves (⟨.wildcard, "*"⟩ :: labelLeaves label)
  have made := labelled_members label star calls rfl rfl (by decide) rfl
  have aliases : groupAliases (starNode :: labelNodes label) = starNode :: labelNodes label := by
    rcases label with _ | name | name <;> rw [groupAliases, labelNodes, sweep_cons_kept rfl]
    · rw [sweep_nil]
    · rw [sweep_cons_kept rfl, sweep_cons_kept rfl, sweep_nil]
    · rw [sweep_cons_kept rfl, sweep_nil]
  rwa [aliases] at made

theorem Item.members (item : Item) : Members (room + 1) item.leaves item.nodes := by
  obtain ⟨expression, label⟩ := item
  cases expression with
  | column name => exact name.member_label _
  | star => exact star_members _
  | call name arguments => exact call_members name arguments _

/-! ## Comparisons and sort columns -/

def comparisonNode (left : Node) (operator : String) (right : Node) : Node :=
  .group .comparison [left, .leaf (.comparison operator), right]

def SortColumn.node (sort : SortColumn) : Node :=
  extend sort.column.node ((sort.direction.map Direction.leaf).toList.map .leaf)

theorem Operand.forall_leaves {p : Leaf → Prop} (operand : Operand) (mark : p period)
    (part : ∀ text, p (.name text)) (literal : ∀ text, p (.literal text)) :
    ∀ content ∈ operand.leaves, p content := by
  cases operand with
  | column name => exact name.forall_leaves mark part
  | literal value =>
      intro content member
      rw [leaves, List.mem_singleton] at member
      exact member ▸ literal value.text

theorem Operand.groupNames (operand : Operand) :
    SqlMetrics.groupNames (operand.leaves.map .leaf) = [operand.node] := by
  cases operand with
  | column name =>
      have named : SqlMetrics.groupNames (_ ++ []) = _ := groupNames_dotted name (by simp)
      rwa [List.append_nil, SqlMetrics.groupNames, sweep_nil] at named
  | literal value =>
      rw [leaves, List.map_singleton, SqlMetrics.groupNames, sweep_cons_kept rfl, sweep_nil]
      rfl

theorem comparison_member (column : DottedName) (operator : String) (operand : Operand) :
    Members room (column.leaves ++ .comparison operator :: operand.leaves)
      [comparisonNode column.node operator operand.node] := by
  have plain : ∀ content ∈ .comparison operator :: operand.leaves, IsPlain content := by
    refine List.forall_mem_cons.mpr ⟨⟨rfl, rfl⟩, ?_⟩
    exact operand.forall_leaves (p := IsPlain) ⟨rfl, rfl⟩ (fun _ => ⟨rfl, rfl⟩) fun _ => ⟨rfl, rfl⟩
  have stops : ∀ next ∈ ((.comparison operator :: operand.leaves).map Node.leaf).head?,
      next.isPunctuation "." = false := by
    intro next first
    rw [List.map_cons, List.head?_cons, Option.mem_def, Option.some_inj] at first
    exact first ▸ rfl
  have made : Members room _ _ := column.members plain stops
  have names : groupNames ((.comparison operator :: operand.leaves).map .leaf) =
      [.leaf (.comparison operator), operand.node] := by
    rw [List.map_cons, groupNames, sweep_cons_kept rfl]
    exact congrArg _ operand.groupNames
  have casts : groupCasts [column.node, .leaf (.comparison operator), operand.node] =
      [column.node, .leaf (.comparison operator), operand.node] := by
    refine groupCasts_eq_self ?_ ?_ <;> cases operand <;> simp only [List.forall_mem_cons] <;>
      exact ⟨rfl, rfl, rfl, List.forall_mem_nil _⟩
  have compared : isOperand operand.node = true := by cases operand <;> rfl
  have comparisons : groupComparisons [column.node, .leaf (.comparison operator), operand.node] =
      [comparisonNode column.node operator operand.node] := by
    rw [groupComparisons, sweep_cons, comparisonRule, if_pos (by rw [compared]; rfl)]
    exact congrArg _ (sweep_nil _)
  rwa [names, casts, comparisons, groupAliases, sweep_cons_kept rfl, sweep_nil] at made

def directionLeaves (direction : Option Direction) : List Leaf :=
  (direction.map Direction.leaf).toList

theorem directionLeaves_plain (direction : Option Direction) :
    ∀ content ∈ directionLeaves direction, IsPlain content := by
  rcases direction with _ | _ | _ <;>
    simp [directionLeaves, Direction.leaf, IsPlain, Leaf.opensBracket, Leaf.closesBracket,
      Leaf.isPunctuation, Leaf.keyword]

theorem directionTail_directionLeaves (direction : Option Direction) :
    directionTail ((directionLeaves direction).map .leaf) =
      (directionLeaves direction).map .leaf := by
  rcases direction with _ | _ | _ <;> rfl

theorem castTail_directionLeaves (direction : Option Direction) :
    castTail ((directionLeaves direction).map .leaf) = [] := by
  rcases direction with _ | _ | _ <;> rfl

theorem groupNames_directionLeaves (direction : Option Direction) :
    groupNames ((directionLeaves direction).map .leaf) = (directionLeaves direction).map .leaf := by
  rcases direction with _ | _ | _ <;>
    simp [directionLeaves, Direction.leaf, groupNames, sweep_cons, nameRule, isLeafOf, leafKind?,
      Leaf.keyword]

theorem directed_member {base : Node} {front : List Leaf} {nodes : List Node}
    (direction : Option Direction) (made : Level room front nodes)
    (named : groupNames (groupCalls (nodes ++ (directionLeaves direction).map .leaf)) =
      base :: (directionLeaves direction).map .leaf)
    (castable : isCastable base = true)
    (takes : base.isLeafOf .literal = false ∨ isNumber base = true) :
    Members room (front ++ directionLeaves direction)
      [extend base ((directionLeaves direction).map .leaf)] := by
  have directed : Level room (directionLeaves direction) ((directionLeaves direction).map .leaf) :=
    Level.leaves (directionLeaves_plain direction)
  have turned : (!base.isLeafOf .literal || isNumber base) = true := by
    rcases takes with noLiteral | number
    · rw [noLiteral, Bool.not_false, Bool.true_or]
    · rw [number, Bool.or_true]
  have all : ((directionLeaves direction).map Node.leaf).drop (directionLeaves direction).length =
      [] := List.drop_of_length_le (Nat.le_of_eq (List.length_map _))
  have casts : groupCasts (base :: (directionLeaves direction).map .leaf) =
      [extend base ((directionLeaves direction).map .leaf)] := by
    rw [groupCasts, sweep_cons, castRule, if_pos castable]
    simp [castTail_directionLeaves, directionTail_directionLeaves, turned, all]
  refine ⟨_, made.append directed, ?_⟩
  rw [groupMembers, named, casts, groupComparisons_single, groupAliases_single]

theorem DottedName.directed (name : DottedName) (direction : Option Direction) :
    Members room (name.leaves ++ directionLeaves direction)
      [extend name.node ((directionLeaves direction).map .leaf)] := by
  have made : Level room name.leaves (name.leaves.map .leaf) :=
    Level.leaves (name.forall_leaves (p := IsPlain) ⟨rfl, rfl⟩ fun _ => ⟨rfl, rfl⟩)
  have stops : ∀ next ∈ ((directionLeaves direction).map Node.leaf).head?,
      next.isPunctuation "." = false := by
    rcases direction with _ | _ | _ <;> simp [directionLeaves, Direction.leaf] <;> decide
  refine directed_member direction made ?_ rfl (.inl rfl)
  rw [← List.map_append, groupCalls_leaves, List.map_append, groupNames_dotted name stops,
    groupNames_directionLeaves]

theorem SortColumn.member (sort : SortColumn) : Members room sort.leaves [sort.node] :=
  sort.column.directed sort.direction

end Phrases

/-! ## Conditions -/

def Literal.list (values : Several Literal) : Node :=
  Several.list (fun value => .leaf value.leaf) values

def Predicate.nodes : Predicate → List Node
  | .compare column operator operand => [comparisonNode column.node operator operand.node]
  | .between column low high =>
      [column.node, .leaf (.keyword "BETWEEN"), .leaf low.leaf, .leaf (.keyword "AND"),
        .leaf high.leaf]
  | .among column values =>
      [column.node, .leaf (.keyword "IN"), bracketNode [Literal.list values]]
  | .both left right => left.nodes ++ .leaf (.keyword "AND") :: right.nodes
  | .either left right => left.nodes ++ .leaf (.keyword "OR") :: right.nodes
  | .bracketed inside => [bracketNode inside.nodes]

def JoinCondition.nodes : JoinCondition → List Node
  | .on left operator right =>
      [.leaf (.keyword "ON"), comparisonNode left.node operator right.node]
  | .sharing columns => [.leaf (.keyword "USING"), bracketNode [columns.list nameNode]]

def Join.nodes (join : Join) : List Node :=
  .leaf join.phrase :: join.reference.node :: join.condition.nodes

section Conditions
variable {room : Nat}

/-- The nodes of a predicate on its level are groups, literals and the words that join its parts. -/
theorem Predicate.forall_nodes {p : Node → Prop} (predicate : Predicate)
    (word : ∀ joint ∈ ["AND", "OR", "BETWEEN", "IN"], p (.leaf (.keyword joint)))
    (literal : ∀ value : Literal, p (.leaf value.leaf))
    (group : ∀ kind children, p (.group kind children)) :
    ∀ node ∈ predicate.nodes, p node := by
  induction predicate with
  | compare column operator operand => exact List.forall_mem_singleton.mpr (group _ _)
  | between column low high =>
      simp only [nodes, List.forall_mem_cons]
      exact ⟨group _ _, word "BETWEEN" (by simp), literal low, word "AND" (by simp), literal high,
        List.forall_mem_nil _⟩
  | among column values =>
      simp only [nodes, List.forall_mem_cons]
      exact ⟨group _ _, word "IN" (by simp), group _ _, List.forall_mem_nil _⟩
  | both left right ihLeft ihRight =>
      simp only [nodes, List.forall_mem_append, List.forall_mem_cons]
      exact ⟨ihLeft, word "AND" (by simp), ihRight⟩
  | either left right ihLeft ihRight =>
      simp only [nodes, List.forall_mem_append, List.forall_mem_cons]
      exact ⟨ihLeft, word "OR" (by simp), ihRight⟩
  | bracketed inside ih => exact List.forall_mem_singleton.mpr (group _ _)

theorem keyword_isKeyword {word text : String} (other : sameLetters word text = false) :
    (Node.leaf (.keyword word)).isKeyword text = false := by
  simpa [isKeyword, Leaf.isKeyword, Leaf.keyword] using other

theorem Predicate.isKeyword_nodes (predicate : Predicate) {text : String}
    (other : ∀ word ∈ ["AND", "OR", "BETWEEN", "IN"], sameLetters word text = false) :
    ∀ node ∈ predicate.nodes, node.isKeyword text = false :=
  predicate.forall_nodes (fun joint member => keyword_isKeyword (other joint member))
    (fun _ => rfl) fun _ _ => rfl

theorem Predicate.closesWhere_nodes (predicate : Predicate) :
    ∀ node ∈ predicate.nodes, closesWhere node = false := by
  have others : ∀ terminator ∈ whereTerminators, ∀ word ∈ ["AND", "OR", "BETWEEN", "IN"],
      sameLetters word terminator = false := by decide
  have noBracket : ∀ node ∈ predicate.nodes, node.isPunctuation ")" = false :=
    predicate.forall_nodes (fun _ _ => rfl) (fun _ => rfl) fun _ _ => rfl
  intro node member
  have noTerminator : whereTerminators.any node.isKeyword = false := by
    refine List.any_eq_false.mpr fun terminator inList => ?_
    simp [predicate.isKeyword_nodes (others terminator inList) node member]
  rw [closesWhere, noBracket node member, noTerminator, Bool.or_false]

theorem bracketNode_terms {inside : List Leaf} {nodes : List Node}
    (within : Terms room inside nodes) (noWhere : ∀ node ∈ nodes, node.isKeyword "WHERE" = false) :
    Terms (room + 1) (inBrackets inside) [bracketNode nodes] :=
  ⟨_, within.brackets noWhere, groupTerms_parenthesis _⟩

theorem Predicate.terms (predicate : Predicate) (fits : predicate.depth ≤ room) :
    Terms room predicate.leaves predicate.nodes := by
  induction predicate generalizing room with
  | compare column operator operand =>
      exact (comparison_member column operator operand).alone
  | between column low high =>
      have bounds : Terms room _ _ :=
        low.member.alone.divide (.ofKeyword "AND" (by decide)) high.member.alone
      exact column.member.alone.divide (.ofKeyword "BETWEEN" (by decide)) bounds
  | among column values =>
      have positive : room ≠ 0 := by
        rw [depth] at fits
        omega
      obtain ⟨room, rfl⟩ := Nat.exists_eq_add_one_of_ne_zero positive
      have list : Terms room _ _ := values.terms (fun value _ => value.member) fun _ _ => rfl
      have inside := bracketNode_terms list (by
        simp only [List.forall_mem_singleton]
        exact isKeyword_list values _ fun _ => rfl)
      exact column.member.alone.divide (.ofKeyword "IN" (by decide)) inside
  | both left right ihLeft ihRight =>
      rw [depth, Nat.max_le] at fits
      exact (ihLeft fits.1).divide (.ofKeyword "AND" (by decide)) (ihRight fits.2)
  | either left right ihLeft ihRight =>
      rw [depth, Nat.max_le] at fits
      exact (ihLeft fits.1).divide (.ofKeyword "OR" (by decide)) (ihRight fits.2)
  | bracketed inside ih =>
      have positive : room ≠ 0 := by
        rw [depth] at fits
        omega
      obtain ⟨room, rfl⟩ := Nat.exists_eq_add_one_of_ne_zero positive
      refine bracketNode_terms (ih (by simpa [depth] using fits)) ?_
      exact inside.isKeyword_nodes (by decide)

end Conditions

end Plain
end SqlMetrics
