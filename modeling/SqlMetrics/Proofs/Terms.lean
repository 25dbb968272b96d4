import SqlMetrics.Proofs.Barrier
import SqlMetrics.Proofs.Tree
import SqlMetrics.Statement

/-! # Grouping a level piece by piece

`Level` relates leaves with balanced brackets to the nodes of their level, the insides of brackets
grouped, whatever was read before them.  Pieces of a level are put together at leaves that divide
them: members at commas (`Members`), terms and whole clauses at keywords (`Terms`, `Clauses`). -/
set_option autoImplicit false
namespace SqlMetrics

open Node OpenGroups

/-! ## Passes with nothing to merge -/

section NothingToMerge
variable {nodes : List Node}

theorem groupCalls_eq_self (noBrackets : ∀ node ∈ nodes, node.isGroupOf .parenthesis = false) :
    groupCalls nodes = nodes := by
  refine sweep_eq_self fun node rest inside => ?_
  cases rest with
  | nil => rfl
  | cons next further =>
      have behind := noBrackets next (inside.subset (by simp))
      simp [callRule, behind]

theorem groupCasts_eq_self (noCasts : ∀ node ∈ nodes, node.isPunctuation "::" = false)
    (noDirections : ∀ node ∈ nodes, isDirection node = false) : groupCasts nodes = nodes := by
  refine sweep_eq_self fun node rest inside => ?_
  have casts : castTail rest = [] := by
    cases rest with
    | nil => rfl
    | cons next further =>
        have noCast := noCasts next (inside.subset (by simp))
        cases further <;> simp [castTail, noCast]
  have direction : directionTail rest = [] := by
    cases rest with
    | nil => rfl
    | cons next further =>
        simp [directionTail, noDirections next (inside.subset (by simp))]
  simp [castRule, casts, direction, extend]

theorem groupComparisons_eq_self
    (noOperators : ∀ node ∈ nodes, node.isLeafOf .comparison = false) :
    groupComparisons nodes = nodes := by
  refine sweep_eq_self fun node rest inside => ?_
  match rest with
  | [] => rfl
  | [_] => rfl
  | operator :: right :: _ =>
      simp [comparisonRule, noOperators operator (inside.subset (by simp))]

/-! ### A single node -/

section Single
variable {node : Node}

theorem sweep_single {rule : MergeRule} (kept : rule node [] = (node, 0)) :
    sweep rule [node] = [node] := by
  rw [sweep_cons_kept kept, sweep_nil]

theorem groupCasts_single (node : Node) : groupCasts [node] = [node] := by
  refine sweep_single ?_
  simp [castRule, castTail, directionTail, extend]

theorem groupComparisons_single (node : Node) : groupComparisons [node] = [node] :=
  sweep_single rfl

theorem groupAliases_single (node : Node) : groupAliases [node] = [node] := by
  refine sweep_single ?_
  simp [aliasRule, aliasTail, extend]

theorem groupLists_single (node : Node) : groupLists [node] = [node] := by
  refine sweep_single ?_
  simp [listRule, listTail]

theorem groupMembers_single (noName : node.isLeafOf .name = false) :
    groupMembers [node] = [node] := by
  have calls : groupCalls [node] = [node] := sweep_single rfl
  have names : groupNames [node] = [node] := sweep_single (by simp [nameRule, noName])
  rw [groupMembers, calls, names, groupCasts_single, groupComparisons_single, groupAliases_single]

end Single

/-! ### Nothing but other clauses -/

theorem groupWhere_append_of_forall (noWhere : ∀ node ∈ nodes, node.isKeyword "WHERE" = false)
    (behind : List Node) : groupWhere (nodes ++ behind) = nodes ++ groupWhere behind := by
  induction nodes with
  | nil => rfl
  | cons node rest ih =>
      rw [List.cons_append, groupWhere_cons (noWhere node List.mem_cons_self),
        ih fun other member => noWhere other (List.mem_cons_of_mem _ member), List.cons_append]

theorem groupWhere_eq_self (noWhere : ∀ node ∈ nodes, node.isKeyword "WHERE" = false) :
    groupWhere nodes = nodes := by
  have all := groupWhere_append_of_forall noWhere []
  rwa [groupWhere_nil, List.append_nil] at all

end NothingToMerge

/-! ## Balanced leaves -/

/-- Behind any open brackets that leave room for so many more, the leaves become these nodes of the
innermost one. -/
def Nests (room : Nat) (leaves : List Leaf) (nodes : List Node) : Prop :=
  ∀ limit groups, groups.depth + room ≤ limit →
    leaves.foldlM (read? limit) groups =
      some { groups with inner := nodes.reverse ++ groups.inner }

section Nests
variable {room : Nat} {front back inside : List Leaf} {nodes more : List Node}

theorem Nests.nil : Nests room [] [] :=
  fun _ _ _ => rfl

theorem Nests.leaf {content : Leaf} (noOpening : content.opensBracket = false)
    (noClosing : content.closesBracket = false) : Nests room [content] [.leaf content] := by
  intro limit groups _
  simp [read?, noOpening, noClosing, push]

theorem Nests.append (first : Nests room front nodes) (second : Nests room back more) :
    Nests room (front ++ back) (nodes ++ more) := by
  intro limit groups enough
  rw [List.foldlM_append, first limit groups enough, List.reverse_append, List.append_assoc]
  exact second limit _ enough

theorem Nests.leaves {leaves : List Leaf}
    (plain : ∀ content ∈ leaves, content.opensBracket = false ∧ content.closesBracket = false) :
    Nests room leaves (leaves.map .leaf) := by
  induction leaves with
  | nil => exact Nests.nil
  | cons content rest ih =>
      obtain ⟨noOpening, noClosing⟩ := plain content List.mem_cons_self
      have behind := ih fun other member => plain other (List.mem_cons_of_mem _ member)
      exact (Nests.leaf noOpening noClosing).append behind

theorem Nests.brackets (within : Nests room inside nodes) :
    Nests (room + 1) (.punctuation "(" :: (inside ++ [.punctuation ")"]))
      [.group .parenthesis
        (.leaf (.punctuation "(") :: (nodes ++ [.leaf (.punctuation ")")]))] := by
  intro limit groups enough
  have deeper : groups.depth < limit := by omega
  have opened : read? limit groups (.punctuation "(") =
      some (groups.openBracket (.punctuation "(")) := by
    rw [read?, if_pos (by decide), if_pos deeper]
  have fits : (groups.openBracket (.punctuation "(")).depth + room ≤ limit := by
    simp only [openBracket, depth, List.length_cons] at enough ⊢
    omega
  rw [List.foldlM_cons, opened, Option.bind_eq_bind, Option.bind_some, List.foldlM_append,
    within limit _ fits]
  simp [read?, Leaf.opensBracket, Leaf.closesBracket, Leaf.isPunctuation, Leaf.punctuation,
    openBracket, push, close, depth]

theorem Nests.nestBrackets (balanced : Nests room front nodes) {limit : Nat}
    (within : room ≤ limit) :
    nestBrackets limit front = some nodes := by
  rw [SqlMetrics.nestBrackets, balanced limit {} (by simpa [depth] using within)]
  simp [closeAll]

end Nests

/-! ## The nodes of a level -/

/-- The leaves become these nodes of a level, of which the passes have not run yet. -/
def Level (room : Nat) (leaves : List Leaf) (nodes : List Node) : Prop :=
  ∃ nested, Nests room leaves nested ∧ groupInsideAll nested = nodes

def Members (room : Nat) (leaves : List Leaf) (nodes : List Node) : Prop :=
  ∃ level, Level room leaves level ∧ groupMembers level = nodes

def Terms (room : Nat) (leaves : List Leaf) (nodes : List Node) : Prop :=
  ∃ level, Level room leaves level ∧ groupTerms level = nodes

/-- Behind any terms, the leaves become these nodes of the same level. -/
def Clauses (room : Nat) (leaves : List Leaf) (nodes : List Node) : Prop :=
  ∀ front terms, Terms room front terms → Terms room (front ++ leaves) (terms ++ nodes)

section Pieces
variable {room : Nat} {content : Leaf} {front back inside source : List Leaf}
  {nodes more : List Node}

theorem groupInsideAll_leaves (leaves : List Leaf) :
    groupInsideAll (leaves.map .leaf) = leaves.map .leaf := by
  rw [groupInsideAll_eq_map, List.map_map]
  exact List.map_congr_left fun content _ => by simp [groupInside]

theorem Level.leaves
    (plain : ∀ content ∈ source, content.opensBracket = false ∧ content.closesBracket = false) :
    Level room source (source.map .leaf) :=
  ⟨_, Nests.leaves plain, groupInsideAll_leaves source⟩

theorem Level.append (first : Level room front nodes) (second : Level room back more) :
    Level room (front ++ back) (nodes ++ more) := by
  obtain ⟨nested, balanced, rfl⟩ := first
  obtain ⟨further, balancedToo, rfl⟩ := second
  refine ⟨nested ++ further, balanced.append balancedToo, ?_⟩
  simp only [groupInsideAll_eq_map, List.map_append]

theorem Level.leaf (noOpening : content.opensBracket = false)
    (noClosing : content.closesBracket = false) : Level room [content] [.leaf content] :=
  ⟨_, Nests.leaf noOpening noClosing, groupInsideAll_leaves [content]⟩

theorem Members.comma (first : Members room front nodes) (second : Members room back more) :
    Members room (front ++ .punctuation "," :: back)
      (nodes ++ .leaf (.punctuation ",") :: more) := by
  obtain ⟨level, made, rfl⟩ := first
  obtain ⟨further, madeToo, rfl⟩ := second
  have mark : Level room [.punctuation ","] [.leaf (.punctuation ",")] :=
    Level.leaf (by decide) (by decide)
  exact ⟨_, made.append (mark.append madeToo), groupMembers_append (by decide) _ _⟩

theorem Members.terms (members : Members room source nodes) :
    Terms room source (groupLists nodes) := by
  obtain ⟨level, made, rfl⟩ := members
  exact ⟨level, made, rfl⟩

theorem Members.alone {node : Node} (member : Members room source [node]) :
    Terms room source [node] := by
  have terms := member.terms
  rwa [groupLists_single] at terms

/-- A leaf that divides terms and is no bracket. -/
structure Leaf.Divides (content : Leaf) : Prop where
  terms : content.dividesTerms = true
  noOpening : content.opensBracket = false
  noClosing : content.closesBracket = false

theorem Leaf.Divides.ofKeyword (text : String)
    (members : (Leaf.keyword text).dividesMembers = true) : (Leaf.keyword text).Divides where
  terms := by rw [dividesTerms, members]; rfl
  noOpening := rfl
  noClosing := rfl

theorem Terms.nil : Terms room [] [] :=
  ⟨[], ⟨[], Nests.nil, groupInsideAll_leaves []⟩, groupTerms_nil⟩

theorem Terms.divide (divides : content.Divides) (first : Terms room front nodes)
    (second : Terms room back more) :
    Terms room (front ++ content :: back) (nodes ++ .leaf content :: more) := by
  obtain ⟨level, made, rfl⟩ := first
  obtain ⟨further, madeToo, rfl⟩ := second
  have mark : Level room [content] [.leaf content] :=
    Level.leaf divides.noOpening divides.noClosing
  exact ⟨_, made.append (mark.append madeToo), groupTerms_append divides.terms _ _⟩

theorem Clauses.nil : Clauses room [] [] := by
  intro front terms before
  rw [List.append_nil, List.append_nil]
  exact before

theorem Clauses.cons (divides : content.Divides) (body : Terms room front nodes)
    (behind : Clauses room back more) :
    Clauses room (content :: (front ++ back)) (.leaf content :: (nodes ++ more)) :=
  fun _ _ before => before.divide divides (behind front nodes body)

theorem Clauses.terms (all : Clauses room source nodes) : Terms room source nodes :=
  all [] [] Terms.nil

/-! ## Brackets and the `WHERE` clause -/

/-- Brackets around a level are a group of it, with all passes run in it. -/
theorem Level.brackets (within : Level room inside nodes) :
    Level (room + 1) (.punctuation "(" :: (inside ++ [.punctuation ")"]))
      [.group .parenthesis
        (.leaf (.punctuation "(") :: (groupLevel nodes ++ [.leaf (.punctuation ")")]))] := by
  obtain ⟨nested, balanced, rfl⟩ := within
  refine ⟨_, balanced.brackets, ?_⟩
  have bracketed := groupLevel_brackets (groupInsideAll nested) (Or.inr rfl)
  simp only [groupInsideAll_eq_map, List.map_cons, List.map_append, List.map_nil, groupInside,
    List.cons_append] at bracketed ⊢
  rw [bracketed]

/-- Brackets around terms without `WHERE` are a group of them. -/
theorem Terms.brackets (within : Terms room inside nodes)
    (noWhere : ∀ node ∈ nodes, node.isKeyword "WHERE" = false) :
    Level (room + 1) (.punctuation "(" :: (inside ++ [.punctuation ")"]))
      [.group .parenthesis
        (.leaf (.punctuation "(") :: (nodes ++ [.leaf (.punctuation ")")]))] := by
  obtain ⟨level, made, rfl⟩ := within
  have bracketed := made.brackets
  rwa [groupLevel_eq, groupWhere_eq_self noWhere] at bracketed

theorem groupTerms_parenthesis (children : List Node) :
    groupTerms [.group .parenthesis children] = [.group .parenthesis children] := by
  rw [groupTerms, groupMembers_single rfl, groupLists_single]

/-- The word `WHERE` takes all nodes up to one that ends its clause. -/
theorem groupWhere_clause (within : ∀ node ∈ nodes, closesWhere node = false)
    (ends : ∀ next ∈ more.head?, closesWhere next = true) :
    groupWhere (.leaf (.keyword "WHERE") :: (nodes ++ more)) =
      .group .whereClause (.leaf (.keyword "WHERE") :: nodes) :: groupWhere more := by
  have clause : (nodes ++ more).takeWhile (fun next => !closesWhere next) = nodes := by
    rw [List.takeWhile_append_of_pos (by simpa using within)]
    cases more with
    | nil => rw [List.takeWhile_nil, List.append_nil]
    | cons next rest =>
        rw [List.takeWhile_cons_of_neg (by simp [ends next rfl]), List.append_nil]
  rw [groupWhere, sweep_cons, whereRule, if_pos (by decide), clause]
  simp only [List.drop_left]

theorem Level.ofLeaves (all : Level room source nodes) (within : room ≤ nestingLimit) :
    Statement.ofLeaves source = .ok ⟨groupLevel nodes⟩ := by
  obtain ⟨nested, balanced, rfl⟩ := all
  rw [Statement.ofLeaves, balanced.nestBrackets within]
  rfl

/-- Terms within the nesting limit are the nodes of a statement, but for its `WHERE` clause. -/
theorem Terms.ofLeaves (all : Terms room source nodes) (within : room ≤ nestingLimit) :
    Statement.ofLeaves source = .ok ⟨groupWhere nodes⟩ := by
  obtain ⟨level, made, rfl⟩ := all
  exact made.ofLeaves within

end Pieces

end SqlMetrics
