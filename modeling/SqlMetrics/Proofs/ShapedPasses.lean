import SqlMetrics.Proofs.Barrier

/-! # The passes keep trees in shape

What a pass may rely on is said of the nodes of one level: `LevelNode` before names are merged,
`NamedNode` behind that, when no name is left outside an identifier.  Each rule turns such nodes
into such a node again; only the rule for `WHERE` may add a clause, and it is the last.  The result
for a whole level is `groupLevel_shaped`. -/
set_option autoImplicit false
namespace SqlMetrics

open Node

/-- A node in shape that is neither an opening bracket nor a `WHERE` clause. -/
structure LevelNode (node : Node) : Prop where
  shaped : node.Shaped
  noOpening : node.isPunctuation "(" = false
  noClause : node.isGroupOf .whereClause = false

/-- Such a node that is no bare name either. -/
structure NamedNode (node : Node) : Prop extends LevelNode node where
  noName : node.isLeafOf .name = false

theorem NamedNode.of_group {kind : GroupKind} {children : List Node}
    (shape : (Node.group kind children).HasShape) (below : ∀ child ∈ children, child.Shaped)
    (other : kind ≠ .whereClause) : NamedNode (.group kind children) where
  shaped := .group shape below
  noOpening := rfl
  noClause := by simp [isGroupOf, groupKind?, other]
  noName := rfl

theorem mem_of_begins {tail rest : List Node} (taken : tail <+: rest) {node : Node}
    (member : node ∈ tail) : node ∈ rest :=
  taken.sublist.subset member

/-! ## Calls and names -/

theorem callRule_step (node : Node) (rest : List Node) (level : LevelNode node)
    (behind : ∀ next ∈ rest, LevelNode next) : LevelNode (callRule node rest).1 := by
  fun_cases callRule node rest with
  | case1 node next further call =>
      simp only [Bool.and_eq_true] at call
      obtain ⟨content, rfl, name⟩ := isLeafOf_iff.mp call.1
      obtain ⟨arguments, rfl⟩ := isGroupOf_iff.mp call.2
      have callee : (Node.group .identifier [.leaf content]).Shaped := by
        refine .group ⟨_, [], rfl, Or.inl call.1, ?_⟩ ?_
        · intro part member
          cases member
        · intro child member
          rw [List.mem_singleton.mp member]
          exact shaped_leaf content
      have shape : (Node.group .function
          [.group .identifier [.leaf content], .group .parenthesis arguments]).HasShape :=
        ⟨content.text, arguments, by cases content; cases name; rfl⟩
      refine (NamedNode.of_group shape ?_ (by decide)).toLevelNode
      intro child member
      simp only [List.mem_cons, List.not_mem_nil, or_false] at member
      rcases member with rfl | rfl
      · exact callee
      · exact (behind _ List.mem_cons_self).shaped
  | case2 node next further other => exact level
  | case3 => exact level

theorem mem_dottedTail {rest : List Node} {part : Node} (member : part ∈ dottedTail rest) :
    part.isPunctuation "." ∨ part.isLeafOf .name ∨ part.isLeafOf .wildcard := by
  fun_induction dottedTail rest with
  | case1 => cases member
  | case2 dot isDot => exact Or.inl (List.mem_singleton.mp member ▸ isDot)
  | case3 => cases member
  | case4 dot next rest isDot isPart ih =>
      rcases List.mem_cons.mp member with rfl | member
      · exact Or.inl isDot
      · rcases List.mem_cons.mp member with rfl | member
        · exact Or.inr (by simpa using isPart)
        · exact ih member
  | case5 dot next rest isDot _ => exact Or.inl (List.mem_singleton.mp member ▸ isDot)
  | case6 => cases member

theorem nameRule_step (node : Node) (rest : List Node) (level : LevelNode node)
    (behind : ∀ next ∈ rest, LevelNode next) : NamedNode (nameRule node rest).1 := by
  unfold nameRule
  split
  case isTrue name =>
    refine NamedNode.of_group ⟨node, dottedTail rest, rfl, Or.inl name, ?_⟩ ?_ (by decide)
    · intro part member
      rcases mem_dottedTail member with dot | name | star
      · simp [IdentifierPart, dot]
      · simp [IdentifierPart, name]
      · simp [IdentifierPart, star]
    · intro child member
      rcases List.mem_cons.mp member with rfl | member
      · exact level.shaped
      · exact (behind child (mem_of_begins (dottedTail_begins rest) member)).shaped
  case isFalse other => exact ⟨level, Bool.eq_false_iff.mpr other⟩

/-! ## Extended identifiers -/

theorem extend_step {node : Node} {tail : List Node} (level : NamedNode node)
    (head : node.isGroupOf .identifier ∨ node.IdentifierHead)
    (parts : ∀ part ∈ tail, part.Shaped ∧ part.IdentifierPart) : NamedNode (extend node tail) := by
  cases tail with
  | nil => exact level
  | cons next behind =>
      have shape : IdentifierShape (identifierParts node ++ next :: behind) ∧
          ∀ child ∈ identifierParts node, child.Shaped := by
        rcases head with identifier | isHead
        · obtain ⟨children, rfl⟩ := isGroupOf_iff.mp identifier
          obtain ⟨shape, below⟩ := everywhere_group_iff.mp level.shaped
          obtain ⟨first, others, rfl, isFirst, isPart⟩ := shape
          refine ⟨⟨first, others ++ next :: behind, rfl, isFirst, ?_⟩, below⟩
          intro part member
          rcases List.mem_append.mp member with h | h
          · exact isPart part h
          · exact (parts part h).2
        · have alone : identifierParts node = [node] := by
            unfold identifierParts
            split
            · rcases isHead with h | h | h | h
              · simp [isLeafOf, leafKind?] at h
              · simp [isLeafOf, leafKind?] at h
              · simp [isGroupOf, groupKind?] at h
              · simp [isGroupOf, groupKind?] at h
            · rfl
          rw [alone]
          refine ⟨⟨node, next :: behind, rfl, isHead, fun part h => (parts part h).2⟩, ?_⟩
          intro child member
          rw [List.mem_singleton.mp member]
          exact level.shaped
      refine NamedNode.of_group shape.1 ?_ (by decide)
      intro child member
      rcases List.mem_append.mp member with h | h
      · exact shape.2 child h
      · exact (parts child h).1

theorem mem_castTail {rest : List Node} {part : Node} (member : part ∈ castTail rest) :
    part.isPunctuation "::" ∨ part.isGroupOf .identifier ∨ part.isGroupOf .function := by
  fun_induction castTail rest with
  | case1 => cases member
  | case2 cast isCast => exact Or.inl (List.mem_singleton.mp member ▸ isCast)
  | case3 => cases member
  | case4 cast type rest isCast isType ih =>
      rcases List.mem_cons.mp member with rfl | member
      · exact Or.inl isCast
      · rcases List.mem_cons.mp member with rfl | member
        · exact Or.inr (by simpa using isType)
        · exact ih member
  | case5 cast type rest isCast _ => exact Or.inl (List.mem_singleton.mp member ▸ isCast)
  | case6 => cases member

theorem identifierPart_of_mem_castTail {rest : List Node} {part : Node}
    (member : part ∈ castTail rest) : part.IdentifierPart := by
  rcases mem_castTail member with cast | identifier | call
  · simp [IdentifierPart, cast]
  · simp [IdentifierPart, identifier]
  · simp [IdentifierPart, call]

theorem identifierPart_of_mem_directionTail {rest : List Node} {part : Node}
    (member : part ∈ directionTail rest) : part.IdentifierPart := by
  have direction := (List.mem_filter.mp member).2
  simp only [isDirection, Bool.or_eq_true] at direction
  rcases direction with ascending | descending
  · simp [IdentifierPart, ascending]
  · simp [IdentifierPart, descending]

theorem castRule_step (node : Node) (rest : List Node) (level : NamedNode node)
    (behind : ∀ next ∈ rest, NamedNode next) : NamedNode (castRule node rest).1 := by
  unfold castRule
  split
  case isTrue castable =>
    have head : node.isGroupOf .identifier ∨ node.IdentifierHead := by
      simp only [isCastable, Bool.or_eq_true] at castable
      rcases castable with (identifier | call) | literal
      · exact Or.inl identifier
      · simp [IdentifierHead, call]
      · simp [IdentifierHead, literal]
    apply extend_step level head
    intro part member
    rcases List.mem_append.mp member with inCasts | inDirection
    · exact ⟨(behind part (mem_of_begins (castTail_begins rest) inCasts)).shaped,
        identifierPart_of_mem_castTail inCasts⟩
    · split at inDirection
      · have direction := identifierPart_of_mem_directionTail inDirection
        have inRest := List.mem_of_mem_drop
          (mem_of_begins (directionTail_begins _) inDirection)
        exact ⟨(behind part inRest).shaped, direction⟩
      · cases inDirection
  case isFalse => exact level

theorem mem_aliasTail {node part : Node} {rest : List Node}
    (member : part ∈ aliasTail node rest) : part.isKeyword "AS" ∨ part.isGroupOf .identifier := by
  fun_cases aliasTail node rest with
  | case1 => simp [aliasTail] at member
  | case2 next identifier =>
      simp only [aliasTail, identifier, if_true, List.mem_singleton] at member
      simp only [Bool.and_eq_true] at identifier
      exact Or.inr (member ▸ identifier.1)
  | case3 next other => simp [aliasTail, other] at member
  | case4 next further behind word identifier =>
      simp only [aliasTail, word, identifier, if_true, List.mem_cons, List.not_mem_nil,
        or_false] at member
      rcases member with rfl | rfl
      · exact Or.inl word
      · exact Or.inr identifier
  | case5 next further behind word other => simp [aliasTail, word, other] at member
  | case6 next further behind noWord identifier =>
      simp only [aliasTail, noWord, identifier, if_true, List.mem_singleton,
        Bool.false_eq_true, if_false] at member
      simp only [Bool.and_eq_true] at identifier
      exact Or.inr (member ▸ identifier.1)
  | case7 next further behind noWord other => simp [aliasTail, noWord, other] at member

theorem aliasRule_step (node : Node) (rest : List Node) (level : NamedNode node)
    (behind : ∀ next ∈ rest, NamedNode next) : NamedNode (aliasRule node rest).1 := by
  unfold aliasRule
  split
  case isTrue takes =>
    have head : node.isGroupOf .identifier ∨ node.IdentifierHead := by
      simp only [takesAlias, Bool.or_eq_true] at takes
      rcases takes with ((identifier | call) | bracketed) | literal
      · exact Or.inl identifier
      · simp [IdentifierHead, call]
      · simp [IdentifierHead, bracketed]
      · simp [IdentifierHead, literal]
    apply extend_step level head
    intro part member
    refine ⟨(behind part (mem_of_begins (aliasTail_begins node rest) member)).shaped, ?_⟩
    rcases mem_aliasTail member with word | identifier
    · simp [IdentifierPart, word]
    · simp [IdentifierPart, identifier]
  case isFalse => exact level

/-! ## Comparisons -/

theorem Node.Operand.of_isOperand {node : Node} (operand : isOperand node = true)
    (noName : node.isLeafOf .name = false) : node.Operand := by
  simp only [isOperand_eq, noName, Bool.or_false, Bool.or_eq_true, or_assoc] at operand
  exact operand

theorem comparisonRule_step (node : Node) (rest : List Node) (level : NamedNode node)
    (behind : ∀ next ∈ rest, NamedNode next) : NamedNode (comparisonRule node rest).1 := by
  fun_cases comparisonRule node rest with
  | case1 node operator right further compared =>
      simp only [Bool.and_eq_true] at compared
      obtain ⟨⟨isLeft, isOperator⟩, isRight⟩ := compared
      have operatorLevel := behind operator List.mem_cons_self
      have rightLevel := behind right (List.mem_cons_of_mem _ List.mem_cons_self)
      refine NamedNode.of_group ⟨node, operator, right, rfl, .of_isOperand isLeft level.noName,
        isOperator, .of_isOperand isRight rightLevel.noName⟩ ?_ (by decide)
      intro child member
      simp only [List.mem_cons, List.not_mem_nil, or_false] at member
      rcases member with rfl | rfl | rfl
      · exact level.shaped
      · exact operatorLevel.shaped
      · exact rightLevel.shaped
  | case2 => exact level
  | case3 => exact level

/-! ## Lists -/

theorem Node.Member.of_isListMember {node : Node} (listed : isListMember node = true)
    (noName : node.isLeafOf .name = false) : node.Member := by
  simp only [isListMember_eq, noName, Bool.or_false, Bool.or_eq_true, or_assoc] at listed
  exact listed

theorem members_cons_of_not_punctuation {node : Node} (rest : List Node)
    (other : node.isLeafOf .punctuation = false) :
    Node.members (node :: rest) = node :: Node.members rest := by
  simp only [isLeafOf, decide_eq_false_iff_not] at other
  simp [Node.members, other]

theorem members_cons_of_punctuation {node : Node} (rest : List Node)
    (mark : node.isLeafOf .punctuation = true) :
    Node.members (node :: rest) = Node.members rest := by
  simp only [isLeafOf, decide_eq_true_eq] at mark
  simp [Node.members, mark]

/-- The tail of a list: commas and members in turn, as many of these as of those. -/
structure ListTail (tail : List Node) : Prop where
  even : tail.length % 2 = 0
  commas : ∀ i item, tail[i]? = some item → (item.isPunctuation "," = true ↔ i % 2 = 0)
  members : ∀ i item, tail[i]? = some item → i % 2 = 1 → item.Member
  counted : (Node.members tail).length = tail.countP (·.isPunctuation ",")

theorem ListTail.nil : ListTail [] where
  even := rfl
  commas := by intro i item found; simp at found
  members := by intro i item found; simp at found
  counted := rfl

theorem ListTail.cons {comma member : Node} {tail : List Node} (mark : comma.isPunctuation ",")
    (isMember : member.Member) (alternates : ListTail tail) :
    ListTail (comma :: member :: tail) where
  even := by
    have even := alternates.even
    simp only [List.length_cons]
    omega
  commas := by
    intro i item found
    match i with
    | 0 => simpa [← Option.some.inj found] using mark
    | 1 =>
        have noComma := isPunctuation_of_isLeafOf "," isMember.not_punctuation
        simpa [← Option.some.inj found] using noComma
    | i + 2 =>
        rw [List.getElem?_cons_succ, List.getElem?_cons_succ] at found
        rw [alternates.commas i item found]
        omega
  members := by
    intro i item found odd
    match i with
    | 0 => exact absurd odd (by decide)
    | 1 => exact Option.some.inj found ▸ isMember
    | i + 2 =>
        rw [List.getElem?_cons_succ, List.getElem?_cons_succ] at found
        exact alternates.members i item found (by omega)
  counted := by
    have noComma := isPunctuation_of_isLeafOf "," isMember.not_punctuation
    rw [members_cons_of_punctuation _ (isLeafOf_of_isPunctuation mark),
      members_cons_of_not_punctuation _ isMember.not_punctuation, List.length_cons,
      alternates.counted, List.countP_cons_of_pos (by exact mark),
      List.countP_cons_of_neg (by simp [noComma])]

theorem listTail_alternates (rest : List Node) (behind : ∀ next ∈ rest, NamedNode next) :
    ListTail (listTail rest) := by
  fun_induction listTail rest with
  | case1 comma member rest separated ih =>
      simp only [Bool.and_eq_true] at separated
      have further : ∀ next ∈ rest, NamedNode next := fun next h =>
        behind next (List.mem_cons_of_mem _ (List.mem_cons_of_mem _ h))
      have named := behind member (List.mem_cons_of_mem _ List.mem_cons_self)
      exact .cons separated.1 (.of_isListMember separated.2 named.noName) (ih further)
  | case2 => exact .nil
  | case3 => exact .nil

theorem Node.ListShape.of_tail {head : Node} {tail : List Node} (isMember : head.Member)
    (alternates : ListTail tail) (filled : tail ≠ []) : ListShape (head :: tail) where
  odd := by
    have even := alternates.even
    simp only [List.length_cons]
    omega
  three := by
    have even := alternates.even
    have positive := List.length_pos_iff.mpr filled
    simp only [List.length_cons]
    omega
  commas := by
    intro i item found
    match i with
    | 0 =>
        have noComma := isPunctuation_of_isLeafOf "," isMember.not_punctuation
        simpa [← Option.some.inj found] using noComma
    | i + 1 =>
        rw [List.getElem?_cons_succ] at found
        rw [alternates.commas i item found]
        omega
  members := by
    intro i item found even
    match i with
    | 0 => exact Option.some.inj found ▸ isMember
    | i + 1 =>
        rw [List.getElem?_cons_succ] at found
        exact alternates.members i item found (by omega)
  counted := by
    have noComma := isPunctuation_of_isLeafOf "," isMember.not_punctuation
    rw [members_cons_of_not_punctuation _ isMember.not_punctuation, List.length_cons,
      alternates.counted, List.countP_cons_of_neg (by simp [noComma])]

theorem listRule_step (node : Node) (rest : List Node) (level : NamedNode node)
    (behind : ∀ next ∈ rest, NamedNode next) : NamedNode (listRule node rest).1 := by
  unfold listRule
  split
  case isTrue listed =>
    dsimp only
    split
    case isTrue => exact level
    case isFalse some =>
      have tail := listTail_alternates rest behind
      refine NamedNode.of_group (ListShape.of_tail (.of_isListMember listed level.noName) tail
        (by simpa using some)) ?_ (by decide)
      intro child member
      rcases List.mem_cons.mp member with rfl | member
      · exact level.shaped
      · exact (behind child (mem_of_begins (listTail_begins rest) member)).shaped
  case isFalse => exact level

/-! ## The `WHERE` clause and the whole level -/

/-- A node in shape that is neither an opening bracket nor a bare name. -/
structure GroupedNode (node : Node) : Prop where
  shaped : node.Shaped
  noOpening : node.isPunctuation "(" = false
  noName : node.isLeafOf .name = false

theorem whereRule_step (node : Node) (rest : List Node) (level : NamedNode node)
    (behind : ∀ next ∈ rest, NamedNode next) : GroupedNode (whereRule node rest).1 := by
  unfold whereRule
  split
  case isTrue word =>
    have taken : rest.takeWhile (fun next => !closesWhere next) <+: rest :=
      List.takeWhile_prefix _
    refine ⟨.group ⟨node, _, rfl, word, ?_⟩ ?_, rfl, rfl⟩
    · intro next member
      have named := behind next (mem_of_begins taken member)
      have stays : closesWhere next = false := by
        simpa using List.all_eq_true.mp List.all_takeWhile next member
      have noClosing : next.isPunctuation ")" = false := by
        simp only [closesWhere, Bool.or_eq_false_iff] at stays
        exact stays.1
      exact ⟨stays, ⟨named.noOpening, noClosing⟩, named.noName, named.noClause⟩
    · intro child member
      rcases List.mem_cons.mp member with rfl | member
      · exact level.shaped
      · exact (behind child (mem_of_begins taken member)).shaped
  case isFalse => exact ⟨level.shaped, level.noOpening, level.noName⟩

/-- All passes but the last keep such nodes, and leave no name outside an identifier. -/
theorem groupTerms_named (nodes : List Node) (level : ∀ node ∈ nodes, LevelNode node) :
    ∀ node ∈ groupTerms nodes, NamedNode node := by
  have calls := forall_mem_sweep callRule_step nodes level
  have names := forall_mem_sweep nameRule_step _ calls
  have casts := forall_mem_sweep castRule_step _ names
  have comparisons := forall_mem_sweep comparisonRule_step _ casts
  have aliases := forall_mem_sweep aliasRule_step _ comparisons
  exact forall_mem_sweep listRule_step _ aliases

theorem groupLevel_shaped (nodes : List Node) (level : ∀ node ∈ nodes, LevelNode node) :
    ∀ node ∈ groupLevel nodes, GroupedNode node :=
  forall_mem_sweep whereRule_step _ (groupTerms_named nodes level)

end SqlMetrics
