import SqlMetrics.Proofs.Tree

/-! # The grammar of the tree

`HasShape` says of a single group what its children are, kind by kind; a tree is in shape when
`HasShape` holds `Everywhere` in it.  The counters rely on nothing else.  From the shapes follows
where brackets stand (`bracketsInPlace_of_hasShape`): an opening bracket is the first child of a
bracketed group, and a closing one is the last. -/
set_option autoImplicit false
namespace SqlMetrics

namespace Leaf
variable {content : Leaf} {text other : String}

theorem kind_of_isKeyword (word : content.isKeyword text = true) : content.kind = .keyword := by
  simp only [isKeyword, Bool.and_eq_true, decide_eq_true_eq] at word
  exact word.1

/-- A keyword with one text has no other one, but for the case of its letters. -/
theorem isKeyword_apart (word : content.isKeyword text = true)
    (different : sameLetters text other = false) : content.isKeyword other = false := by
  simp only [isKeyword, Bool.and_eq_true, sameLetters, decide_eq_true_eq] at word
  simp only [sameLetters, decide_eq_false_iff_not] at different
  simp [isKeyword, sameLetters, word.2, different]

end Leaf

namespace Node

/-- What stands on either side of the operator of a comparison. -/
def Operand (node : Node) : Prop :=
  node.isGroupOf .identifier ∨ node.isGroupOf .function ∨ node.isGroupOf .parenthesis ∨
    node.isLeafOf .literal ∨ node.isKeyword "NULL" ∨ node.isKeyword "TRUE" ∨ node.isKeyword "FALSE"

/-- What stands between the commas of a list. -/
def Member (node : Node) : Prop :=
  node.isGroupOf .identifier ∨ node.isGroupOf .function ∨ node.isGroupOf .parenthesis ∨
    node.isGroupOf .comparison ∨ node.isLeafOf .literal ∨ node.isLeafOf .wildcard ∨
    node.isKeyword "NULL"

/-- What an identifier begins with. -/
def IdentifierHead (node : Node) : Prop :=
  node.isLeafOf .name ∨ node.isLeafOf .literal ∨ node.isGroupOf .function ∨
    node.isGroupOf .parenthesis

/-- What an identifier goes on with: dotted names, casts, a direction, an alias. -/
def IdentifierPart (node : Node) : Prop :=
  node.isPunctuation "." ∨ node.isPunctuation "::" ∨ node.isLeafOf .name ∨
    node.isLeafOf .wildcard ∨ node.isGroupOf .identifier ∨ node.isGroupOf .function ∨
    node.isKeyword "AS" ∨ node.isKeyword "ASC" ∨ node.isKeyword "DESC"

def NoBracket (node : Node) : Prop :=
  node.isPunctuation "(" = false ∧ node.isPunctuation ")" = false

def IdentifierShape (children : List Node) : Prop :=
  ∃ head tail, children = head :: tail ∧ head.IdentifierHead ∧ ∀ part ∈ tail, part.IdentifierPart

/-- The children of a call: an identifier of a single name and its bracketed arguments. -/
def FunctionShape (children : List Node) : Prop :=
  ∃ name arguments,
    children = [.group .identifier [.leaf (.name name)], .group .parenthesis arguments]

def ComparisonShape (children : List Node) : Prop :=
  ∃ left operator right, children = [left, operator, right] ∧
    left.Operand ∧ operator.isLeafOf .comparison ∧ right.Operand

/-- The children of a list: members at the even positions, commas at the odd ones. -/
structure ListShape (items : List Node) : Prop where
  odd : items.length % 2 = 1
  three : 3 ≤ items.length
  commas : ∀ i item, items[i]? = some item → (item.isPunctuation "," = true ↔ i % 2 = 1)
  members : ∀ i item, items[i]? = some item → i % 2 = 0 → item.Member
  counted : (Node.members items).length = items.countP (·.isPunctuation ",") + 1

/-- The children of a bracketed group.  The closing bracket is missing where the text ended before
it. -/
def ParenthesisShape (children : List Node) : Prop :=
  ∃ inside closing, children = .leaf (.punctuation "(") :: inside ++ closing ∧
    (closing = [] ∨ closing = [.leaf (.punctuation ")")]) ∧
    ∀ node ∈ inside, node.NoBracket ∧ node.isLeafOf .name = false

def WhereShape (children : List Node) : Prop :=
  ∃ word clause, children = word :: clause ∧ word.isKeyword "WHERE" ∧
    ∀ node ∈ clause, closesWhere node = false ∧ node.NoBracket ∧ node.isLeafOf .name = false ∧
      node.isGroupOf .whereClause = false

/-- The node, if it is a group, has the children that its kind asks for. -/
def HasShape : Node → Prop
  | .leaf _ => True
  | .group .identifier children => IdentifierShape children
  | .group .identifierList children => ListShape children
  | .group .parenthesis children => ParenthesisShape children
  | .group .function children => FunctionShape children
  | .group .comparison children => ComparisonShape children
  | .group .whereClause children => WhereShape children
  | .group .statement _ => False

/-- Every node of the tree is in shape. -/
abbrev Shaped (node : Node) : Prop :=
  node.Everywhere HasShape

/-- Among the children of a group, an opening bracket is the first child of a bracketed group and
a closing bracket the last one. -/
def BracketsInPlace : Node → Prop
  | .leaf _ => True
  | .group kind children =>
      (∀ i, children[i]? = some (.leaf (.punctuation "(")) → kind = .parenthesis ∧ i = 0) ∧
        ∀ i, children[i]? = some (.leaf (.punctuation ")")) →
          kind = .parenthesis ∧ i + 1 = children.length

/-! ## Leaves told apart -/

theorem shaped_leaf (content : Leaf) : (Node.leaf content).Shaped :=
  .leaf trivial

theorem isLeafOf_iff {node : Node} {kind : LeafKind} :
    node.isLeafOf kind = true ↔ ∃ content, node = .leaf content ∧ content.kind = kind := by
  cases node <;> simp [isLeafOf, leafKind?]

theorem isGroupOf_iff {node : Node} {kind : GroupKind} :
    node.isGroupOf kind = true ↔ ∃ children, node = .group kind children := by
  cases node <;> simp [isGroupOf, groupKind?]

theorem isPunctuation_iff {node : Node} {text : String} :
    node.isPunctuation text = true ↔ node = .leaf (.punctuation text) := by
  rcases node with ⟨kind, shown⟩ | _ <;>
    simp [isPunctuation, Leaf.isPunctuation, Leaf.punctuation]

theorem isLeafOf_of_isPunctuation {node : Node} {text : String}
    (mark : node.isPunctuation text = true) : node.isLeafOf .punctuation = true := by
  rw [isPunctuation_iff] at mark
  rw [mark]
  rfl

theorem isLeafOf_of_isKeyword {node : Node} {text : String} (word : node.isKeyword text = true) :
    node.isLeafOf .keyword = true := by
  cases node with
  | leaf content => simp [isLeafOf, leafKind?, Leaf.kind_of_isKeyword word]
  | group kind children => simp [isKeyword] at word

theorem isOperand_eq (node : Node) :
    isOperand node = (node.isGroupOf .identifier || node.isGroupOf .function ||
      node.isGroupOf .parenthesis || node.isLeafOf .name || node.isLeafOf .literal ||
      node.isKeyword "NULL" || node.isKeyword "TRUE" || node.isKeyword "FALSE") := by
  cases node with
  | leaf content =>
      simp [isOperand, isGroupOf, groupKind?, isLeafOf, leafKind?, isKeyword, Bool.or_assoc]
  | group kind children => simp [isOperand, isGroupOf, groupKind?, isLeafOf, leafKind?, isKeyword]

theorem isListMember_eq (node : Node) :
    isListMember node = (node.isGroupOf .identifier || node.isGroupOf .function ||
      node.isGroupOf .parenthesis || node.isGroupOf .comparison || node.isLeafOf .name ||
      node.isLeafOf .literal || node.isLeafOf .wildcard || node.isKeyword "NULL") := by
  cases node with
  | leaf content =>
      simp [isListMember, isGroupOf, groupKind?, isLeafOf, leafKind?, isKeyword, Bool.or_assoc]
  | group kind children =>
      simp [isListMember, isGroupOf, groupKind?, isLeafOf, leafKind?, isKeyword]

theorem isLeafOf_unique {node : Node} {first second : LeafKind} (one : node.isLeafOf first = true)
    (different : first ≠ second) : node.isLeafOf second = false := by
  obtain ⟨content, rfl, kind⟩ := isLeafOf_iff.mp one
  simp [isLeafOf, leafKind?, kind, different]

theorem isLeafOf_of_isGroupOf {node : Node} {kind : GroupKind} {other : LeafKind}
    (group : node.isGroupOf kind = true) : node.isLeafOf other = false := by
  obtain ⟨children, rfl⟩ := isGroupOf_iff.mp group
  rfl

theorem isPunctuation_of_isLeafOf {node : Node} (text : String)
    (other : node.isLeafOf .punctuation = false) : node.isPunctuation text = false := by
  cases mark : node.isPunctuation text with
  | false => rfl
  | true => exact absurd (isLeafOf_of_isPunctuation mark) (by simp [other])

theorem isKeyword_of_isLeafOf {node : Node} {text : String}
    (other : node.isLeafOf .keyword = false) : node.isKeyword text = false := by
  cases word : node.isKeyword text with
  | false => rfl
  | true => exact absurd (isLeafOf_of_isKeyword word) (by simp [other])

theorem isKeyword_other {node : Node} {text other : String} (word : node.isKeyword text = true)
    (different : sameLetters text other = false) : node.isKeyword other = false := by
  cases node with
  | leaf content => exact Leaf.isKeyword_apart word different
  | group kind children => rfl

theorem Operand.not_punctuation {node : Node} (operand : node.Operand) :
    node.isLeafOf .punctuation = false := by
  rcases operand with h | h | h | h | h | h | h
  · exact isLeafOf_of_isGroupOf h
  · exact isLeafOf_of_isGroupOf h
  · exact isLeafOf_of_isGroupOf h
  · exact isLeafOf_unique h (by decide)
  · exact isLeafOf_unique (isLeafOf_of_isKeyword h) (by decide)
  · exact isLeafOf_unique (isLeafOf_of_isKeyword h) (by decide)
  · exact isLeafOf_unique (isLeafOf_of_isKeyword h) (by decide)

theorem Member.not_punctuation {node : Node} (member : node.Member) :
    node.isLeafOf .punctuation = false := by
  rcases member with h | h | h | h | h | h | h
  · exact isLeafOf_of_isGroupOf h
  · exact isLeafOf_of_isGroupOf h
  · exact isLeafOf_of_isGroupOf h
  · exact isLeafOf_of_isGroupOf h
  · exact isLeafOf_unique h (by decide)
  · exact isLeafOf_unique h (by decide)
  · exact isLeafOf_unique (isLeafOf_of_isKeyword h) (by decide)

theorem ListShape.comma_or_member {items : List Node} (shape : ListShape items) {item : Node}
    (inList : item ∈ items) : item.isPunctuation "," = true ∨ item.Member := by
  obtain ⟨i, found⟩ := List.mem_iff_getElem?.mp inList
  by_cases parity : i % 2 = 1
  · exact Or.inl ((shape.commas i item found).mpr parity)
  · exact Or.inr (shape.members i item found (by omega))

theorem noBracket_of_not_punctuation {node : Node} (other : node.isLeafOf .punctuation = false) :
    node.NoBracket :=
  ⟨isPunctuation_of_isLeafOf "(" other, isPunctuation_of_isLeafOf ")" other⟩

theorem IdentifierHead.noBracket {node : Node} (head : node.IdentifierHead) : node.NoBracket := by
  apply noBracket_of_not_punctuation
  rcases head with h | h | h | h
  · exact isLeafOf_unique h (by decide)
  · exact isLeafOf_unique h (by decide)
  · exact isLeafOf_of_isGroupOf h
  · exact isLeafOf_of_isGroupOf h

theorem IdentifierPart.noBracket {node : Node} (part : node.IdentifierPart) : node.NoBracket := by
  rcases part with h | h | h | h | h | h | h | h | h
  · rw [isPunctuation_iff] at h
    subst h
    exact ⟨by decide, by decide⟩
  · rw [isPunctuation_iff] at h
    subst h
    exact ⟨by decide, by decide⟩
  · exact noBracket_of_not_punctuation (isLeafOf_unique h (by decide))
  · exact noBracket_of_not_punctuation (isLeafOf_unique h (by decide))
  · exact noBracket_of_not_punctuation (isLeafOf_of_isGroupOf h)
  · exact noBracket_of_not_punctuation (isLeafOf_of_isGroupOf h)
  · exact noBracket_of_not_punctuation (isLeafOf_unique (isLeafOf_of_isKeyword h) (by decide))
  · exact noBracket_of_not_punctuation (isLeafOf_unique (isLeafOf_of_isKeyword h) (by decide))
  · exact noBracket_of_not_punctuation (isLeafOf_unique (isLeafOf_of_isKeyword h) (by decide))

/-! ## Brackets in place -/

theorem bracketsInPlace_of_noBracket {kind : GroupKind} {children : List Node}
    (noBracket : ∀ node ∈ children, node.NoBracket) :
    (Node.group kind children).BracketsInPlace := by
  constructor
  · intro i found
    exact absurd (noBracket _ (List.mem_of_getElem? found)).1 (by decide)
  · intro i found
    exact absurd (noBracket _ (List.mem_of_getElem? found)).2 (by decide)

theorem ParenthesisShape.bracketsInPlace {children : List Node}
    (shape : ParenthesisShape children) :
    (Node.group .parenthesis children).BracketsInPlace := by
  obtain ⟨inside, closing, rfl, ending, clear⟩ := shape
  have noOpening : ∀ node ∈ inside ++ closing, node ≠ .leaf (.punctuation "(") := by
    intro node member same
    rcases List.mem_append.mp member with h | h
    · exact absurd (clear node h).1.1 (by rw [same]; decide)
    · rcases ending with rfl | rfl
      · cases h
      · rw [List.mem_singleton.mp h] at same
        exact absurd same (by simp [Leaf.punctuation])
  refine ⟨fun i found => ⟨rfl, ?_⟩, fun i found => ⟨rfl, ?_⟩⟩
  · cases i with
    | zero => rfl
    | succ i =>
        rw [List.cons_append, List.getElem?_cons_succ] at found
        exact absurd rfl (noOpening _ (List.mem_of_getElem? found))
  · cases i with
    | zero => exact absurd found (by simp [Leaf.punctuation])
    | succ i =>
        rw [List.cons_append, List.getElem?_cons_succ] at found
        by_cases early : i < inside.length
        · rw [List.getElem?_append_left early] at found
          exact absurd (clear _ (List.mem_of_getElem? found)).1.2 (by decide)
        · rw [List.getElem?_append_right (Nat.le_of_not_lt early)] at found
          obtain ⟨short, -⟩ := List.getElem?_eq_some_iff.mp found
          rcases ending with rfl | rfl
          · exact absurd short (Nat.not_lt_zero _)
          · simp only [List.length_singleton] at short
            simp only [List.cons_append, List.length_cons, List.length_append, List.length_nil]
            omega

theorem bracketsInPlace_of_hasShape {node : Node} (shape : node.HasShape) :
    node.BracketsInPlace := by
  rcases node with content | ⟨kind, children⟩
  · trivial
  · cases kind with
    | identifier =>
        obtain ⟨head, tail, rfl, isHead, parts⟩ := shape
        apply bracketsInPlace_of_noBracket
        intro node member
        rcases List.mem_cons.mp member with rfl | inTail
        · exact isHead.noBracket
        · exact (parts node inTail).noBracket
    | identifierList =>
        apply bracketsInPlace_of_noBracket
        intro node member
        rcases ListShape.comma_or_member shape member with comma | inList
        · rw [isPunctuation_iff.mp comma]
          exact ⟨by decide, by decide⟩
        · exact noBracket_of_not_punctuation inList.not_punctuation
    | parenthesis => exact ParenthesisShape.bracketsInPlace shape
    | function =>
        obtain ⟨name, arguments, rfl⟩ := shape
        apply bracketsInPlace_of_noBracket
        intro node member
        simp only [List.mem_cons, List.not_mem_nil, or_false] at member
        rcases member with rfl | rfl
        · exact ⟨rfl, rfl⟩
        · exact ⟨rfl, rfl⟩
    | comparison =>
        obtain ⟨left, operator, right, rfl, isLeft, isOperator, isRight⟩ := shape
        apply bracketsInPlace_of_noBracket
        intro node member
        simp only [List.mem_cons, List.not_mem_nil, or_false] at member
        rcases member with rfl | rfl | rfl
        · exact noBracket_of_not_punctuation isLeft.not_punctuation
        · exact noBracket_of_not_punctuation (isLeafOf_unique isOperator (by decide))
        · exact noBracket_of_not_punctuation isRight.not_punctuation
    | whereClause =>
        obtain ⟨word, clause, rfl, isWhere, clear⟩ := shape
        apply bracketsInPlace_of_noBracket
        intro node member
        rcases List.mem_cons.mp member with rfl | inClause
        · exact noBracket_of_not_punctuation
            (isLeafOf_unique (isLeafOf_of_isKeyword isWhere) (by decide))
        · exact (clear node inClause).2.1
    | statement => exact absurd shape id

end Node
end SqlMetrics
