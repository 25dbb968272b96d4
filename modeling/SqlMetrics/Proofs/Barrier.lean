import SqlMetrics.Proofs.Shape
import SqlMetrics.Proofs.Leaves

/-! # What the passes never reach over

A node that a rule neither begins with nor takes is a barrier for its sweep.  For each rule the
kinds of such nodes are told, and from these follows which leaves cut the work of several passes in
two: `dividesMembers` for the passes up to aliases, `dividesTerms` for those up to lists, and the
ends of a `WHERE` clause for all seven. -/
set_option autoImplicit false
namespace SqlMetrics

open Node

section Rules
variable {node : Node}

/-! ## Tails stop there -/

theorem dottedTail_append (noDot : node.isPunctuation "." = false)
    (noName : node.isLeafOf .name = false) (noStar : node.isLeafOf .wildcard = false)
    (inside behind : List Node) : dottedTail (inside ++ node :: behind) = dottedTail inside := by
  fun_induction dottedTail inside with
  | case1 => cases behind <;> simp [dottedTail, noDot]
  | case2 dot isDot => simp [dottedTail, isDot, noName, noStar]
  | case3 dot noMark => simp [dottedTail, noMark]
  | case4 dot part rest isDot isPart ih => simp [dottedTail, isDot, isPart, ih]
  | case5 dot part rest isDot noPart => simp [dottedTail, isDot, noPart]
  | case6 dot part rest noMark => simp [dottedTail, noMark]

theorem castTail_append (noCast : node.isPunctuation "::" = false)
    (noIdentifier : node.isGroupOf .identifier = false)
    (noFunction : node.isGroupOf .function = false) (inside behind : List Node) :
    castTail (inside ++ node :: behind) = castTail inside := by
  fun_induction castTail inside with
  | case1 => cases behind <;> simp [castTail, noCast]
  | case2 cast isCast => simp [castTail, isCast, noIdentifier, noFunction]
  | case3 cast noMark => simp [castTail, noMark]
  | case4 cast type rest isCast isType ih => simp [castTail, isCast, isType, ih]
  | case5 cast type rest isCast noType => simp [castTail, isCast, noType]
  | case6 cast type rest noMark => simp [castTail, noMark]

theorem directionTail_append (noDirection : isDirection node = false) (inside behind : List Node) :
    directionTail (inside ++ node :: behind) = directionTail inside := by
  cases inside with
  | nil => simp [directionTail, noDirection]
  | cons next rest => rfl

theorem isGroupOf_of_isKeyword {next : Node} {text : String} {kind : GroupKind}
    (word : next.isKeyword text = true) : next.isGroupOf kind = false := by
  obtain ⟨content, rfl, -⟩ := isLeafOf_iff.mp (isLeafOf_of_isKeyword word)
  rfl

theorem aliasTail_append (noWord : node.isKeyword "AS" = false)
    (noIdentifier : node.isGroupOf .identifier = false) (first : Node) (inside behind : List Node) :
    aliasTail first (inside ++ node :: behind) = aliasTail first inside := by
  match inside with
  | [] => cases behind <;> simp [aliasTail, noWord, noIdentifier]
  | [next] =>
      cases word : next.isKeyword "AS" with
      | true => simp [aliasTail, word, noIdentifier, isGroupOf_of_isKeyword word]
      | false => simp [aliasTail, word]
  | next :: further :: rest => rfl

theorem listTail_append (noComma : node.isPunctuation "," = false)
    (noMember : isListMember node = false) (inside behind : List Node) :
    listTail (inside ++ node :: behind) = listTail inside := by
  fun_induction listTail inside with
  | case1 comma member rest separated ih => simp [listTail, separated, ih]
  | case2 comma member rest other => simp [listTail, other]
  | case3 inside short =>
      match inside with
      | [] => cases behind <;> simp [listTail, noComma]
      | [comma] => simp [listTail, noMember]
      | comma :: member :: rest => exact absurd rfl (short comma member rest)

/-! ## Barriers of each rule -/

theorem callRule_barrier (noName : node.isLeafOf .name = false)
    (noBrackets : node.isGroupOf .parenthesis = false) : Barrier callRule node where
  kept rest := by cases rest <;> simp [callRule, noName]
  shields first inside behind := by cases inside <;> simp [callRule, noBrackets]
  bounded first inside := by fun_cases callRule first inside <;> simp

theorem nameRule_barrier (noDot : node.isPunctuation "." = false)
    (noName : node.isLeafOf .name = false) (noStar : node.isLeafOf .wildcard = false) :
    Barrier nameRule node where
  kept rest := by simp [nameRule, noName]
  shields first inside behind := by
    simp only [nameRule, dottedTail_append noDot noName noStar]
  bounded first inside := by
    unfold nameRule
    split
    · exact (dottedTail_begins inside).length_le
    · exact Nat.zero_le _

theorem castRule_barrier (noCast : node.isPunctuation "::" = false)
    (notCastable : isCastable node = false) (noDirection : isDirection node = false) :
    Barrier castRule node where
  kept rest := by simp [castRule, notCastable]
  shields first inside behind := by
    simp only [isCastable, Bool.or_eq_false_iff] at notCastable
    obtain ⟨⟨noIdentifier, noFunction⟩, -⟩ := notCastable
    have casts := castTail_append noCast noIdentifier noFunction inside behind
    have within := (castTail_begins inside).length_le
    simp only [castRule, casts, List.drop_append_of_le_length within,
      directionTail_append noDirection]
  bounded first inside := by
    have casts := (castTail_begins inside).length_le
    have both := (casts_direction_begin inside).length_le
    rw [List.length_append] at both
    unfold castRule
    split
    · dsimp only
      split
      · exact both
      · simpa using casts
    · exact Nat.zero_le _

theorem comparisonRule_barrier (noOperator : node.isLeafOf .comparison = false)
    (noOperand : isOperand node = false) : Barrier comparisonRule node where
  kept rest := by
    match rest with
    | [] => rfl
    | [_] => rfl
    | operator :: right :: _ => simp [comparisonRule, noOperand]
  shields first inside behind := by
    match inside with
    | [] => cases behind <;> simp [comparisonRule, noOperator]
    | [operator] => simp [comparisonRule, noOperand]
    | operator :: right :: _ => rfl
  bounded first inside := by
    fun_cases comparisonRule first inside <;> simp

theorem aliasRule_barrier (noWord : node.isKeyword "AS" = false)
    (noHead : takesAlias node = false) : Barrier aliasRule node where
  kept rest := by simp [aliasRule, noHead]
  shields first inside behind := by
    have noIdentifier : node.isGroupOf .identifier = false := by
      simp only [takesAlias, Bool.or_eq_false_iff] at noHead
      exact noHead.1.1.1
    simp only [aliasRule, aliasTail_append noWord noIdentifier]
  bounded first inside := by
    unfold aliasRule
    split
    · exact (aliasTail_begins first inside).length_le
    · exact Nat.zero_le _

theorem listRule_barrier (noComma : node.isPunctuation "," = false)
    (noMember : isListMember node = false) : Barrier listRule node where
  kept rest := by simp [listRule, noMember]
  shields first inside behind := by
    simp only [listRule, listTail_append noComma noMember]
  bounded first inside := by
    unfold listRule
    split
    · dsimp only
      split
      · exact Nat.zero_le _
      · exact (listTail_begins inside).length_le
    · exact Nat.zero_le _

/-- What ends a `WHERE` clause is none of the other keywords. -/
theorem isKeyword_of_closesWhere {text : String} (closes : closesWhere node = true)
    (other : ∀ terminator ∈ whereTerminators, sameLetters terminator text = false) :
    node.isKeyword text = false := by
  simp only [closesWhere, Bool.or_eq_true, List.any_eq_true] at closes
  rcases closes with mark | ⟨terminator, ends, word⟩
  · exact isKeyword_of_isLeafOf (isLeafOf_unique (isLeafOf_of_isPunctuation mark) (by decide))
  · exact isKeyword_other word (other terminator ends)

theorem isKeyword_where_of_closesWhere (closes : closesWhere node = true) :
    node.isKeyword "WHERE" = false :=
  isKeyword_of_closesWhere closes (by decide)

theorem whereRule_barrier (closes : closesWhere node = true) : Barrier whereRule node where
  kept rest := by simp [whereRule, isKeyword_where_of_closesWhere closes]
  shields first inside behind := by
    have stops : (inside ++ node :: behind).takeWhile (fun next => !closesWhere next) =
        inside.takeWhile fun next => !closesWhere next := by
      rw [List.takeWhile_append]
      split
      case isTrue all =>
        rw [List.takeWhile_cons_of_neg (by simp [closes]), List.append_nil]
        exact (List.takeWhile_prefix _).sublist.eq_of_length all |>.symm
      case isFalse => rfl
    simp only [whereRule, stops]
  bounded first inside := by
    unfold whereRule
    split
    · exact (List.takeWhile_prefix _).length_le
    · exact Nat.zero_le _

theorem drop_whereRule (starts : node.isKeyword "WHERE") (rest : List Node) :
    rest.drop (whereRule node rest).2 = rest.dropWhile fun next => !closesWhere next := by
  let clause := rest.takeWhile fun next => !closesWhere next
  let behind := rest.dropWhile fun next => !closesWhere next
  have whole : rest = clause ++ behind := List.takeWhile_append_dropWhile.symm
  have size : (whereRule node rest).2 = clause.length := by rw [whereRule, if_pos starts]
  calc rest.drop (whereRule node rest).2 = (clause ++ behind).drop clause.length := by
        rw [size, ← whole]
    _ = behind := List.drop_left

end Rules

/-! ## Leaves that divide a level -/

/-- The passes that build the members of lists. -/
def groupMembers (nodes : List Node) : List Node :=
  groupAliases (groupComparisons (groupCasts (groupNames (groupCalls nodes))))

/-- All passes on one level but that for `WHERE`. -/
def groupTerms (nodes : List Node) : List Node :=
  groupLists (groupMembers nodes)

theorem groupLevel_eq (nodes : List Node) : groupLevel nodes = groupWhere (groupTerms nodes) :=
  rfl

@[simp] theorem groupMembers_nil : groupMembers [] = [] := by
  simp [groupMembers, groupAliases, groupComparisons, groupCasts, groupNames, groupCalls]

@[simp] theorem groupTerms_nil : groupTerms [] = [] := by
  simp [groupTerms, groupLists]

@[simp] theorem groupWhere_nil : groupWhere [] = [] := by
  rw [groupWhere, sweep_nil]

/-- No member of a list reaches over such a leaf. -/
def Leaf.dividesMembers (content : Leaf) : Bool :=
  match content.kind with
  | .keyword => !(["AS", "ASC", "DESC", "NULL", "TRUE", "FALSE"].any content.isKeyword)
  | .punctuation => content.text != "." && content.text != "::"
  | .verb | .operator => true
  | .name | .literal | .wildcard | .comparison => false

/-- No list reaches over such a leaf either. -/
def Leaf.dividesTerms (content : Leaf) : Bool :=
  content.dividesMembers && !content.isPunctuation ","

section Divides
variable {content : Leaf}

theorem kind_of_dividesMembers (divides : content.dividesMembers = true) :
    content.kind ≠ .name ∧ content.kind ≠ .literal ∧ content.kind ≠ .wildcard ∧
      content.kind ≠ .comparison := by
  refine ⟨?_, ?_, ?_, ?_⟩ <;>
    (intro kind; simp [Leaf.dividesMembers, kind] at divides)

theorem isPunctuation_of_dividesMembers (divides : content.dividesMembers = true) :
    content.isPunctuation "." = false ∧ content.isPunctuation "::" = false := by
  obtain ⟨kind, text⟩ := content
  cases kind with
  | punctuation => simpa [Leaf.dividesMembers, Leaf.isPunctuation] using divides
  | _ => exact ⟨rfl, rfl⟩

theorem isKeyword_of_dividesMembers (divides : content.dividesMembers = true) :
    content.isKeyword "AS" = false ∧ content.isKeyword "ASC" = false ∧
      content.isKeyword "DESC" = false ∧ content.isKeyword "NULL" = false ∧
      content.isKeyword "TRUE" = false ∧ content.isKeyword "FALSE" = false := by
  obtain ⟨kind, text⟩ := content
  cases kind with
  | keyword => simpa [Leaf.dividesMembers, and_assoc] using divides
  | _ => exact ⟨rfl, rfl, rfl, rfl, rfl, rfl⟩

theorem groupMembers_append (divides : content.dividesMembers = true) (inside behind : List Node) :
    groupMembers (inside ++ .leaf content :: behind) =
      groupMembers inside ++ .leaf content :: groupMembers behind := by
  obtain ⟨noName, noLiteral, noStar, noOperator⟩ := kind_of_dividesMembers divides
  obtain ⟨noDot, noCast⟩ := isPunctuation_of_dividesMembers divides
  obtain ⟨noWord, noAscending, noDescending, noNull, noTrue, noFalse⟩ :=
    isKeyword_of_dividesMembers divides
  have calls : Barrier callRule (.leaf content) :=
    callRule_barrier (by simp [isLeafOf, leafKind?, noName]) rfl
  have names : Barrier nameRule (.leaf content) :=
    nameRule_barrier noDot (by simp [isLeafOf, leafKind?, noName])
      (by simp [isLeafOf, leafKind?, noStar])
  have casts : Barrier castRule (.leaf content) :=
    castRule_barrier noCast (by simp [isCastable, isGroupOf, groupKind?, isLeafOf, leafKind?,
      noLiteral]) (by simp [isDirection, isKeyword, noAscending, noDescending])
  have comparisons : Barrier comparisonRule (.leaf content) :=
    comparisonRule_barrier (by simp [isLeafOf, leafKind?, noOperator])
      (by simp [isOperand, noName, noLiteral, noNull, noTrue, noFalse])
  have aliases : Barrier aliasRule (.leaf content) :=
    aliasRule_barrier noWord (by simp [takesAlias, isGroupOf, groupKind?, isLeafOf, leafKind?,
      noLiteral])
  unfold groupMembers groupAliases groupComparisons groupCasts groupNames groupCalls
  rw [sweep_append_barrier calls, sweep_append_barrier names, sweep_append_barrier casts,
    sweep_append_barrier comparisons, sweep_append_barrier aliases]

/-- Lists on both sides of a dividing leaf are built apart. -/
theorem groupTerms_append (divides : content.dividesTerms = true) (inside behind : List Node) :
    groupTerms (inside ++ .leaf content :: behind) =
      groupTerms inside ++ .leaf content :: groupTerms behind := by
  simp only [Leaf.dividesTerms, Bool.and_eq_true, Bool.not_eq_true'] at divides
  obtain ⟨noName, noLiteral, noStar, -⟩ := kind_of_dividesMembers divides.1
  obtain ⟨-, -, -, noNull, -⟩ := isKeyword_of_dividesMembers divides.1
  have lists : Barrier listRule (.leaf content) :=
    listRule_barrier divides.2 (by simp [isListMember, noName, noLiteral, noStar, noNull])
  unfold groupTerms groupLists
  rw [groupMembers_append divides.1, sweep_append_barrier lists]

theorem groupTerms_cons (divides : content.dividesTerms = true) (behind : List Node) :
    groupTerms (.leaf content :: behind) = .leaf content :: groupTerms behind := by
  have apart := groupTerms_append divides [] behind
  rwa [groupTerms_nil, List.nil_append, List.nil_append] at apart

theorem groupTerms_append_of_head {behind : List Node}
    (divides : ∀ next ∈ behind.head?, ∃ content : Leaf, next = .leaf content ∧
      content.dividesTerms = true) (inside : List Node) :
    groupTerms (inside ++ behind) = groupTerms inside ++ groupTerms behind := by
  cases behind with
  | nil => rw [List.append_nil, groupTerms_nil, List.append_nil]
  | cons next rest =>
      obtain ⟨content, rfl, here⟩ := divides next rfl
      rw [groupTerms_append here, groupTerms_cons here]

end Divides

theorem groupWhere_append {node : Node} (closes : closesWhere node = true)
    (inside behind : List Node) :
    groupWhere (inside ++ node :: behind) = groupWhere inside ++ node :: groupWhere behind :=
  sweep_append_barrier (whereRule_barrier closes) inside behind

theorem groupWhere_cons {node : Node} (noWhere : node.isKeyword "WHERE" = false)
    (behind : List Node) : groupWhere (node :: behind) = node :: groupWhere behind :=
  sweep_cons_kept (by simp [whereRule, noWhere])

theorem head_groupWhere_dropWhile (rest : List Node) :
    ∀ next ∈ (groupWhere (rest.dropWhile fun next => !closesWhere next)).head?,
      closesWhere next := by
  have ends := List.head?_dropWhile_not (fun next => !closesWhere next) rest
  cases left : rest.dropWhile fun next => !closesWhere next with
  | nil => simp
  | cons next further =>
      rw [left] at ends
      have closes : closesWhere next = true := by simpa using ends
      rw [groupWhere_cons (isKeyword_where_of_closesWhere closes)]
      simpa using closes

/-- What stands in brackets is grouped apart from them. -/
theorem groupLevel_brackets (inside : List Node) {closing : List Node}
    (ending : closing = [] ∨ closing = [.leaf (.punctuation ")")]) :
    groupLevel (.leaf (.punctuation "(") :: inside ++ closing) =
      .leaf (.punctuation "(") :: groupLevel inside ++ closing := by
  rw [groupLevel_eq, List.cons_append, groupTerms_cons (by decide), groupWhere_cons (by decide),
    groupLevel_eq]
  rcases ending with rfl | rfl
  · rw [List.append_nil, List.cons_append, List.append_nil]
  · rw [groupTerms_append (by decide), groupTerms_nil, groupWhere_append (by decide),
      groupWhere_nil, List.cons_append]

end SqlMetrics
