import SqlMetrics.Proofs.ListRuns

/-! # Nothing is left to merge

The passes for calls, comparisons and lists are complete (`passes_leave_nothing_to_merge`).  Behind
them no name stands before brackets, no operator between two operands, and no comma between two
members.  In a chain of operands every other operator is taken, the first one first
(`groupComparisons_of_chain`, `everyOtherTaken_comparedInTurn`), and the lists are the widest runs
of members. -/
set_option autoImplicit false
namespace SqlMetrics

open Node

/-! ## Calls -/

theorem callRule_makes : Makes .function callRule := by
  intro node rest
  fun_cases callRule node rest with
  | case1 node next behind call => exact .inr rfl
  | case2 node next behind other => exact .inl rfl
  | case3 node => exact .inl rfl

theorem no_call_left {nodes front behind : List Node} {name brackets : Node}
    (split : groupCalls nodes = front ++ name :: brackets :: behind) :
    ¬ (name.isLeafOf .name = true ∧ brackets.isGroupOf .parenthesis = true) := by
  rintro ⟨isName, isBrackets⟩
  obtain ⟨text, rfl, -⟩ := isLeafOf_iff.mp isName
  obtain ⟨inside, rfl⟩ := isGroupOf_iff.mp isBrackets
  obtain ⟨there, -, swept⟩ := exists_suffix_of_sweep split
  obtain ⟨rest, rfl, kept, later⟩ := callRule_makes.exists_of_sweep rfl swept
  obtain ⟨further, rfl, -, -⟩ := callRule_makes.exists_of_sweep rfl later
  simp [callRule, isName, isBrackets] at kept

/-! ## Comparisons -/

/-- Operands with operators between them; an operator without a right operand may end them. -/
def OperandChain (nodes : List Node) : Prop :=
  nodes ≠ [] ∧ InTurn isOperand (·.isLeafOf .comparison) nodes

/-- A chain with every other operator taken, the first one first, as long as there is an operand on
its right. -/
def comparedInTurn : List Node → List Node
  | left :: operator :: right :: next :: rest =>
      .group .comparison [left, operator, right] :: next :: comparedInTurn rest
  | [left, operator, right] => [.group .comparison [left, operator, right]]
  | short => short

section Comparisons
variable {left operator right node : Node} {front chain behind rest nodes : List Node}

theorem comparisonRule_makes : Makes .comparison comparisonRule := by
  intro node rest
  fun_cases comparisonRule node rest with
  | case1 left operator right behind compared => exact .inr rfl
  | case2 left operator right behind other => exact .inl rfl
  | case3 left rest short => exact .inl rfl

theorem isGroupOf_of_isOperand (operand : isOperand node = true) :
    node.isGroupOf .comparison = false := by
  cases node with
  | leaf content => rfl
  | group kind children =>
      simp only [isOperand, Bool.or_eq_true, decide_eq_true_eq] at operand
      rcases operand with (rfl | rfl) | rfl <;> rfl

theorem isGroupOf_of_isLeafOf {kind : GroupKind} {leafKind : LeafKind}
    (isLeaf : node.isLeafOf leafKind = true) : node.isGroupOf kind = false := by
  obtain ⟨content, rfl, -⟩ := isLeafOf_iff.mp isLeaf
  rfl

theorem no_comparison_left
    (split : groupComparisons nodes = front ++ left :: operator :: right :: behind) :
    ¬ (isOperand left = true ∧ operator.isLeafOf .comparison = true ∧ isOperand right = true) := by
  rintro ⟨isLeft, isOperator, isRight⟩
  obtain ⟨there, -, swept⟩ := exists_suffix_of_sweep split
  obtain ⟨rest, rfl, kept, swept⟩ :=
    comparisonRule_makes.exists_of_sweep (isGroupOf_of_isOperand isLeft) swept
  obtain ⟨rest, rfl, -, swept⟩ :=
    comparisonRule_makes.exists_of_sweep (isGroupOf_of_isLeafOf isOperator) swept
  obtain ⟨rest, rfl, -, -⟩ :=
    comparisonRule_makes.exists_of_sweep (isGroupOf_of_isOperand isRight) swept
  simp [comparisonRule, isLeft, isOperator, isRight] at kept

theorem isLeafOf_comparison_of_isOperand (operand : isOperand node = true) :
    node.isLeafOf .comparison = false := by
  cases isOperator : node.isLeafOf .comparison with
  | false => rfl
  | true =>
      obtain ⟨content, rfl, kind⟩ := isLeafOf_iff.mp isOperator
      simp [isOperand, Leaf.isKeyword, kind] at operand

theorem comparisonRule_kept
    (alone : ∀ operator right further, rest = operator :: right :: further →
      ¬ (isOperand node = true ∧ operator.isLeafOf .comparison = true ∧ isOperand right = true)) :
    comparisonRule node rest = (node, 0) := by
  fun_cases comparisonRule node rest with
  | case1 node operator right behind compared =>
      simp only [Bool.and_eq_true, and_assoc] at compared
      exact absurd compared (alone operator right behind rfl)
  | case2 node operator right behind other => rfl
  | case3 node rest short => rfl

/-- A chain that what is behind it does not carry on is taken in turn. -/
theorem groupComparisons_append
    (inTurn : InTurn isOperand (·.isLeafOf .comparison) chain)
    (closed : ∀ next further, behind = next :: further →
      ¬ InTurn isOperand (·.isLeafOf .comparison) (chain ++ [next])) :
    groupComparisons (chain ++ behind) = comparedInTurn chain ++ groupComparisons behind := by
  rw [groupComparisons]
  fun_induction comparedInTurn chain with
  | case1 left operator right next rest ih =>
      obtain ⟨isLeft, isOperator, isRight, isNext, later⟩ := inTurn
      have made : comparisonRule left (operator :: right :: next :: (rest ++ behind)) =
          (.group .comparison [left, operator, right], 2) :=
        if_pos (by simp [isLeft, isOperator, isRight])
      have nextKept : comparisonRule next (rest ++ behind) = (next, 0) :=
        comparisonRule_kept fun _ _ _ _ compared => Bool.false_ne_true
          ((isLeafOf_comparison_of_isOperand compared.1).symm.trans isNext)
      have rested := ih later fun after further split inTurn =>
        closed after further split ⟨isLeft, isOperator, isRight, isNext, inTurn⟩
      simp only [List.cons_append]
      rw [sweep_cons, made]
      dsimp only [List.drop]
      rw [sweep_cons_kept nextKept, rested]
  | case2 left operator right =>
      obtain ⟨isLeft, isOperator, isRight, -⟩ := inTurn
      have made : comparisonRule left (operator :: right :: behind) =
          (.group .comparison [left, operator, right], 2) :=
        if_pos (by simp [isLeft, isOperator, isRight])
      simp only [List.cons_append, List.nil_append]
      rw [sweep_cons, made]
      rfl
  | case3 short notLong notThree =>
      match short with
      | [] => rfl
      | [left] =>
          have kept : comparisonRule left behind = (left, 0) := comparisonRule_kept
            fun operator right further split compared =>
              closed operator (right :: further) split ⟨compared.1, compared.2.1, trivial⟩
          exact sweep_cons_kept kept
      | [left, operator] =>
          have isOperator := inTurn.2.1
          have leftKept : comparisonRule left (operator :: behind) = (left, 0) := by
            refine comparisonRule_kept fun _ right further split compared => ?_
            obtain ⟨rfl, tails⟩ := List.cons.inj split
            exact closed right further tails ⟨compared.1, isOperator, compared.2.2, trivial⟩
          have operatorKept : comparisonRule operator behind = (operator, 0) :=
            comparisonRule_kept fun _ _ _ _ compared => Bool.false_ne_true
              ((isLeafOf_comparison_of_isOperand compared.1).symm.trans isOperator)
          have apart := sweep_cons_kept leftKept
          rw [sweep_cons_kept operatorKept] at apart
          exact apart
      | [left, operator, right] => exact absurd rfl (notThree left operator right)
      | left :: operator :: right :: next :: rest =>
          exact absurd rfl (notLong left operator right next rest)

theorem groupComparisons_split (operand : isOperand left = true)
    (apart : ¬ EndsInPair isOperand (·.isLeafOf .comparison) front) :
    groupComparisons (front ++ left :: behind) =
      groupComparisons front ++ groupComparisons (left :: behind) := by
  rw [groupComparisons]
  refine sweep_append fun node rest inside => ?_
  match rest with
  | [] =>
      have kept : comparisonRule node (left :: behind) = (node, 0) := by
        refine comparisonRule_kept fun operator right further split compared => ?_
        obtain ⟨rfl, -⟩ := List.cons.inj split
        exact Bool.false_ne_true
          ((isLeafOf_comparison_of_isOperand operand).symm.trans compared.2.1)
      exact ⟨kept, Nat.le_refl 0⟩
  | [operator] =>
      have kept : comparisonRule node (operator :: left :: behind) = (node, 0) := by
        refine comparisonRule_kept fun _ right further split compared => ?_
        obtain ⟨rfl, -⟩ := List.cons.inj split
        exact apart ⟨node, operator, inside, compared.1, compared.2.1⟩
      exact ⟨kept, Nat.zero_le 1⟩
  | operator :: right :: further =>
      refine ⟨rfl, ?_⟩
      rw [comparisonRule]
      split
      · exact Nat.le_add_left 2 _
      · exact Nat.zero_le _

/-- A chain is a widest one if no operand with its operator stands before it and no node behind it
goes on with it. -/
theorem widest_operandChain_iff : Widest OperandChain front chain behind ↔
    OperandChain chain ∧ ¬ EndsInPair isOperand (·.isLeafOf .comparison) front ∧
      ∀ next further, behind = next :: further →
        ¬ InTurn isOperand (·.isLeafOf .comparison) (chain ++ [next]) := by
  constructor
  · rintro ⟨⟨filled, inTurn⟩, noWider⟩
    refine ⟨⟨filled, inTurn⟩, ?_, ?_⟩
    · rintro ⟨before, operator, ⟨outer, rfl⟩, isBefore, isOperator⟩
      have wider : OperandChain ([before, operator] ++ chain ++ []) := by
        rw [List.append_nil]
        exact ⟨by simp, isBefore, isOperator, inTurn⟩
      exact List.cons_ne_nil _ _ (noWider outer _ [] behind rfl rfl wider).1
    · rintro next further rfl carried
      have wider : OperandChain ([] ++ chain ++ [next]) := ⟨by simp, carried⟩
      have noNext := (noWider front [] [next] further (List.append_nil front).symm rfl wider).2
      exact List.cons_ne_nil _ _ noNext
  · rintro ⟨⟨filled, inTurn⟩, apart, closed⟩
    refine ⟨⟨filled, inTurn⟩, ?_⟩
    rintro outer before after beyond rfl rfl ⟨-, wider⟩
    rw [List.append_assoc] at wider
    have different := fun node => @isLeafOf_comparison_of_isOperand node
    obtain rfl := before_eq_nil different filled inTurn apart wider
    refine ⟨rfl, ?_⟩
    match after with
    | [] => rfl
    | next :: others =>
        rw [List.nil_append, ← List.singleton_append, ← List.append_assoc] at wider
        exact absurd wider.of_append (closed next (others ++ beyond) rfl)

/-- A chain that is not carried on at either end is taken in turn, the first operator first. -/
theorem groupComparisons_of_chain (widest : Widest OperandChain front chain behind) :
    groupComparisons (front ++ chain ++ behind) =
      groupComparisons front ++ comparedInTurn chain ++ groupComparisons behind := by
  obtain ⟨⟨filled, inTurn⟩, apart, closed⟩ := widest_operandChain_iff.mp widest
  have taken := groupComparisons_append inTurn closed
  match chain with
  | [] => exact absurd rfl filled
  | left :: rest =>
      rw [List.append_assoc, List.cons_append, groupComparisons_split inTurn.1 apart,
        ← List.cons_append, taken, List.append_assoc]

/-- The operators of the chain as they stand in the result: those with an even number, counted from
zero, and an operand on their right are in a comparison with both neighbours, the others are
bare. -/
def EveryOtherTaken (chain result : List Node) : Prop :=
  ∀ number left operator, chain[2 * number]? = some left →
    chain[2 * number + 1]? = some operator →
    (∀ right, chain[2 * number + 2]? = some right → number % 2 = 0 →
      result[number]? = some (.group .comparison [left, operator, right])) ∧
    (number % 2 = 1 → result[number]? = some operator) ∧
    (chain[2 * number + 2]? = none → number % 2 = 0 → result[number + 1]? = some operator)

theorem everyOtherTaken_comparedInTurn (chain : List Node) :
    EveryOtherTaken chain (comparedInTurn chain) := by
  intro number left operator hasLeft hasOperator
  fun_induction comparedInTurn chain generalizing number with
  | case1 first mark second next rest ih =>
      match number with
      | 0 =>
          obtain rfl := Option.some.inj hasLeft
          obtain rfl := Option.some.inj hasOperator
          refine ⟨fun right hasRight _ => ?_, fun odd => absurd odd (by decide), fun empty => ?_⟩
          · obtain rfl := Option.some.inj hasRight
            rfl
          · cases empty
      | 1 =>
          obtain rfl := Option.some.inj hasOperator
          exact ⟨fun _ _ even => absurd even (by decide), fun _ => rfl,
            fun _ even => absurd even (by decide)⟩
      | number + 2 =>
          have later := ih number hasLeft hasOperator
          rwa [← Nat.add_mod_right number 2] at later
  | case2 first mark second =>
      match number with
      | 0 =>
          obtain rfl := Option.some.inj hasLeft
          obtain rfl := Option.some.inj hasOperator
          refine ⟨fun right hasRight _ => ?_, fun odd => absurd odd (by decide), fun empty => ?_⟩
          · obtain rfl := Option.some.inj hasRight
            rfl
          · cases empty
      | number + 1 => cases hasOperator
  | case3 short notLong notThree =>
      match short, number with
      | [first, mark], 0 =>
          refine ⟨fun right hasRight => ?_, fun odd => ?_, fun _ _ => hasOperator⟩
          · cases hasRight
          · exact absurd odd (by decide)
      | [], _ => cases hasOperator
      | [first], _ => cases hasOperator
      | [first, mark], number + 1 => cases hasOperator
      | [first, mark, second], _ => exact absurd rfl (notThree first mark second)
      | first :: mark :: second :: next :: rest, _ =>
          exact absurd rfl (notLong first mark second next rest)

end Comparisons

/-! ## What the passes leave -/

/-- Behind the passes nothing is left to merge.  The one for calls leaves no name before brackets.
The one for comparisons leaves no operator between two operands, and in every chain that is not
carried on at either end it takes every other operator.  The one for lists, where there was no list
before, makes those of the widest runs, and leaves no comma between a member or a list and a
member. -/
theorem passes_leave_nothing_to_merge (nodes : List Node) :
    (∀ front name brackets behind, groupCalls nodes = front ++ name :: brackets :: behind →
      ¬ (name.isLeafOf .name = true ∧ brackets.isGroupOf .parenthesis = true)) ∧
    ((∀ front left operator right behind,
        groupComparisons nodes = front ++ left :: operator :: right :: behind →
        ¬ (isOperand left = true ∧ operator.isLeafOf .comparison = true ∧
          isOperand right = true)) ∧
      ∀ front chain behind, nodes = front ++ chain ++ behind →
        Widest OperandChain front chain behind →
        groupComparisons nodes =
            groupComparisons front ++ comparedInTurn chain ++ groupComparisons behind ∧
          EveryOtherTaken chain (comparedInTurn chain)) ∧
    ((∀ node ∈ nodes, node.isGroupOf .identifierList = false) →
      (∀ before items after,
        groupLists nodes = before ++ .group .identifierList items :: after ↔
          ∃ front behind, nodes = front ++ items ++ behind ∧ Widest ListRun front items behind ∧
            before = groupLists front ∧ after = groupLists behind) ∧
      ∀ front left comma right behind,
        groupLists nodes = front ++ left :: comma :: right :: behind →
        ¬ ((isListMember left = true ∨ left.isGroupOf .identifierList = true) ∧
          comma.isPunctuation "," = true ∧ isListMember right = true)) := by
  refine ⟨?_, ⟨?_, ?_⟩, ?_⟩
  · intro front name brackets behind split
    exact no_call_left split
  · intro front left operator right behind split
    exact no_comparison_left split
  · rintro front chain behind rfl widest
    exact ⟨groupComparisons_of_chain widest, everyOtherTaken_comparedInTurn chain⟩
  · intro noList
    refine ⟨?_, ?_⟩
    · intro before items after
      exact groupLists_eq_append noList
    · intro front left comma right behind split
      exact no_comma_left noList split

/-- An operator before a chain of three operands, the last of which begins a list, and a comma
behind that. -/
theorem nothing_to_merge_in_mixed_nodes :
    ∃ front chain behind : List Node,
      front = [.leaf (.comparison "=")] ∧
      chain = [.leaf (.literal "1"), .leaf (.comparison "<"), .leaf (.literal "2"),
        .leaf (.comparison "<"), .leaf (.literal "3")] ∧
      behind = [.leaf (.punctuation ","), .leaf (.literal "4"), .leaf (.punctuation ",")] ∧
      (∀ name brackets others, groupCalls (front ++ chain ++ behind) = name :: brackets :: others →
        ¬ (name.isLeafOf .name = true ∧ brackets.isGroupOf .parenthesis = true)) ∧
      groupComparisons (front ++ chain ++ behind) =
        groupComparisons front ++
          [.group .comparison
              [.leaf (.literal "1"), .leaf (.comparison "<"), .leaf (.literal "2")],
            .leaf (.comparison "<"), .leaf (.literal "3")] ++
          groupComparisons behind ∧
      groupLists (front ++ chain ++ behind) =
        groupLists (front ++ chain.take 4) ++
          .group .identifierList
              [.leaf (.literal "3"), .leaf (.punctuation ","), .leaf (.literal "4")] ::
            groupLists [.leaf (.punctuation ",")] := by
  refine ⟨_, _, _, rfl, rfl, rfl, ?_, ?_, ?_⟩
  · intro name brackets others split
    exact (passes_leave_nothing_to_merge _).1 [] name brackets others split
  · have widest : Widest OperandChain [Node.leaf (.comparison "=")]
        [.leaf (.literal "1"), .leaf (.comparison "<"), .leaf (.literal "2"),
          .leaf (.comparison "<"), .leaf (.literal "3")]
        [.leaf (.punctuation ","), .leaf (.literal "4"), .leaf (.punctuation ",")] := by
      refine widest_operandChain_iff.mpr ⟨⟨by simp, by decide⟩, ?_, ?_⟩
      · rintro ⟨before, operator, inside, -⟩
        exact absurd inside.length_le (by simp)
      · intro next further split
        obtain ⟨rfl, -⟩ := List.cons.inj split
        decide
    exact ((passes_leave_nothing_to_merge _).2.1.2 _ _ _ rfl widest).1
  · have widest : Widest ListRun
        [Node.leaf (.comparison "="), .leaf (.literal "1"), .leaf (.comparison "<"),
          .leaf (.literal "2"), .leaf (.comparison "<")]
        [.leaf (.literal "3"), .leaf (.punctuation ","), .leaf (.literal "4")]
        [.leaf (.punctuation ",")] := by
      refine widest_listRun_iff.mpr ⟨⟨by simp, by simp, by decide⟩, ?_, rfl⟩
      rintro ⟨member, comma, ⟨outer, split⟩, -, isComma⟩
      obtain rfl : comma = .leaf (.comparison "<") := by
        have ends := congrArg List.getLast? split
        simpa using ends
      cases isComma
    exact (((passes_leave_nothing_to_merge _).2.2 (by decide)).1 _ _ _).mpr
      ⟨_, _, rfl, widest, rfl, rfl⟩

end SqlMetrics
