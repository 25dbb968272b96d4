import SqlMetrics.Grouping

/-! # Sweeping a rule over a list of nodes

`sweep` is followed node by node: what a rule makes of each node it meets holds of the whole
result (`forall_mem_sweep`), an end of the result is what an end of the nodes is swept to
(`exists_suffix_of_sweep`), and a rule that leaves a node alone and takes nothing beyond it cuts its
sweep in two there (`sweep_append_barrier`).  The passes on given nodes can be computed
(`groupLevel_eq_sweepLevel`).  The tails that the rules take are a beginning of the nodes behind,
each made of the nodes that its rule asks for, and each rule but that for calls does no more than
put a node and its tail into a group (`Wraps`). -/
set_option autoImplicit false
namespace SqlMetrics

/-! ## Following a sweep -/

@[simp] theorem sweep_nil (rule : MergeRule) : sweep rule [] = [] := by
  rw [sweep]

theorem sweep_cons (rule : MergeRule) (node : Node) (rest : List Node) :
    sweep rule (node :: rest) =
      (rule node rest).1 :: sweep rule (rest.drop (rule node rest).2) := by
  rw [sweep]

theorem sweep_cons_kept {rule : MergeRule} {node : Node} {rest : List Node}
    (kept : rule node rest = (node, 0)) : sweep rule (node :: rest) = node :: sweep rule rest := by
  rw [sweep_cons, kept, List.drop_zero]

theorem sweep_eq_self {rule : MergeRule} {nodes : List Node}
    (kept : ∀ node rest, node :: rest <:+ nodes → rule node rest = (node, 0)) :
    sweep rule nodes = nodes := by
  induction nodes with
  | nil => exact sweep_nil rule
  | cons node rest ih =>
      have behind := ih fun next further inside =>
        kept next further (inside.trans (List.suffix_cons node rest))
      rw [sweep_cons_kept (kept node rest (List.suffix_refl _)), behind]

/-- If the rule turns nodes with `P` into one with `Q`, all swept nodes have `Q`. -/
theorem forall_mem_sweep {P Q : Node → Prop} {rule : MergeRule}
    (step : ∀ node rest, P node → (∀ next ∈ rest, P next) → Q (rule node rest).1)
    (nodes : List Node) (before : ∀ node ∈ nodes, P node) : ∀ node ∈ sweep rule nodes, Q node := by
  induction nodes using sweep.induct rule with
  | case1 => intro node member; simp at member
  | case2 node rest merged ih =>
      intro swept member
      have behind : ∀ next ∈ rest, P next := fun next h => before next (List.mem_cons_of_mem _ h)
      rw [sweep_cons] at member
      rcases List.mem_cons.mp member with head | tail
      · rw [head]
        exact step node rest (before node List.mem_cons_self) behind
      · exact ih (fun next h => behind next (List.mem_of_mem_drop h)) swept tail

/-- A rule that makes groups only: a leaf it yields is the leaf it was given. -/
def MakesGroups (rule : MergeRule) : Prop :=
  ∀ node rest content, (rule node rest).1 = .leaf content → node = .leaf content

theorem leaf_mem_of_mem_sweep {rule : MergeRule} (makes : MakesGroups rule) {nodes : List Node}
    {content : Leaf} (member : .leaf content ∈ sweep rule nodes) : .leaf content ∈ nodes := by
  have all := forall_mem_sweep (P := fun node => node ∈ nodes)
    (Q := fun node => ∀ leaf, node = .leaf leaf → .leaf leaf ∈ nodes)
    (fun node rest given _ leaf made => makes node rest leaf made ▸ given) nodes (fun _ h => h)
  exact all _ member content rfl

/-! ## Computing a sweep -/

/-- A sweep behind some skipped nodes.  The recursion is on the list, so that it can be computed. -/
def sweepBehind (rule : MergeRule) : Nat → List Node → List Node
  | _, [] => []
  | 0, node :: rest => (rule node rest).1 :: sweepBehind rule (rule node rest).2 rest
  | skipped + 1, _ :: rest => sweepBehind rule skipped rest

theorem sweepBehind_eq (rule : MergeRule) (skipped : Nat) (nodes : List Node) :
    sweepBehind rule skipped nodes = sweep rule (nodes.drop skipped) := by
  induction nodes generalizing skipped with
  | nil => rw [List.drop_nil, sweep_nil, sweepBehind]
  | cons node rest ih =>
      cases skipped with
      | zero => rw [sweepBehind, List.drop_zero, sweep_cons, ih]
      | succ skipped => rw [sweepBehind, List.drop_succ_cons, ih]

def sweepLevel (nodes : List Node) : List Node :=
  [callRule, nameRule, castRule, comparisonRule, aliasRule, listRule, whereRule].foldl
    (fun nodes rule => sweepBehind rule 0 nodes) nodes

theorem groupLevel_eq_sweepLevel (nodes : List Node) : groupLevel nodes = sweepLevel nodes := by
  simp only [sweepLevel, List.foldl_cons, List.foldl_nil, sweepBehind_eq, List.drop_zero]
  rfl

/-! ## Cutting a sweep in two -/

/-- Nodes from which the rule takes none that stand behind them are swept apart from those. -/
theorem sweep_append {rule : MergeRule} {front behind : List Node}
    (apart : ∀ node rest, node :: rest <:+ front →
      rule node (rest ++ behind) = rule node rest ∧ (rule node rest).2 ≤ rest.length) :
    sweep rule (front ++ behind) = sweep rule front ++ sweep rule behind := by
  induction front using sweep.induct rule with
  | case1 => rw [List.nil_append, sweep_nil, List.nil_append]
  | case2 node rest merged ih =>
      obtain ⟨same, bounded⟩ := apart node rest (List.suffix_refl _)
      have later := ih fun next further inside => apart next further
        (inside.trans ((List.drop_suffix _ _).trans (List.suffix_cons node rest)))
      rw [List.cons_append, sweep_cons, sweep_cons, same, List.drop_append_of_le_length bounded,
        later, List.cons_append]

/-- An end of swept nodes is what an end of the nodes is swept to. -/
theorem exists_suffix_of_sweep {rule : MergeRule} {nodes first second : List Node}
    (split : sweep rule nodes = first ++ second) :
    ∃ behind, behind <:+ nodes ∧ sweep rule behind = second := by
  induction first generalizing nodes with
  | nil => exact ⟨nodes, List.suffix_refl _, split⟩
  | cons made others ih =>
      cases nodes with
      | nil => simp at split
      | cons node rest =>
          rw [sweep_cons, List.cons_append, List.cons.injEq] at split
          obtain ⟨behind, inside, swept⟩ := ih split.2
          exact ⟨behind, inside.trans ((List.drop_suffix _ _).trans (List.suffix_cons node rest)),
            swept⟩

/-- A node that the rule leaves alone and that nothing before it is merged with. -/
structure Barrier (rule : MergeRule) (node : Node) : Prop where
  kept : ∀ rest, rule node rest = (node, 0)
  shields : ∀ first inside behind, rule first (inside ++ node :: behind) = rule first inside
  bounded : ∀ first inside, (rule first inside).2 ≤ inside.length

/-- What stands before a barrier and what stands behind it are swept apart. -/
theorem sweep_append_barrier {rule : MergeRule} {node : Node} (barrier : Barrier rule node)
    (inside behind : List Node) :
    sweep rule (inside ++ node :: behind) = sweep rule inside ++ node :: sweep rule behind := by
  rw [← sweep_cons_kept (barrier.kept behind)]
  exact sweep_append fun first rest _ =>
    ⟨barrier.shields first rest behind, barrier.bounded first rest⟩

/-! ## Tails are a beginning -/

theorem take_length_of_begins {tail rest : List Node} (taken : tail <+: rest) :
    rest.take tail.length = tail :=
  (List.prefix_iff_eq_take.mp taken).symm

theorem dottedTail_begins (rest : List Node) : dottedTail rest <+: rest := by
  fun_induction dottedTail rest with
  | case1 => exact List.prefix_refl []
  | case2 dot _ => exact List.prefix_refl [dot]
  | case3 dot _ => exact List.nil_prefix
  | case4 dot part rest _ _ ih =>
      exact List.cons_prefix_cons.mpr ⟨rfl, List.cons_prefix_cons.mpr ⟨rfl, ih⟩⟩
  | case5 dot part rest _ _ => exact List.cons_prefix_cons.mpr ⟨rfl, List.nil_prefix⟩
  | case6 dot part rest _ => exact List.nil_prefix

theorem castTail_begins (rest : List Node) : castTail rest <+: rest := by
  fun_induction castTail rest with
  | case1 => exact List.prefix_refl []
  | case2 cast _ => exact List.prefix_refl [cast]
  | case3 cast _ => exact List.nil_prefix
  | case4 cast type rest _ _ ih =>
      exact List.cons_prefix_cons.mpr ⟨rfl, List.cons_prefix_cons.mpr ⟨rfl, ih⟩⟩
  | case5 cast type rest _ _ => exact List.cons_prefix_cons.mpr ⟨rfl, List.nil_prefix⟩
  | case6 cast type rest _ => exact List.nil_prefix

theorem directionTail_begins (rest : List Node) : directionTail rest <+: rest := by
  cases rest with
  | nil => exact List.prefix_refl []
  | cons next behind =>
      by_cases direction : isDirection next = true
      · simp [directionTail, direction]
      · simp [directionTail, direction]

theorem aliasTail_begins (node : Node) (rest : List Node) : aliasTail node rest <+: rest := by
  fun_cases aliasTail node rest <;> simp

theorem listTail_begins (rest : List Node) : listTail rest <+: rest := by
  fun_induction listTail rest with
  | case1 comma member rest _ ih =>
      exact List.cons_prefix_cons.mpr ⟨rfl, List.cons_prefix_cons.mpr ⟨rfl, ih⟩⟩
  | case2 => exact List.nil_prefix
  | case3 => exact List.nil_prefix

theorem casts_direction_begin (rest : List Node) :
    castTail rest ++ directionTail (rest.drop (castTail rest).length) <+: rest := by
  obtain ⟨behind, split⟩ := castTail_begins rest
  have dropped : rest.drop (castTail rest).length = behind :=
    (congrArg (List.drop _) split.symm).trans List.drop_left
  have both := (List.prefix_append_right_inj (castTail rest)).mpr (directionTail_begins behind)
  rw [split] at both
  rw [dropped]
  exact both

/-! ## What the rules make -/

/-- What becomes of a node and those it takes: the node alone, a new group that begins with the node
and is no call, or an identifier that goes on with them. -/
inductive Wrapped : Node → List Node → Node → Prop where
  | alone {node : Node} : Wrapped node [] node
  | group {kind : GroupKind} {node : Node} {taken : List Node} (noCall : kind ≠ .function) :
      Wrapped node taken (.group kind (node :: taken))
  | extended {parts taken : List Node} :
      Wrapped (.group .identifier parts) taken (.group .identifier (parts ++ taken))

/-- The rule does nothing else. -/
def Wraps (rule : MergeRule) : Prop :=
  ∀ node rest, Wrapped node (rest.take (rule node rest).2) (rule node rest).1

theorem wrapped_extend (node : Node) (tail : List Node) : Wrapped node tail (extend node tail) := by
  cases tail with
  | nil => exact .alone
  | cons next behind =>
      rw [extend, List.isEmpty_cons, if_neg Bool.false_ne_true]
      unfold identifierParts
      split
      · exact .extended
      · exact .group (by decide)

theorem nameRule_wraps : Wraps nameRule := by
  intro node rest
  unfold nameRule
  split
  · rw [take_length_of_begins (dottedTail_begins rest)]
    exact .group (by decide)
  · exact .alone

theorem castRule_wraps : Wraps castRule := by
  intro node rest
  unfold castRule
  split
  · dsimp only
    rw [← List.length_append]
    split
    · rw [take_length_of_begins (casts_direction_begin rest)]
      exact wrapped_extend node _
    · rw [List.append_nil, take_length_of_begins (castTail_begins rest)]
      exact wrapped_extend node _
  · exact .alone

theorem comparisonRule_wraps : Wraps comparisonRule := by
  intro node rest
  fun_cases comparisonRule node rest with
  | case1 node operator right behind compared => exact .group (by decide)
  | case2 node operator right behind other => exact .alone
  | case3 node rest short => exact .alone

theorem aliasRule_wraps : Wraps aliasRule := by
  intro node rest
  unfold aliasRule
  split
  · dsimp only
    rw [take_length_of_begins (aliasTail_begins node rest)]
    exact wrapped_extend node _
  · exact .alone

theorem listRule_wraps : Wraps listRule := by
  intro node rest
  unfold listRule
  split
  · dsimp only
    split
    · exact .alone
    · rw [take_length_of_begins (listTail_begins rest)]
      exact .group (by decide)
  · exact .alone

theorem whereRule_wraps : Wraps whereRule := by
  intro node rest
  unfold whereRule
  split
  · rw [take_length_of_begins (List.takeWhile_prefix _)]
    exact .group (by decide)
  · exact .alone

theorem Wraps.makesGroups {rule : MergeRule} (wraps : Wraps rule) : MakesGroups rule := by
  intro node rest content made
  have wrapped := wraps node rest
  rw [made] at wrapped
  generalize rest.take (rule node rest).2 = taken at wrapped
  cases wrapped
  rfl

/-- The rule makes groups of one kind and leaves every other node alone. -/
def Makes (kind : GroupKind) (rule : MergeRule) : Prop :=
  ∀ node rest, rule node rest = (node, 0) ∨ (rule node rest).1.isGroupOf kind = true

/-- A swept node of another kind was there before, and the rule left it alone. -/
theorem Makes.exists_of_sweep {kind : GroupKind} {rule : MergeRule} {node : Node}
    {nodes behind : List Node} (makes : Makes kind rule) (other : node.isGroupOf kind = false)
    (swept : sweep rule nodes = node :: behind) :
    ∃ rest, nodes = node :: rest ∧ rule node rest = (node, 0) ∧ sweep rule rest = behind := by
  cases nodes with
  | nil => simp at swept
  | cons first rest =>
      rcases makes first rest with kept | made
      · rw [sweep_cons_kept kept, List.cons.injEq] at swept
        obtain ⟨rfl, later⟩ := swept
        exact ⟨rest, rfl, kept, later⟩
      · rw [sweep_cons, List.cons.injEq] at swept
        rw [swept.1, other] at made
        cases made

end SqlMetrics
