import SqlMetrics.Proofs.Depth
import SqlMetrics.Proofs.TreeGrammar

/-! # Open brackets

Brackets are matched by counting: with the positions of the open ones on a stack, a closing bracket
closes the latest.  `openBefore` is that stack before each leaf.  A bracket stays on it until the
one that closes it (`unclosed_iff`), those between the two are balanced (`matched_iff`), and at some
leaf the stack is as high as brackets nest deep (`exists_length_openBefore`). -/
set_option autoImplicit false
namespace SqlMetrics

/-- The brackets open behind a leaf, by position and the latest first, given those before it.  A
closing bracket where none is open changes nothing. -/
def Leaf.openBehind (here : Nat) (opened : List Nat) (content : Leaf) : List Nat :=
  match content.bracket? with
  | some .opening => here :: opened
  | some .closing => opened.tail
  | none => opened

/-- The brackets open at a leaf: those before it, and the leaf itself if it opens one. -/
def Leaf.openAround (here : Nat) (opened : List Nat) (content : Leaf) : List Nat :=
  match content.bracket? with
  | some .opening => here :: opened
  | _ => opened

/-- The brackets open behind some leaves, the first of which stands at `here`. -/
def openFrom (here : Nat) (opened : List Nat) : List Leaf → List Nat
  | [] => opened
  | content :: rest => openFrom (here + 1) (content.openBehind here opened) rest

/-- The brackets open before the leaf at a position, the latest first. -/
def openBefore (leaves : List Leaf) (position : Nat) : List Nat :=
  openFrom 0 [] (leaves.take position)

/-- The latest bracket open before the closing one at `closing` is the one at `opening`. -/
def Matched (leaves : List Leaf) (opening closing : Nat) : Prop :=
  (∃ content, leaves[closing]? = some content ∧ content.closesBracket = true) ∧
    (openBefore leaves closing).head? = some opening

/-- An opening bracket that no closing one is matched with. -/
def Unclosed (leaves : List Leaf) (opening : Nat) : Prop :=
  (∃ content, leaves[opening]? = some content ∧ content.opensBracket = true) ∧
    ∀ closing, ¬ Matched leaves opening closing

/-- The leaves, each with the brackets open there. -/
def surrounded (here : Nat) (opened : List Nat) : List Leaf → List (Leaf × List Nat)
  | [] => []
  | content :: rest => (content, content.openAround here opened) ::
      surrounded (here + 1) (content.openBehind here opened) rest

section Scan
variable {leaves : List Leaf} {content : Leaf} {here position opening closing : Nat}
  {opened : List Nat}

theorem bracket_opening_iff : content.bracket? = some .opening ↔ content.opensBracket = true := by
  rw [Leaf.bracket?]
  by_cases opens : content.opensBracket = true
  · simp [opens]
  · by_cases closes : content.closesBracket = true <;> simp [opens, closes]

theorem bracket_closing_iff : content.bracket? = some .closing ↔ content.closesBracket = true := by
  by_cases opens : content.opensBracket = true
  · rw [eq_of_opensBracket opens]
    exact iff_of_false (by decide) (by decide)
  · rw [Leaf.bracket?, if_neg opens]
    by_cases closes : content.closesBracket = true <;> simp [closes]

theorem openAround_of_opening (opens : content.opensBracket = true) :
    content.openAround here opened = here :: opened := by
  rw [Leaf.openAround, bracket_opening_iff.mpr opens]

theorem openAround_of_closing (closes : content.closesBracket = true) :
    content.openAround here opened = opened := by
  rw [Leaf.openAround, bracket_closing_iff.mpr closes]

theorem mem_openAround (member : opening ∈ opened) : opening ∈ content.openAround here opened := by
  rw [Leaf.openAround]
  split
  · exact List.mem_cons_of_mem here member
  · exact member

theorem openFrom_append (front back : List Leaf) :
    openFrom here opened (front ++ back) =
      openFrom (here + front.length) (openFrom here opened front) back := by
  induction front generalizing here opened with
  | nil => rfl
  | cons content rest ih =>
      rw [List.cons_append, openFrom, ih, openFrom, List.length_cons, Nat.add_assoc,
        Nat.add_comm 1]

theorem openBefore_succ (there : leaves[position]? = some content) :
    openBefore leaves (position + 1) =
      content.openBehind position (openBefore leaves position) := by
  have inside : position < leaves.length := (List.getElem?_eq_some_iff.mp there).1
  have size : (leaves.take position).length = position := by
    rw [List.length_take]
    omega
  rw [openBefore, List.take_add_one, there, Option.toList_some, openFrom_append, size,
    Nat.zero_add]
  rfl

theorem openBefore_succ_of_none (absent : leaves[position]? = none) :
    openBefore leaves (position + 1) = openBefore leaves position := by
  have beyond : leaves.length ≤ position := List.getElem?_eq_none_iff.mp absent
  rw [openBefore, openBefore, List.take_of_length_le beyond,
    List.take_of_length_le (Nat.le_succ_of_le beyond)]

theorem length_openFrom (leaves : List Leaf) :
    (openFrom here opened leaves).length = depthAfter opened.length (bracketsOf leaves) := by
  induction leaves generalizing here opened with
  | nil => rfl
  | cons content rest ih =>
      have step : (content.openBehind here opened).length =
          depthAfter opened.length (bracketsOf [content]) := by
        rw [Leaf.openBehind, bracketsOf, List.filterMap_cons]
        cases content.bracket? with
        | none => rfl
        | some bracket => cases bracket <;> simp [depthAfter, Bracket.turn]
      rw [openFrom, ih, bracketsOf_cons, depthAfter_append, step]

theorem not_mem_openFrom (leaves : List Leaf) :
    ∀ {here opened}, opening < here → opening ∉ opened →
      opening ∉ openFrom here opened leaves := by
  induction leaves with
  | nil => exact fun _ gone => gone
  | cons content rest ih =>
      intro here opened before gone
      apply ih (Nat.lt_succ_of_lt before)
      rw [Leaf.openBehind]
      cases content.bracket? with
      | none => exact gone
      | some bracket =>
          cases bracket with
          | opening =>
              intro member
              rcases List.mem_cons.mp member with same | member
              · omega
              · exact gone member
          | closing => exact fun member => gone (List.mem_of_mem_tail member)

theorem openBefore_eq {later : Nat} (before : position ≤ later) :
    openBefore leaves later =
      openFrom position (openBefore leaves position) ((leaves.take later).drop position) := by
  have parts : leaves.take position ++ (leaves.take later).drop position = leaves.take later := by
    have whole := List.take_append_drop position (leaves.take later)
    rwa [List.take_take, Nat.min_eq_left before] at whole
  by_cases inside : position ≤ leaves.length
  · have size : (leaves.take position).length = position := by
      rw [List.length_take]
      omega
    rw [openBefore, ← parts, openFrom_append, size, Nat.zero_add, parts, openBefore]
  · have nothing : (leaves.take later).drop position = [] := by
      apply List.drop_of_length_le
      rw [List.length_take]
      omega
    rw [nothing, List.append_nil] at parts
    rw [openBefore, nothing, ← parts]
    rfl

theorem getElem?_surrounded (leaves : List Leaf) (position : Nat) :
    (surrounded here opened leaves)[position]? = leaves[position]?.map fun content =>
      (content, content.openAround (here + position)
        (openFrom here opened (leaves.take position))) := by
  induction leaves generalizing here opened position with
  | nil => rfl
  | cons content rest ih =>
      cases position with
      | zero => rfl
      | succ position =>
          rw [surrounded, List.getElem?_cons_succ, ih, List.getElem?_cons_succ,
            List.take_succ_cons, openFrom, Nat.add_assoc, Nat.add_comm 1]

theorem mem_openBefore_succ (member : opening ∈ openBefore leaves (position + 1)) :
    opening ∈ openBefore leaves position ∨ opening = position ∧
      ∃ content, leaves[position]? = some content ∧ content.opensBracket = true := by
  cases there : leaves[position]? with
  | none =>
      rw [openBefore_succ_of_none there] at member
      exact Or.inl member
  | some content =>
      rw [openBefore_succ there, Leaf.openBehind] at member
      cases kind : content.bracket? with
      | none =>
          rw [kind] at member
          exact Or.inl member
      | some bracket =>
          rw [kind] at member
          cases bracket with
          | opening =>
              rcases List.mem_cons.mp member with rfl | member
              · exact Or.inr ⟨rfl, content, rfl, bracket_opening_iff.mp kind⟩
              · exact Or.inl member
          | closing => exact Or.inl (List.mem_of_mem_tail member)

theorem stays_openBefore (member : opening ∈ openBefore leaves position)
    (unmatched : ¬ Matched leaves opening position) :
    opening ∈ openBefore leaves (position + 1) := by
  cases there : leaves[position]? with
  | none => rwa [openBefore_succ_of_none there]
  | some content =>
      rw [openBefore_succ there, Leaf.openBehind]
      cases kind : content.bracket? with
      | none => exact member
      | some bracket =>
          cases bracket with
          | opening => exact List.mem_cons_of_mem position member
          | closing =>
              obtain ⟨latest, earlier, stack⟩ :=
                List.exists_cons_of_ne_nil (List.ne_nil_of_mem member)
              rw [stack] at member
              rcases List.mem_cons.mp member with rfl | member
              · have closes := bracket_closing_iff.mp kind
                have matched : Matched leaves opening position :=
                  ⟨⟨content, there, closes⟩, by rw [stack, List.head?_cons]⟩
                exact absurd matched unmatched
              · rwa [stack]

theorem opened_of_mem :
    opening ∈ openBefore leaves position → opening < position ∧
      ∃ content, leaves[opening]? = some content ∧ content.opensBracket = true := by
  induction position with
  | zero => exact fun member => absurd member List.not_mem_nil
  | succ position ih =>
      intro member
      rcases mem_openBefore_succ member with earlier | ⟨rfl, opens⟩
      · obtain ⟨before, opens⟩ := ih earlier
        exact ⟨Nat.lt_succ_of_lt before, opens⟩
      · exact ⟨Nat.lt_succ_self opening, opens⟩

theorem pairwise_openBefore (leaves : List Leaf) (position : Nat) :
    (openBefore leaves position).Pairwise fun later earlier => earlier < later := by
  induction position with
  | zero => exact .nil
  | succ position ih =>
      cases there : leaves[position]? with
      | none => rwa [openBefore_succ_of_none there]
      | some content =>
          rw [openBefore_succ there, Leaf.openBehind]
          cases content.bracket? with
          | none => exact ih
          | some bracket =>
              cases bracket with
              | opening => exact .cons (fun opening member => (opened_of_mem member).1) ih
              | closing => exact ih.tail

theorem le_of_matched {other : Nat} (matched : Matched leaves opening closing)
    (member : other ∈ openBefore leaves closing) : other ≤ opening := by
  obtain ⟨earlier, stack⟩ := List.head?_eq_some_iff.mp matched.2
  have ordered := pairwise_openBefore leaves closing
  rw [stack] at member ordered
  rcases List.mem_cons.mp member with rfl | member
  · exact Nat.le_refl other
  · exact Nat.le_of_lt ((List.pairwise_cons.mp ordered).1 other member)

/-- A bracket that is never closed is open at every later position. -/
theorem mem_openBefore_of_unclosed (unclosed : Unclosed leaves opening) :
    ∀ position, opening < position → opening ∈ openBefore leaves position := by
  obtain ⟨⟨bracket, first, opens⟩, unmatched⟩ := unclosed
  intro position
  induction position with
  | zero => exact fun before => absurd before (Nat.not_lt_zero opening)
  | succ position ih =>
      intro before
      by_cases here : opening = position
      · subst here
        rw [openBefore_succ first, Leaf.openBehind, bracket_opening_iff.mpr opens]
        exact List.mem_cons_self
      · exact stays_openBefore (ih (by omega)) (unmatched position)

theorem not_mem_openBefore_of_matched (matched : Matched leaves opening closing)
    (behind : closing < position) : opening ∉ openBefore leaves position := by
  obtain ⟨⟨bracket, last, closes⟩, latest⟩ := matched
  obtain ⟨earlier, stack⟩ := List.head?_eq_some_iff.mp latest
  have ordered := pairwise_openBefore leaves closing
  have opened : opening ∈ openBefore leaves closing := by
    rw [stack]
    exact List.mem_cons_self
  rw [stack] at ordered
  rw [openBefore_eq behind]
  apply not_mem_openFrom _ (Nat.lt_succ_of_lt (opened_of_mem opened).1)
  rw [openBefore_succ last, Leaf.openBehind, bracket_closing_iff.mpr closes, stack]
  intro member
  exact Nat.lt_irrefl opening ((List.pairwise_cons.mp ordered).1 opening member)

/-- The unclosed brackets are those still open at the end. -/
theorem unclosed_iff : Unclosed leaves opening ↔ opening ∈ openBefore leaves leaves.length := by
  constructor
  · intro unclosed
    obtain ⟨content, there, -⟩ := unclosed.1
    exact mem_openBefore_of_unclosed unclosed _ (List.getElem?_eq_some_iff.mp there).1
  · intro member
    refine ⟨(opened_of_mem member).2, ?_⟩
    intro closing matched
    obtain ⟨content, there, -⟩ := matched.1
    exact not_mem_openBefore_of_matched matched (List.getElem?_eq_some_iff.mp there).1 member

/-- Brackets that are open where an unclosed one opens are never closed either. -/
theorem unclosed_of_mem_openBefore {outer : Nat} (unclosed : Unclosed leaves opening)
    (member : outer ∈ openBefore leaves opening) : Unclosed leaves outer := by
  obtain ⟨earlier, there⟩ := opened_of_mem member
  refine ⟨there, ?_⟩
  intro closing matched
  by_cases behind : opening < closing
  · have latest := le_of_matched matched (mem_openBefore_of_unclosed unclosed closing behind)
    omega
  · by_cases here : closing = opening
    · subst here
      obtain ⟨⟨content, first, opens⟩, -⟩ := unclosed
      obtain ⟨⟨bracket, last, closes⟩, -⟩ := matched
      rw [first] at last
      cases last
      have kind := bracket_opening_iff.mpr opens
      rw [bracket_closing_iff.mpr closes] at kind
      cases kind
    · exact not_mem_openBefore_of_matched matched (by omega) member

/-! ## Balanced brackets -/

theorem openFrom_of_balances (outer : List Nat) (leaves : List Leaf) :
    ∀ {here inner}, balances inner.length (bracketsOf leaves) = true →
      openFrom here (inner ++ outer) leaves = outer := by
  induction leaves with
  | nil =>
      intro here inner balanced
      have noInner : inner = [] := List.length_eq_zero_iff.mp (of_decide_eq_true balanced)
      rw [noInner]
      rfl
  | cons content rest ih =>
      intro here inner balanced
      rw [bracketsOf, List.filterMap_cons] at balanced
      rw [openFrom, Leaf.openBehind]
      cases kind : content.bracket? with
      | none =>
          rw [kind] at balanced
          exact ih balanced
      | some bracket =>
          rw [kind] at balanced
          cases bracket with
          | opening => exact @ih _ (here :: inner) balanced
          | closing =>
              cases inner with
              | nil => cases balanced
              | cons latest inner => exact ih balanced

theorem balances_of_openFrom {outer : List Nat} (leaves : List Leaf) :
    ∀ {here inner}, opening < here → opening ∉ inner → opening ∉ outer →
      (openFrom here (inner ++ opening :: outer) leaves).head? = some opening →
      balances inner.length (bracketsOf leaves) = true := by
  induction leaves with
  | nil =>
      intro here inner before apart gone latest
      cases inner with
      | nil => rfl
      | cons later inner =>
          cases latest
          exact absurd List.mem_cons_self apart
  | cons content rest ih =>
      intro here inner before apart gone latest
      rw [openFrom, Leaf.openBehind] at latest
      rw [bracketsOf, List.filterMap_cons]
      cases kind : content.bracket? with
      | none =>
          rw [kind] at latest
          exact ih (Nat.lt_succ_of_lt before) apart gone latest
      | some bracket =>
          rw [kind] at latest
          cases bracket with
          | opening =>
              have apartHere : opening ∉ here :: inner := by
                intro member
                rcases List.mem_cons.mp member with same | member
                · omega
                · exact apart member
              exact ih (Nat.lt_succ_of_lt before) apartHere gone latest
          | closing =>
              cases inner with
              | nil =>
                  have closed := not_mem_openFrom rest (Nat.lt_succ_of_lt before) gone
                  exact absurd (List.mem_of_mem_head? latest) closed
              | cons later inner =>
                  exact ih (Nat.lt_succ_of_lt before)
                    (fun member => apart (List.mem_cons_of_mem later member)) gone latest

/-- Brackets are matched if those between them are balanced, and only then. -/
theorem matched_iff : Matched leaves opening closing ↔ opening < closing ∧
    (∃ content, leaves[opening]? = some content ∧ content.opensBracket = true) ∧
    (∃ content, leaves[closing]? = some content ∧ content.closesBracket = true) ∧
    balances 0 (bracketsOf ((leaves.take closing).drop (opening + 1))) = true := by
  constructor
  · intro matched
    obtain ⟨closes, latest⟩ := matched
    have opened := List.mem_of_mem_head? latest
    obtain ⟨before, content, there, opens⟩ := opened_of_mem opened
    refine ⟨before, ⟨content, there, opens⟩, closes, ?_⟩
    rw [openBefore_eq before, openBefore_succ there, Leaf.openBehind,
      bracket_opening_iff.mpr opens] at latest
    exact balances_of_openFrom _ (Nat.lt_succ_self opening) List.not_mem_nil
      (fun member => Nat.lt_irrefl opening (opened_of_mem member).1) latest
  · rintro ⟨before, ⟨content, there, opens⟩, closes, balanced⟩
    refine ⟨closes, ?_⟩
    rw [openBefore_eq before, openBefore_succ there, Leaf.openBehind,
      bracket_opening_iff.mpr opens]
    dsimp only
    have stack := @openFrom_of_balances (opening :: openBefore leaves opening) _ (opening + 1) []
      balanced
    rw [List.nil_append] at stack
    rw [stack, List.head?_cons]

end Scan

/-- At some position as many brackets are open as anywhere. -/
theorem exists_length_openBefore (leaves : List Leaf) :
    ∃ position, deepest 0 (bracketsOf leaves) ≤ (openBefore leaves position).length := by
  cases most : deepest 0 (bracketsOf leaves) with
  | zero => exact ⟨0, Nat.zero_le _⟩
  | succ limit =>
      have beyond : limit < deepest 0 (bracketsOf leaves) := by omega
      obtain ⟨front, begins, deep⟩ := lt_deepest_iff.mp beyond
      obtain ⟨read, prefix_read, rfl⟩ := List.prefix_filterMap_iff.mp begins
      refine ⟨read.length, ?_⟩
      rw [openBefore, ← List.prefix_iff_eq_take.mp prefix_read, length_openFrom]
      exact deep

end SqlMetrics
