import Mathlib.Logic.Basic
import Mathlib.Tactic.SplitIfs
import SqlMetrics.Node

/-! # Nodes of two kinds in turn

Operands with operators between them and members with commas between them are both a stretch of
nodes of two kinds in turn (`InTurn`).  Among other nodes such a stretch can be carried on at its
front by a pair of the two kinds (`EndsInPair`, `before_eq_nil`) and at its end by a node of the
kind whose turn it is; a stretch that a wider one does not hold is a widest one (`Widest`). -/
set_option autoImplicit false
namespace SqlMetrics

/-- The nodes are of two kinds in turn, and the first of them is of the first kind. -/
def InTurn (first second : Node → Bool) : List Node → Prop
  | [] => True
  | node :: rest => first node = true ∧ InTurn second first rest

instance InTurn.decidable (first second : Node → Bool) :
    (nodes : List Node) → Decidable (InTurn first second nodes)
  | [] => .isTrue trivial
  | node :: rest =>
      have := InTurn.decidable second first rest
      inferInstanceAs (Decidable (first node = true ∧ InTurn second first rest))

/-- A stretch among other nodes has a property, and no wider one around it has. -/
structure Widest (property : List Node → Prop) (front stretch behind : List Node) : Prop where
  here : property stretch
  noWider : ∀ outer before after beyond, front = outer ++ before → behind = after ++ beyond →
    property (before ++ stretch ++ after) → before = [] ∧ after = []

/-- The nodes end with one of the first kind and one of the second. -/
def EndsInPair (first second : Node → Bool) (nodes : List Node) : Prop :=
  ∃ one other, [one, other] <:+ nodes ∧ first one = true ∧ second other = true

variable {first second : Node → Bool} {front behind nodes stretch : List Node}

theorem inTurn_append : InTurn first second (front ++ behind) ↔
    InTurn first second front ∧
      if front.length % 2 = 0 then InTurn first second behind else InTurn second first behind := by
  induction front generalizing first second with
  | nil => simp [InTurn]
  | cons node rest ih =>
      rw [List.cons_append, InTurn, InTurn, ih, and_assoc, List.length_cons]
      refine and_congr_right fun _ => and_congr_right fun _ => ?_
      rcases Nat.mod_two_eq_zero_or_one rest.length with even | odd
      · rw [if_pos even, if_neg (by omega)]
      · rw [if_neg (by omega), if_pos (by omega)]

theorem InTurn.of_append (inTurn : InTurn first second (front ++ behind)) :
    InTurn first second front :=
  (inTurn_append.mp inTurn).1

/-! ## Pairs -/

theorem EndsInPair.mono (ends : EndsInPair first second stretch) (inside : stretch <:+ nodes) :
    EndsInPair first second nodes := by
  obtain ⟨one, other, last, kinds⟩ := ends
  exact ⟨one, other, last.trans inside, kinds⟩

/-- Of two parts the second one ends in a pair, unless it is shorter than that. -/
theorem endsInPair_append (ends : EndsInPair first second (front ++ behind)) :
    behind = [] ∨ (∃ other, behind = [other] ∧ second other = true) ∨
      EndsInPair first second behind := by
  obtain ⟨one, other, last, isFirst, isSecond⟩ := ends
  rcases List.suffix_or_suffix_of_suffix (List.suffix_append front behind) last with short | long
  · rcases List.suffix_cons_iff.mp short with rfl | shorter
    · exact .inr (.inr ⟨one, other, List.suffix_refl _, isFirst, isSecond⟩)
    · rcases List.suffix_cons_iff.mp shorter with rfl | empty
      · exact .inr (.inl ⟨other, rfl, isSecond⟩)
      · exact .inl (List.suffix_nil.mp empty)
  · exact .inr (.inr ⟨one, other, long, isFirst, isSecond⟩)

theorem nil_or_endsInPair {pairs : List Node} (even : pairs.length % 2 = 0)
    (inTurn : InTurn first second pairs) : pairs = [] ∨ EndsInPair first second pairs := by
  match pairs with
  | [] => exact .inl rfl
  | [_] => cases even
  | one :: other :: rest =>
      obtain ⟨isFirst, isSecond, later⟩ := inTurn
      have fewer : rest.length % 2 = 0 := by
        simp only [List.length_cons] at even
        omega
      rcases nil_or_endsInPair fewer later with rfl | ends
      · exact .inr ⟨one, other, List.suffix_refl _, isFirst, isSecond⟩
      · exact .inr (ends.mono ((List.suffix_cons other rest).trans (List.suffix_cons one _)))

/-- Nodes that carry a stretch on at its front are pairs, so there are none where no pair ends. -/
theorem before_eq_nil {outer before after : List Node}
    (different : ∀ node, first node = true → second node = false) (filled : stretch ≠ [])
    (here : InTurn first second stretch) (apart : ¬ EndsInPair first second (outer ++ before))
    (wider : InTurn first second (before ++ (stretch ++ after))) : before = [] := by
  obtain ⟨taken, later⟩ := inTurn_append.mp wider
  rcases Nat.mod_two_eq_zero_or_one before.length with even | odd
  · rcases nil_or_endsInPair even taken with empty | ends
    · exact empty
    · exact absurd (ends.mono (List.suffix_append outer before)) apart
  · -- The first node of the stretch would be of both kinds.
    rw [if_neg (by omega)] at later
    match stretch with
    | [] => exact absurd rfl filled
    | node :: rest =>
        exact absurd ((different node here.1).symm.trans later.1) Bool.false_ne_true

end SqlMetrics
