import SqlMetrics.Proofs.Depth
import SqlMetrics.Proofs.Terms

/-! # Leaves with balanced brackets

Reading leaves whose brackets balance never touches what was read before them: whatever brackets are
open, the leaves become the same nodes of the innermost one (`exists_nests`).  So they are a piece
of any level they stand in (`exists_level`).  And what stands behind leaves that leave no bracket
open is nested as if it stood alone (`nested_append`). -/
set_option autoImplicit false
namespace SqlMetrics

namespace OpenGroups

/-! ## Levels on top of others -/

/-- The open groups with more of them inside the innermost one: the level `inner`, those around it,
and the last of these goes on with the innermost level there was. -/
def atop (base : OpenGroups) (inner : List Node) : List (List Node) → OpenGroups
  | [] => ⟨inner ++ base.inner, base.outer⟩
  | around :: further =>
      ⟨inner, (base.atop around further).inner :: (base.atop around further).outer⟩

variable (base : OpenGroups) (inner around : List Node) (outer : List (List Node))

theorem depth_atop : (base.atop inner outer).depth = base.depth + outer.length := by
  induction outer generalizing inner with
  | nil => rfl
  | cons around further ih =>
      have below := ih around
      rw [depth] at below
      rw [depth, atop, List.length_cons, below, List.length_cons, Nat.add_assoc]

theorem push_atop (node : Node) :
    (base.atop inner outer).push node = base.atop (node :: inner) outer := by
  cases outer <;> rfl

theorem close_atop :
    (base.atop inner (around :: outer)).close =
      base.atop (.group .parenthesis inner.reverse :: around) outer := by
  rw [← push_atop]
  rfl

theorem closing_atop (content : Leaf) :
    (base.atop inner (around :: outer)).closing content =
      base.atop (.group .parenthesis (.leaf content :: inner).reverse :: around) outer := by
  have someOpen : (base.atop inner (around :: outer)).depth ≠ 0 := by
    rw [depth_atop, List.length_cons]
    omega
  rw [closing, if_neg someOpen, push_atop, close_atop]

/-- Brackets that close no more than the levels on top leave the base as it is, and what they become
there does not depend on it. -/
theorem exists_read_atop {room : Nat} (leaves : List Leaf) :
    ∀ inner outer, balances outer.length (bracketsOf leaves) = true →
      deepest outer.length (bracketsOf leaves) ≤ room →
      ∃ last, ∀ limit base, depth base + room ≤ limit →
        leaves.foldlM (read? limit) (base.atop inner outer) = some (base.atop last []) := by
  -- The levels on top change with every bracket; limit and base stay behind `last`, so that it
  -- cannot depend on them.
  induction leaves with
  | nil =>
      intro inner outer balanced _
      have noOuter : outer.length = 0 := by simpa [bracketsOf, balances] using balanced
      rw [List.length_eq_zero_iff.mp noOuter]
      exact ⟨inner, fun _ _ _ => rfl⟩
  | cons content rest ih =>
      intro inner outer balanced within
      rw [bracketsOf, List.filterMap_cons] at balanced within
      cases kind : content.bracket? with
      | none =>
          rw [kind] at balanced within
          obtain ⟨last, read⟩ := ih (.leaf content :: inner) outer balanced within
          refine ⟨last, fun limit base enough => ?_⟩
          rw [List.foldlM_cons, read_eq, kind]
          simp only [push_atop]
          exact read limit base enough
      | some bracket =>
          rw [kind] at balanced within
          dsimp only at balanced within
          rw [deepest, Nat.max_le] at within
          cases bracket with
          | opening =>
              obtain ⟨last, read⟩ := ih [.leaf content] (inner :: outer) balanced within.2
              refine ⟨last, fun limit base enough => ?_⟩
              have deeper : outer.length + 1 ≤ room := Nat.le_trans (le_deepest _ _) within.2
              have fits : (base.atop inner outer).depth < limit := by
                rw [depth_atop]
                omega
              rw [List.foldlM_cons, read_eq, kind]
              simp only [if_pos fits]
              exact read limit base enough
          | closing =>
              cases outer with
              | nil => cases balanced
              | cons around further =>
                  obtain ⟨last, read⟩ := ih
                    (.group .parenthesis (.leaf content :: inner).reverse :: around) further
                    balanced within.2
                  refine ⟨last, fun limit base enough => ?_⟩
                  rw [List.foldlM_cons, read_eq, kind]
                  simp only [closing_atop]
                  exact read limit base enough

/-! ## Reading behind what is closed -/

theorem read_atop (closed : base.outer = []) (limit : Nat) (content : Leaf) :
    (base.atop inner outer).read? limit content =
      (read? limit ⟨inner, outer⟩ content).map fun groups =>
        base.atop groups.inner groups.outer := by
  have baseDepth : base.depth = 0 := congrArg List.length closed
  have depth : (base.atop inner outer).depth = (mk inner outer).depth := by
    rw [depth_atop, baseDepth, Nat.zero_add]
    rfl
  rw [read_eq, read_eq]
  cases content.bracket? with
  | none => exact congrArg some (push_atop base inner outer (.leaf content))
  | some bracket =>
      cases bracket with
      | opening =>
          simp only [depth]
          split
          · rfl
          · rfl
      | closing =>
          cases outer with
          | nil =>
              have outside : (base.atop inner []).depth = 0 := depth
              rw [closing, if_pos outside, push_atop]
              rfl
          | cons around further =>
              rw [closing_atop]
              rfl

theorem foldlM_atop (closed : base.outer = []) (limit : Nat) (leaves : List Leaf) :
    leaves.foldlM (read? limit) (base.atop inner outer) =
      (leaves.foldlM (read? limit) ⟨inner, outer⟩).map fun groups =>
        base.atop groups.inner groups.outer := by
  induction leaves generalizing inner outer with
  | nil => rfl
  | cons content rest ih =>
      rw [List.foldlM_cons, List.foldlM_cons, base.read_atop inner outer closed]
      cases read? limit ⟨inner, outer⟩ content with
      | none => rfl
      | some next => exact ih next.inner next.outer

theorem closeAll_atop (closed : base.outer = []) :
    closeAll (base.atop inner outer).inner (base.atop inner outer).outer =
      base.inner.reverse ++ closeAll inner outer := by
  induction outer generalizing inner with
  | nil => rw [atop, closed, closeAll, closeAll, List.reverse_append]
  | cons around further ih =>
      have below := ih (.group .parenthesis inner.reverse :: around)
      rw [← push_atop] at below
      exact below

end OpenGroups

section Append
variable {limit room : Nat} {front back leaves : List Leaf} {nested nodes : List Node}

/-- Leaves behind which no bracket is open are nested apart from those that follow. -/
theorem nested_append (closed : depthAfter 0 (bracketsOf front) = 0)
    (nests : nestBrackets limit (front ++ back) = some nested) :
    ∃ nodes more, nestBrackets limit front = some nodes ∧ nestBrackets limit back = some more ∧
      nested = nodes ++ more := by
  obtain ⟨last, run, rfl⟩ := Option.map_eq_some_iff.mp nests
  rw [List.foldlM_append] at run
  obtain ⟨base, runFront, runBack⟩ := Option.bind_eq_some_iff.mp run
  have depth := OpenGroups.depth_run (OpenGroups.reads_of_foldlM front runFront)
  have baseClosed : base.outer = [] := List.length_eq_zero_iff.mp (depth.trans closed)
  have start : base.atop [] [] = base := rfl
  rw [← start, base.foldlM_atop [] [] baseClosed] at runBack
  obtain ⟨behind, runBehind, rfl⟩ := Option.map_eq_some_iff.mp runBack
  refine ⟨_, _, Option.map_eq_some_iff.mpr ⟨base, runFront, rfl⟩,
    Option.map_eq_some_iff.mpr ⟨behind, runBehind, rfl⟩, ?_⟩
  rw [base.closeAll_atop _ _ baseClosed, baseClosed, OpenGroups.closeAll]

/-- No bracket is open behind leaves that are nodes wherever they stand. -/
theorem Nests.closed (nests : Nests room leaves nodes) :
    depthAfter 0 (bracketsOf leaves) = 0 := by
  have run := nests room {} (Nat.le_of_eq (Nat.zero_add room))
  exact (OpenGroups.depth_run (OpenGroups.reads_of_foldlM leaves run)).symm

end Append

section Balanced
variable {room : Nat} {leaves : List Leaf}

/-- Balanced leaves are read in the same way wherever there is room for them. -/
theorem exists_nests (balanced : balances 0 (bracketsOf leaves) = true)
    (within : deepest 0 (bracketsOf leaves) ≤ room) : ∃ nodes, Nests room leaves nodes := by
  obtain ⟨last, read⟩ := OpenGroups.exists_read_atop leaves [] [] balanced within
  refine ⟨last.reverse, fun limit groups enough => ?_⟩
  rw [List.reverse_reverse]
  exact read limit groups enough

theorem exists_level (balanced : balances 0 (bracketsOf leaves) = true)
    (within : deepest 0 (bracketsOf leaves) ≤ room) : ∃ nodes, Level room leaves nodes := by
  obtain ⟨nested, nests⟩ := exists_nests balanced within
  exact ⟨_, nested, nests, rfl⟩

end Balanced
end SqlMetrics
