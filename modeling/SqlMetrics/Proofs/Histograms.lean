import Mathlib.Data.Rat.Floor
import SqlMetrics.Proofs.Distribution

/-! # The bins of a histogram

Every value is counted in one of the ten bins, in any arithmetic whatever: the counts are those of a
loop that puts the values into their bins one after the other (`counts_bins`).  In exact arithmetic
the bins cut the range of the values into ten pieces of the same width, and a bin counts the values
that lie in its piece (`binOf_eq_iff`).  `bins_share_values` says both. -/
set_option autoImplicit false
namespace SqlMetrics

/-- Exact arithmetic.  The whole units of a number that is not negative are its floor. -/
instance : BinArithmetic ℚ where
  ofNat number := number
  half := 1 / 2
  least values := values.min?.getD 0
  greatest values := values.max?.getD 0
  equal left right := left = right
  wholeUnits value := ⌊value⌋₊

namespace Histogram

/-! ## One value after the other -/

section Loop
variable {α : Type}

def tallied (size : Nat) (label : α → Nat) (values : List α) : List Nat :=
  values.foldl (fun counts value => counts.modify (label value) (· + 1)) (List.replicate size 0)

theorem modify_map_range (size bin : Nat) (count : Nat → Nat) :
    ((List.range size).map count).modify bin (· + 1) =
      (List.range size).map fun number => count number + if bin = number then 1 else 0 := by
  apply List.ext_getElem?
  intro number
  rw [List.getElem?_modify, List.getElem?_map, List.getElem?_map]
  by_cases inside : number < size
  · by_cases same : bin = number <;> simp [inside, same]
  · simp [Nat.le_of_not_lt inside]

theorem tallied_eq (size : Nat) (label : α → Nat) (values : List α) :
    tallied size label values =
      (List.range size).map fun number => values.countP (label · = number) := by
  induction values using List.reverseRecOn with
  | nil => simp [tallied, List.map_const']
  | append_singleton before value ih =>
      have step : tallied size label (before ++ [value]) =
          (tallied size label before).modify (label value) (· + 1) := by
        rw [tallied, List.foldl_concat]
        rfl
      rw [step, ih, modify_map_range]
      simp [List.countP_append, List.countP_cons]

end Loop

section Bins
variable {α : Type} [BinArithmetic α]

theorem binOf_lt (bounds : α × α) (value : α) : binOf bounds value < binCount :=
  Nat.lt_of_le_of_lt (Nat.min_le_right _ _) (by decide)

theorem bins_of_ne_nil {values : List α} (filled : values ≠ []) :
    bins values = (List.range binCount).map (bin values (range values)) := by
  rw [bins, List.isEmpty_eq_false_iff.mpr filled, if_neg Bool.false_ne_true]

theorem counts_bins {values : List α} (filled : values ≠ []) :
    (bins values).map Bin.count = tallied binCount (binOf (range values)) values := by
  rw [bins_of_ne_nil filled, List.map_map, tallied_eq]
  rfl

end Bins

/-! ## Pieces of a range -/

section Exact
variable {values : List ℚ} {low high value : ℚ} {number : Nat}

/-- The least and the greatest of some values, moved apart by a half each if they are equal. -/
def Spans (low high : ℚ) (values : List ℚ) : Prop :=
  ∃ least ∈ values, ∃ greatest ∈ values, (∀ value ∈ values, least ≤ value ∧ value ≤ greatest) ∧
    (low, high) = if least = greatest then (least - 1 / 2, greatest + 1 / 2) else (least, greatest)

theorem spans_range (filled : values ≠ []) : Spans (range values).1 (range values).2 values := by
  obtain ⟨least, first⟩ := Option.isSome_iff_exists.mp (List.isSome_min?_of_ne_nil filled)
  obtain ⟨greatest, last⟩ := Option.isSome_iff_exists.mp (List.isSome_max?_of_ne_nil filled)
  obtain ⟨leastIn, below⟩ := List.min?_eq_some_iff.mp first
  obtain ⟨greatestIn, above⟩ := List.max?_eq_some_iff.mp last
  refine ⟨least, leastIn, greatest, greatestIn, ?_, ?_⟩
  · intro value among
    exact ⟨below value among, above value among⟩
  · have lower : BinArithmetic.least values = least := by
      change values.min?.getD 0 = least
      rw [first, Option.getD_some]
    have upper : BinArithmetic.greatest values = greatest := by
      change values.max?.getD 0 = greatest
      rw [last, Option.getD_some]
    have test : BinArithmetic.equal least greatest = decide (least = greatest) := rfl
    rw [range, lower, upper, test]
    by_cases same : least = greatest
    · rw [if_pos same, if_pos (decide_eq_true same)]
      rfl
    · rw [if_neg same, if_neg (by simpa using same)]

theorem Spans.lt (spans : Spans low high values) : low < high := by
  obtain ⟨least, leastIn, greatest, -, between, bounds⟩ := spans
  have ordered := (between least leastIn).2
  by_cases same : least = greatest
  · rw [if_pos same, Prod.mk.injEq] at bounds
    linarith
  · have apart : least < greatest := lt_of_le_of_ne ordered same
    rw [if_neg same, Prod.mk.injEq] at bounds
    linarith

theorem Spans.between (spans : Spans low high values) (among : value ∈ values) :
    low ≤ value ∧ value ≤ high := by
  obtain ⟨least, -, greatest, -, between, bounds⟩ := spans
  have inside := between value among
  by_cases same : least = greatest
  · rw [if_pos same, Prod.mk.injEq] at bounds
    constructor <;> linarith
  · rw [if_neg same, Prod.mk.injEq] at bounds
    constructor <;> linarith

theorem startOf_eq (low high : ℚ) (number : Nat) :
    startOf (low, high) number = low + (high - low) / 10 * number := rfl

theorem startOf_succ (low high : ℚ) (number : Nat) :
    startOf (low, high) (number + 1) = startOf (low, high) number + (high - low) / 10 := by
  rw [startOf_eq, startOf_eq]
  push_cast
  ring

theorem startOf_binCount (low high : ℚ) : startOf (low, high) binCount = high := by
  rw [startOf_eq, binCount]
  push_cast
  ring

/-- So many whole widths of a bin lie below a value that is at or behind the start of the bin with
that number. -/
theorem startOf_le_iff (apart : low < high) :
    startOf (low, high) number ≤ value ↔ (number : ℚ) ≤ (value - low) / ((high - low) / 10) := by
  have width : 0 < (high - low) / 10 := by linarith
  rw [startOf_eq, le_div_iff₀ width]
  constructor <;> intro below <;> linarith

/-- The value lies in the bin: behind its start, and before its end or, in the last bin, at it. -/
def Within (value : ℚ) (bin : Bin ℚ) : Prop :=
  bin.start ≤ value ∧ (value < bin.stop ∨ bin.isLast = true ∧ value ≤ bin.stop)

instance (value : ℚ) (bin : Bin ℚ) : Decidable (Within value bin) :=
  inferInstanceAs (Decidable (_ ∧ _))

/-- The bin that a value is counted in is the one it lies in. -/
theorem binOf_eq_iff (apart : low < high) (inside : low ≤ value ∧ value ≤ high)
    (bounded : number < binCount) :
    binOf (low, high) value = number ↔ Within value (bin values (low, high) number) := by
  have width : 0 < (high - low) / 10 := by linarith
  have positive : 0 ≤ (value - low) / ((high - low) / 10) :=
    div_nonneg (by linarith) (le_of_lt width)
  have units : binOf (low, high) value = min ⌊(value - low) / ((high - low) / 10)⌋₊ 9 := rfl
  have behind : number ≤ ⌊(value - low) / ((high - low) / 10)⌋₊ ↔
      startOf (low, high) number ≤ value := by
    rw [Nat.le_floor_iff positive, startOf_le_iff apart]
  have before : ⌊(value - low) / ((high - low) / 10)⌋₊ < number + 1 ↔
      value < startOf (low, high) (number + 1) := by
    rw [Nat.floor_lt positive, ← not_le, ← not_le, startOf_le_iff apart]
  rw [units, Within, bin]
  dsimp only
  rw [← behind]
  by_cases last : number + 1 = binCount
  · have number_eq : number = 9 := by rw [binCount] at last; omega
    simp only [last, decide_true, if_true, inside.2, or_true, and_true]
    omega
  · simp only [last, decide_false, if_false, Bool.false_eq_true, false_and, or_false, ← before]
    rw [binCount] at last bounded
    omega

/-- The bins cut the range from `low` to `high` into ten pieces without gaps, the last one marked,
and each counts the values that lie in it. -/
structure Partitions (low high : ℚ) (values : List ℚ) (bins : List (Bin ℚ)) : Prop where
  size : bins.length = 10
  first : bins.head?.map Bin.start = some low
  last : bins.getLast?.map Bin.stop = some high
  adjoining : bins.IsChain fun bin next => bin.stop = next.start
  widths : ∀ bin ∈ bins, bin.stop - bin.start = (high - low) / 10
  positive : ∀ bin ∈ bins, bin.start < bin.stop
  marked : ∀ number bin, bins[number]? = some bin → (bin.isLast = true ↔ number = 9)
  counted : ∀ bin ∈ bins, bin.count = values.countP (Within · bin)

theorem stop_bin (values : List ℚ) (low high : ℚ) (number : Nat) :
    (bin values (low, high) number).stop = startOf (low, high) (number + 1) := by
  by_cases last : number + 1 = binCount
  · rw [bin, if_pos last, last, startOf_binCount]
  · rw [bin, if_neg last]

theorem partitions_bins (filled : values ≠ []) :
    Partitions (range values).1 (range values).2 values (bins values) := by
  have spans := spans_range filled
  rw [bins_of_ne_nil filled]
  generalize range values = bounds at spans ⊢
  obtain ⟨low, high⟩ := bounds
  have apart := spans.lt
  have width (number : Nat) : (bin values (low, high) number).stop -
      (bin values (low, high) number).start = (high - low) / 10 := by
    rw [stop_bin, startOf_succ, bin]
    ring
  constructor
  · rfl
  · change Option.some (startOf (low, high) 0) = _
    rw [startOf_eq]
    simp
  · rfl
  · rw [List.isChain_iff_getElem]
    intro number _
    rw [List.getElem_map, List.getElem_map, List.getElem_range, List.getElem_range, stop_bin]
    rfl
  · intro piece among
    obtain ⟨number, -, rfl⟩ := List.mem_map.mp among
    exact width number
  · intro piece among
    obtain ⟨number, -, rfl⟩ := List.mem_map.mp among
    have same := width number
    linarith
  · intro number piece found
    rw [List.getElem?_map, Option.map_eq_some_iff] at found
    obtain ⟨same, there, rfl⟩ := found
    obtain ⟨inside, here⟩ := List.getElem?_eq_some_iff.mp there
    rw [List.getElem_range] at here
    rw [bin, decide_eq_true_eq, binCount]
    omega
  · intro piece among
    obtain ⟨number, inside, rfl⟩ := List.mem_map.mp among
    refine List.countP_congr fun value held => ?_
    simp only [decide_eq_true_eq]
    exact binOf_eq_iff apart (spans.between held) (List.mem_range.mp inside)

end Exact

end Histogram

open Histogram

/-- A histogram of doubles has ten bins, puts each value into one of them, whatever numbers or none
there are, and counts every value once.  In exact arithmetic its bins cut the range from the least
to the greatest value into ten pieces, and each counts the values that lie in it. -/
theorem bins_share_values :
    (∀ values : List Float, values ≠ [] →
      (bins values).length = 10 ∧
      (∀ value ∈ values, binOf (range values) value < 10) ∧
      (bins values).map Bin.count = tallied 10 (binOf (range values)) values ∧
      ((bins values).map Bin.count).sum = values.length) ∧
    ∀ values : List ℚ, values ≠ [] →
      ∃ low high, Spans low high values ∧ Partitions low high values (bins values) := by
  refine ⟨?_, ?_⟩
  · intro values filled
    refine ⟨?_, fun value _ => binOf_lt _ value, counts_bins filled, sum_count_bins filled⟩
    rw [bins_of_ne_nil filled, List.length_map, List.length_range, binCount]
  · intro values filled
    exact ⟨_, _, spans_range filled, partitions_bins filled⟩

/-- Values that are no numbers, and equal ones, which lie in the sixth bin of a range of one. -/
theorem bins_of_equal_values :
    (∃ values : List Float, values = [0 / 0, 1 / 0, 1] ∧ values ≠ [] ∧
      ((bins values).map Bin.count).sum = 3) ∧
    ∃ low high bins, bins = Histogram.bins [(2 : ℚ), 2] ∧ Spans low high [2, 2] ∧
      Partitions low high [2, 2] bins ∧ bins.map Bin.count = [0, 0, 0, 0, 0, 2, 0, 0, 0, 0] := by
  obtain ⟨doubles, rationals⟩ := bins_share_values
  have filled : ([2, 2] : List ℚ) ≠ [] := List.cons_ne_nil _ _
  obtain ⟨low, high, spans, partitions⟩ := rationals [2, 2] filled
  have numbers : ([0 / 0, 1 / 0, 1] : List Float) ≠ [] := List.cons_ne_nil _ _
  refine ⟨⟨_, rfl, numbers, (doubles _ numbers).2.2.2⟩, low, high, _, rfl, spans, partitions, ?_⟩
  decide +kernel

end SqlMetrics
