import Mathlib.Algebra.Order.Field.Basic
import SqlMetrics.Proofs.Decimal.Near
import SqlMetrics.Weights

/-! # Scores

A score is found term by term, and doubles round.  With the default weights they do not: for counts
up to `2 ^ 47`, and for the sum of two such counts, every term and every sum that the score runs
through is a number of halves that a double has.  So the complexity is what its formula says, it is
additive, and the length of the query does not change it (`default_scores_exact`). -/
set_option autoImplicit false
namespace SqlMetrics

/-! ## The steps of a score -/

def Weights.term (weights : Weights) (features : Features) (feature : Feature) : Float :=
  Float.ofInt (features.get feature) * weights.get (.feature feature)

/-- The sums that a score runs through: of the first term, of the first two, and so on. -/
def Weights.partialSums (weights : Weights) (features : Features) : List Float :=
  (Feature.all.tail.map (weights.term features)).scanl (· + ·) (weights.term features .joins)

def Feature.halves : Feature → Int
  | .joins => 3
  | .subqueries => 4
  | .whereConditions => 2
  | .functions => 3
  | .tables => 2
  | .groupBy => 2
  | .orderBy => 2

namespace Features

def halves (features : Features) (feature : Feature) : Int :=
  features.get feature * feature.halves

def halfSums (features : Features) : List Int :=
  (Feature.all.tail.map features.halves).scanl (· + ·) (features.halves .joins)

/-- The complexity in halves, by its formula. -/
def complexityHalves (features : Features) : Int :=
  3 * features.joins + 4 * features.subqueries + 2 * features.whereConditions +
    3 * features.functions + 2 * features.tables + 2 * features.groupBy + 2 * features.orderBy

theorem get_add (first second : Features) (feature : Feature) :
    (first + second).get feature = first.get feature + second.get feature := by
  cases feature <;> rfl

theorem complexityHalves_eq (features : Features) :
    features.complexityHalves = 3 * features.get .joins + 4 * features.get .subqueries +
      2 * features.get .whereConditions + 3 * features.get .functions +
      2 * features.get .tables + 2 * features.get .groupBy + 2 * features.get .orderBy :=
  rfl

theorem complexityHalves_add (first second : Features) :
    (first + second).complexityHalves = first.complexityHalves + second.complexityHalves := by
  simp only [complexityHalves_eq, get_add]
  ring

end Features

/-! ## Halves -/

/-- A double denotes a number of halves, which is not beyond `2 ^ 52`. -/
def DenotesHalves (value : Float) (halves : Int) : Prop :=
  Denotes value (halves / 2) ∧ |(halves / 2 : ℚ)| ≤ 2 ^ 52

section Halves
variable {value other : Float} {halves more : Int}

theorem halves_le_iff : |(halves / 2 : ℚ)| ≤ 2 ^ 52 ↔ |halves| ≤ 2 ^ 53 := by
  rw [abs_div, abs_two, div_le_iff₀ (by norm_num), ← pow_succ]
  exact_mod_cast Iff.rfl

theorem isDouble_halves (small : |halves| ≤ 2 ^ 53) : IsDouble (halves / 2) := by
  rw [Int.abs_eq_natAbs] at small
  have double := isDouble_mul_two_zpow (show halves.natAbs ≤ 2 ^ 53 by omega)
    (show -1022 ≤ -1 by decide) (by decide)
  rwa [zpow_neg_one, ← div_eq_mul_inv] at double

theorem DenotesHalves.add (left : DenotesHalves value halves) (right : DenotesHalves other more)
    (small : |halves + more| ≤ 2 ^ 53) : DenotesHalves (value + other) (halves + more) := by
  have sum : (halves / 2 : ℚ) + more / 2 = (halves + more : Int) / 2 := by
    push_cast
    ring
  have denotes := left.1.add right.1 (by rw [sum]; exact isDouble_halves small)
  rw [sum] at denotes
  exact ⟨denotes, halves_le_iff.mpr small⟩

end Halves

/-! ## Scores with the default weights -/

theorem denotes_weight (feature : Feature) :
    Denotes (({} : Weights).get (.feature feature)) (feature.halves / 2) := by
  have oneAndHalf : Denotes 1.5 ((3 : Int) / 2) := by
    have parts : BinaryParts.ofFloat 1.5 = .finite false (3 * 2 ^ 51) (-52) := by rfl
    have denotes := denotes_of_parts parts
    norm_num at denotes ⊢
    exact denotes
  have two : Denotes 2 ((4 : Int) / 2) := by
    have parts : BinaryParts.ofFloat 2 = .finite false (2 ^ 52) (-51) := by rfl
    have denotes := denotes_of_parts parts
    norm_num at denotes ⊢
    exact denotes
  have one : Denotes 1 ((2 : Int) / 2) := by
    have denotes := denotes_one
    norm_num at denotes ⊢
    exact denotes
  cases feature with
  | joins | functions => exact oneAndHalf
  | subqueries => exact two
  | whereConditions | tables | groupBy | orderBy => exact one

section Exact
variable {features : Features} {feature : Feature}

theorem abs_halves_le (small : |features.get feature| ≤ 2 ^ 48) :
    |features.halves feature| ≤ 2 ^ 50 := by
  have weight : |feature.halves| ≤ 4 := by cases feature <;> decide
  rw [Features.halves, abs_mul]
  exact (mul_le_mul small weight (abs_nonneg _) (by decide)).trans (by decide)

theorem denotesHalves_ofInt (small : |features.get feature| ≤ 2 ^ 48) :
    DenotesHalves (Float.ofInt (features.get feature)) (2 * features.get feature) := by
  have bound := small
  rw [Int.abs_eq_natAbs] at bound
  have number : ((2 * features.get feature : Int) / 2 : ℚ) = features.get feature := by
    push_cast
    ring
  refine ⟨?_, halves_le_iff.mpr ?_⟩
  · rw [number]
    exact denotes_ofInt (by omega)
  · rw [abs_mul]
    exact (mul_le_mul_of_nonneg_left small (abs_nonneg 2)).trans (by decide)

theorem denotesHalves_term (small : |features.get feature| ≤ 2 ^ 48) :
    DenotesHalves (Weights.term {} features feature) (features.halves feature) := by
  have bounded : |features.halves feature| ≤ 2 ^ 53 := (abs_halves_le small).trans (by decide)
  have converted := (denotesHalves_ofInt small).1
  have above : (0 : ℚ) < feature.halves / 2 := by cases feature <;> norm_num [Feature.halves]
  have number : ((2 * features.get feature : Int) / 2 : ℚ) * (feature.halves / 2) =
      (features.halves feature : Int) / 2 := by
    rw [Features.halves]
    push_cast
    ring
  have product := converted.mul (denotes_weight feature) above
    (by rw [number]; exact isDouble_halves bounded)
  rw [number] at product
  exact ⟨product, halves_le_iff.mpr bounded⟩

/-- The sums of terms are not rounded, as long as there is room for those to come. -/
theorem denotesHalves_scanl (small : ∀ feature, |features.get feature| ≤ 2 ^ 48)
    (others : List Feature) {start : Float} {halves : Int} (denotes : DenotesHalves start halves)
    (room : |halves| + others.length * 2 ^ 50 ≤ 2 ^ 53) :
    List.Forall₂ DenotesHalves
      ((others.map (Weights.term {} features)).scanl (· + ·) start)
      ((others.map features.halves).scanl (· + ·) halves) := by
  induction others generalizing start halves with
  | nil => exact .cons denotes .nil
  | cons feature others ih =>
      have term := abs_halves_le (small feature)
      have sum := abs_add_le halves (features.halves feature)
      rw [List.length_cons] at room
      push_cast at room
      rw [List.map_cons, List.map_cons, List.scanl_cons, List.scanl_cons]
      refine .cons denotes (ih (denotes.add (denotesHalves_term (small feature)) ?_) ?_)
      · have few := Int.natCast_nonneg others.length
        linarith
      · linarith

theorem denotesHalves_partialSums (small : ∀ feature, |features.get feature| ≤ 2 ^ 48) :
    List.Forall₂ DenotesHalves (Weights.partialSums {} features) features.halfSums := by
  refine denotesHalves_scanl small _ (denotesHalves_term (small .joins)) ?_
  have first := abs_halves_le (small .joins)
  change _ + (6 : Int) * 2 ^ 50 ≤ 2 ^ 53
  linarith

theorem denotesHalves_complexity (small : ∀ feature, |features.get feature| ≤ 2 ^ 48) :
    DenotesHalves features.complexity features.complexityHalves := by
  have last : DenotesHalves features.complexity (features.get .joins * 3 +
      features.get .subqueries * 4 + features.get .whereConditions * 2 +
      features.get .functions * 3 + features.get .tables * 2 + features.get .groupBy * 2 +
      features.get .orderBy * 2) :=
    (denotesHalves_partialSums small).get (show 6 < 7 by decide) (show 6 < 7 by decide)
  rw [Features.complexityHalves_eq]
  convert last using 1
  ring

end Exact

/-! ## The length of a query -/

/-- A length that fits into a machine word is converted to a finite double, so that the weight zero
takes it away. -/
theorem ofNat_mul_zero {count : Nat} (word : count < 2 ^ 64) : Float.ofNat count * 0 = 0 := by
  rcases Nat.eq_zero_or_pos count with rfl | filled
  · exact mul_zero_of_denotes (denotes_ofNat (by decide)) (Nat.cast_nonneg 0)
  obtain ⟨number, denotes, near⟩ := exists_ofNat_near filled word
  refine mul_zero_of_denotes denotes (le_trans ?_ near.1)
  norm_num [roundingUnit]

theorem score_eq_complexity {features : Features} {number : ℚ} {length : TextLength}
    (denotes : Denotes features.complexity number) (lines : length.lines < 2 ^ 64)
    (characters : length.characters < 2 ^ 64) :
    Weights.score {} features length = features.complexity := by
  change features.complexity + Float.ofNat length.lines * 0 + Float.ofNat length.characters * 0 = _
  rw [ofNat_mul_zero lines, ofNat_mul_zero characters, add_zero_of_denotes denotes,
    add_zero_of_denotes denotes]

/-! ## Scores are exact -/

/-- For counts up to `2 ^ 47`, and for the sum of two such counts, no conversion, no product and no
sum rounds that the default score is made of.  The complexity is what the formula says, it is
additive, and it is the score for every length of the query. -/
theorem default_scores_exact {first second : Features}
    (firstSmall : ∀ feature, |first.get feature| ≤ 2 ^ 47)
    (secondSmall : ∀ feature, |second.get feature| ≤ 2 ^ 47) :
    (∀ counts ∈ [first, second, first + second],
      (∀ feature,
        DenotesHalves (Float.ofInt (counts.get feature)) (2 * counts.get feature) ∧
        DenotesHalves (Weights.term {} counts feature) (counts.halves feature)) ∧
      List.Forall₂ DenotesHalves (Weights.partialSums {} counts) counts.halfSums ∧
      (Weights.partialSums {} counts).getLast? = some counts.complexity ∧
      DenotesHalves counts.complexity counts.complexityHalves ∧
      ∀ length : TextLength, length.lines < 2 ^ 64 → length.characters < 2 ^ 64 →
        Weights.score {} counts length = counts.complexity) ∧
    first.complexity + second.complexity = (first + second).complexity := by
  have sumSmall (feature : Feature) : |(first + second).get feature| ≤ 2 ^ 48 := by
    rw [Features.get_add]
    linarith [abs_add_le (first.get feature) (second.get feature), firstSmall feature,
      secondSmall feature]
  have firstBelow (feature : Feature) : |first.get feature| ≤ 2 ^ 48 :=
    (firstSmall feature).trans (by decide)
  have secondBelow (feature : Feature) : |second.get feature| ≤ 2 ^ 48 :=
    (secondSmall feature).trans (by decide)
  constructor
  · intro counts among
    have small : ∀ feature, |counts.get feature| ≤ 2 ^ 48 := by
      simp only [List.mem_cons, List.not_mem_nil, or_false] at among
      rcases among with rfl | rfl | rfl
      · exact firstBelow
      · exact secondBelow
      · exact sumSmall
    have complexity := denotesHalves_complexity small
    refine ⟨?_, denotesHalves_partialSums small, rfl, complexity, ?_⟩
    · intro feature
      exact ⟨denotesHalves_ofInt (small feature), denotesHalves_term (small feature)⟩
    · intro length lines characters
      exact score_eq_complexity complexity.1 lines characters
  · have whole := denotesHalves_complexity sumSmall
    rw [Features.complexityHalves_add] at whole
    have sum := (denotesHalves_complexity firstBelow).add (denotesHalves_complexity secondBelow)
      (halves_le_iff.mp whole.2)
    exact sum.1.unique whole.1

/-- A statement with fewer verbs than a statement has lowers the score. -/
theorem default_scores_exact_negative :
    DenotesHalves (Features.complexity ⟨0, -1, 0, 0, 1, 0, 0⟩) (-2) ∧
    Features.complexity ⟨2, 1, 3, 2, 3, 1, 2⟩ + Features.complexity ⟨0, -1, 0, 0, 1, 0, 0⟩ =
      Features.complexity ⟨2, 0, 3, 2, 4, 1, 2⟩ := by
  have scores := @default_scores_exact ⟨2, 1, 3, 2, 3, 1, 2⟩ ⟨0, -1, 0, 0, 1, 0, 0⟩
    (by intro feature; cases feature <;> decide) (by intro feature; cases feature <;> decide)
  have second := scores.1 ⟨0, -1, 0, 0, 1, 0, 0⟩ (by decide)
  exact ⟨second.2.2.2.1, scores.2⟩

end SqlMetrics
