import Mathlib.Data.List.Basic
import SqlMetrics.Proofs.Depth
import SqlMetrics.Proofs.Lossless
import SqlMetrics.Proofs.ScannedSymbols

/-! # Comparison operators among the leaves

A leaf of an accepted text is a comparison operator with one of twelve texts, or it has none of the
texts that count as a condition (`distinct_of_parse`).  So what a leaf counts for when it stands
alone can be read off its text (`Leaf.Distinct.leafConditions_eq`). -/
set_option autoImplicit false
namespace SqlMetrics

/-! ## The operators among the leaves -/

def patternTexts : List String :=
  ["LIKE", "ILIKE", "NOT LIKE", "NOT ILIKE"]

/-- The operators that are a condition also where they have no operands. -/
def orderingTexts : List String :=
  [">", "<", ">=", "<=", "=", "<>"]

namespace Leaf

def isComparison (content : Leaf) : Bool :=
  content.kind = .comparison

def isRange (content : Leaf) : Bool :=
  content = .keyword "BETWEEN" || content = .keyword "IN"

/-- A leaf with the text of an ordering or an equality, of whatever kind. -/
def isOrdering (content : Leaf) : Bool :=
  orderingTexts.contains content.text

/-- An operator that is a condition only with its operands. -/
def isOther (content : Leaf) : Bool :=
  content.kind = .comparison &&
    ["LIKE", "ILIKE", "NOT LIKE", "NOT ILIKE", "==", "<=>"].contains content.text

/-- The leaf is a comparison operator with one of their texts, or has no such text. -/
inductive Distinct : Leaf → Prop where
  | operator {text : String} (known : text ∈ comparisonTexts ++ patternTexts) :
      Distinct (.comparison text)
  | other {kind : LeafKind} {text : String} (kinds : kind ≠ .comparison)
      (noSymbol : text ∉ Node.comparisonSymbols) : Distinct ⟨kind, text⟩

end Leaf

open Node

/-! ## Leaves of scanned texts -/

section Leaves
variable {content : Leaf} {tokens : List Token}

theorem head?_phraseText (first : Keyword) (others : List Keyword) :
    (phraseText (first :: others)).toList.head? = first.text.toList.head? := by
  have filled : first.text.toList ≠ [] := by cases first <;> decide
  cases others with
  | nil => rw [phraseText, List.map_singleton, String.intercalate_singleton]
  | cons second rest =>
      rw [phraseText, List.map_cons, String.intercalate_cons_of_ne_nil (by simp),
        String.append_assoc, String.toList_append, List.head?_append_of_ne_nil _ filled]

theorem phraseText_not_symbol {words : List Keyword} (filled : words ≠ []) :
    phraseText words ∉ comparisonSymbols := by
  obtain ⟨first, others, rfl⟩ := List.exists_cons_of_ne_nil filled
  have begins : ∃ c, first.text.toList.head? = .some c ∧ c ∉ symbolChars := by
    cases first <;> exact ⟨_, rfl, by decide⟩
  obtain ⟨c, begins, other⟩ := begins
  exact not_symbol_of_head ((head?_phraseText first others).trans begins) other

theorem distinct_keyword {words : List Keyword} (filled : words ≠ []) :
    (Leaf.keyword (phraseText words)).Distinct :=
  .other (by decide) (phraseText_not_symbol filled)

theorem pairLeaf_distinct {first second : Keyword}
    (pair : pairLeaf? first second = some content) : content.Distinct := by
  unfold pairLeaf? at pair
  split at pair
  · cases pair
    exact distinct_keyword (by simp)
  · split at pair
    · cases pair
      exact distinct_keyword (by simp)
    · split at pair
      · next pattern =>
          cases pair
          simp only [Bool.and_eq_true, decide_eq_true_eq] at pattern
          obtain ⟨rfl, isPattern⟩ := pattern
          cases second <;> first | cases isPattern; done | exact .operator (by decide)
      · cases pair

theorem joinPhrase_ne_nil {words : List Keyword} (phrase : joinPhrase? tokens = some words) :
    words ≠ [] := by
  rintro rfl
  cases tokens with
  | nil => cases phrase
  | cons token rest =>
      rw [joinPhrase?] at phrase
      split at phrase
      · cases phrase
      · split at phrase
        · cases phrase
        · split at phrase
          · simp at phrase
          · cases phrase

theorem text_not_symbol (word : Keyword) : word.text ∉ comparisonSymbols := by
  cases word <;> decide

theorem wordLeaf_distinct {word : Word} (distinct : (Token.word word).Distinct)
    (rest : List Token) : (wordLeaf word rest).1.Distinct := by
  have shown : (Leaf.name word.text).Distinct := .other (by decide) distinct
  unfold wordLeaf
  split
  · exact shown
  · next first keyword =>
    split
    · exact .other (by decide) (text_not_symbol first)
    · split
      · next leaf pair =>
          obtain ⟨second, -, made⟩ := Option.bind_eq_some_iff.mp pair
          exact pairLeaf_distinct made
      · split
        · next pattern =>
            cases first <;> first | cases pattern; done | exact .operator (by decide)
        · split
          · exact shown
          · split
            · next words phrase => exact distinct_keyword (joinPhrase_ne_nil phrase)
            · exact .other (by decide) (text_not_symbol first)

theorem phraseAt_distinct {token : Token} (distinct : token.Distinct) (before : Option Leaf)
    (rest : List Token) : (phraseAt before token rest).1.Distinct := by
  cases token with
  | word word => exact wordLeaf_distinct distinct rest
  | star =>
      rw [phraseAt]
      split <;> exact .other (by decide) (by decide)
  | comparison text => exact .operator (List.mem_append_left _ distinct)
  | _ => exact .other (by decide) distinct

theorem leavesFrom_distinct (before : Option Leaf) (tokens : List Token) :
    (∀ token ∈ tokens, token.Distinct) →
      ∀ content ∈ leavesFrom before tokens, content.Distinct := by
  fun_induction leavesFrom before tokens with
  | case1 before =>
      intro distinct content member
      cases member
  | case2 before token rest phrase ih =>
      intro distinct content member
      rcases List.mem_cons.mp member with rfl | behind
      · exact phraseAt_distinct (distinct token List.mem_cons_self) before rest
      · refine ih (fun other inRest => distinct other ?_) content behind
        exact List.mem_cons_of_mem _ (List.mem_of_mem_drop inRest)

/-- The leaves of an accepted text look like comparison operators only where they are. -/
theorem distinct_of_parse {dialect : Dialect} {query : String} {statement : Statement}
    (accepted : Statement.parse dialect query = .ok statement) :
    ∀ content ∈ leavesOfAll statement.nodes, content.Distinct := by
  obtain ⟨tokens, scanned, made⟩ := parse_eq_ok_iff.mp accepted
  have leaves := leavesOfAll_ofLeaves (ofLeaves_of_accepted made)
  rw [leaves]
  refine leavesFrom_distinct none _ fun token member => ?_
  exact distinct_of_scan scanned token (mem_of_mem_firstStatement member)

end Leaves

/-! ## Operators and words among distinct leaves -/

namespace Leaf

/-- A leaf that is no condition and in which no operator stands. -/
structure IsSilent (content : Leaf) : Prop where
  noOperator : content.isComparison = false
  noRange : content.isRange = false

variable {content : Leaf}

theorem isSilent_of_kind (quiet : content.kind ∉ [.keyword, .comparison]) : content.IsSilent where
  noOperator := by
    have kind : content.kind ≠ .comparison := fun same => quiet (by simp [same])
    simp [isComparison, kind]
  noRange := by
    have other (text : String) : content ≠ .keyword text :=
      fun same => quiet (by simp [same, keyword])
    simp [isRange, other]

theorem isSilent_of_isKeyword {text : String} (word : content.isKeyword text = true)
    (quiet : ∀ range ∈ conditionKeywords, sameLetters range text = false) : content.IsSilent where
  noOperator := by simp [isComparison, kind_of_isKeyword word]
  noRange := by
    have other : ∀ range ∈ conditionKeywords, content ≠ .keyword range := by
      rintro range member rfl
      simp [isKeyword, keyword, quiet range member] at word
    simp [isRange, other "BETWEEN" (by simp [conditionKeywords]),
      other "IN" (by simp [conditionKeywords])]

theorem Distinct.isComparison_of_isOrdering (distinct : content.Distinct)
    (ordering : content.isOrdering = true) : content.isComparison = true := by
  cases distinct with
  | operator known => rfl
  | @other kind text kinds noSymbol =>
      have subset : ∀ text ∈ orderingTexts, text ∈ comparisonSymbols := by decide
      exact absurd (subset text (by simpa [isOrdering] using ordering)) noSymbol

theorem Distinct.isOrdering_eq_false (distinct : content.Distinct)
    (noOperator : content.isComparison = false) : content.isOrdering = false := by
  by_contra ordering
  have operator := distinct.isComparison_of_isOrdering (by simpa using ordering)
  rw [noOperator] at operator
  cases operator

theorem Distinct.isOther_eq (distinct : content.Distinct) (operator : content.isComparison = true) :
    content.isOther = !content.isOrdering := by
  cases distinct with
  | @operator text known =>
      have texts : ∀ text ∈ comparisonTexts ++ patternTexts,
          (comparison text).isOther = !(comparison text).isOrdering := by decide
      exact texts text known
  | other kinds => exact absurd (by simpa [isComparison] using operator) kinds

theorem Distinct.leafConditions_eq (distinct : content.Distinct) :
    leafConditions content = [content].countP isRange + [content].countP isOrdering := by
  cases distinct with
  | @operator text known =>
      have texts : ∀ text ∈ comparisonTexts ++ patternTexts, leafConditions (comparison text) =
          [comparison text].countP isRange + [comparison text].countP isOrdering := by decide
      exact texts text known
  | @other kind text kinds noSymbol =>
      have noOrdering : isOrdering ⟨kind, text⟩ = false :=
        (Distinct.other kinds noSymbol).isOrdering_eq_false (by simpa [isComparison] using kinds)
      cases kind with
      | comparison => exact absurd rfl kinds
      | keyword => simp [leafConditions, isRange, keyword, conditionKeywords, noOrdering]
      | _ => simp [leafConditions, isRange, keyword, noSymbol, noOrdering]

end Leaf

end SqlMetrics
