import Mathlib.Data.List.Forall2
import SqlMetrics.Proofs.Depth
import SqlMetrics.Proofs.Lossless
import SqlMetrics.Proofs.ScannedSymbols
import SqlMetrics.Proofs.Spelling

/-! # Statements that differ in spelling only

Two token lists are alike when they agree position by position up to the case of keywords, the text
of names, and the text of literals that are both numbers or both none.  Reading them in step gives
leaves that are the same without spelling, so they are both refused for the same reason, or both
accepted with the same seven counts (`features_of_alike`). -/
set_option autoImplicit false
namespace SqlMetrics

namespace Token

/-- The tokens differ in spelling at most. -/
inductive Alike : Token → Token → Prop where
  | same (token : Token) : Alike token token
  | keyword {left right : Word} (word : Keyword) (first : left.keyword? = some word)
      (second : right.keyword? = some word) : Alike (.word left) (.word right)
  | name {left right : Word} (first : left.keyword? = none) (second : right.keyword? = none) :
      Alike (.word left) (.word right)
  | literal {left right : String} (numbers : beginsNumber left = beginsNumber right) :
      Alike (.literal left) (.literal right)

/-- A token without a spelling of its own. -/
def isMark : Token → Bool
  | .word _ | .literal _ => false
  | _ => true

variable {left right : Token}

theorem Alike.keyword_eq (alike : Alike left right) : left.keyword? = right.keyword? := by
  cases alike with
  | same => rfl
  | keyword word first second => exact first.trans second.symm
  | name first second => exact first.trans second.symm
  | literal => rfl

theorem Alike.eq_mark (alike : Alike left right) (mark : Token) (isMark : mark.isMark = true) :
    (left = mark) = (right = mark) := by
  cases alike with
  | same => rfl
  | keyword | name | literal =>
      refine propext ⟨fun same => ?_, fun same => ?_⟩ <;> subst same <;> cases isMark

end Token

open Token

/-! ## The first statement -/

section Lists
variable {α : Type} {R : α → α → Prop} {p : α → Bool} {left right : List α}

theorem findIdx_eq_of_forall₂ (agree : ∀ a b, R a b → p a = p b)
    (all : List.Forall₂ R left right) : left.findIdx p = right.findIdx p := by
  induction all with
  | nil => rfl
  | @cons first second left right here behind ih =>
      rw [List.findIdx_cons, List.findIdx_cons, agree first second here, ih]

theorem forall₂_dropWhile (agree : ∀ a b, R a b → p a = p b) (all : List.Forall₂ R left right) :
    List.Forall₂ R (left.dropWhile p) (right.dropWhile p) := by
  rw [List.dropWhile_eq_drop_findIdx_not, List.dropWhile_eq_drop_findIdx_not,
    findIdx_eq_of_forall₂ (fun a b same => congrArg not (agree a b same)) all]
  exact List.forall₂_drop _ all

theorem forall₂_takeWhile (agree : ∀ a b, R a b → p a = p b) (all : List.Forall₂ R left right) :
    List.Forall₂ R (left.takeWhile p) (right.takeWhile p) := by
  rw [List.takeWhile_eq_take_findIdx_not, List.takeWhile_eq_take_findIdx_not,
    findIdx_eq_of_forall₂ (fun a b same => congrArg not (agree a b same)) all]
  exact List.forall₂_take _ all

end Lists

section Reading
variable {left right : List Token}

theorem firstStatement_alike (alike : List.Forall₂ Alike left right) :
    List.Forall₂ Alike (firstStatement left) (firstStatement right) := by
  have blank : Relator.LiftFun Alike Iff (fun token => (token != .blank) = true)
      fun token => (token != .blank) = true := fun a b same => by
    simp only [bne, beq_eq_decide, same.eq_mark .blank rfl]
  have stops : ∀ a b, Alike a b → (a != .semicolon) = (b != .semicolon) := fun a b same => by
    simp only [bne, beq_eq_decide, same.eq_mark .semicolon rfl]
  have empty : ∀ a b, Alike a b → decide (a = .semicolon) = decide (b = .semicolon) :=
    fun a b same => by simp only [same.eq_mark .semicolon rfl]
  exact forall₂_takeWhile stops (forall₂_dropWhile empty (List.rel_filter blank alike))

/-! ## Leaves read in step -/

theorem head_keyword_alike (alike : List.Forall₂ Alike left right) :
    left.head?.bind Token.keyword? = right.head?.bind Token.keyword? := by
  cases alike with
  | nil => rfl
  | cons here behind => exact here.keyword_eq

theorem head_leftBracket_alike (alike : List.Forall₂ Alike left right) :
    (left.head? = some .leftBracket) = (right.head? = some .leftBracket) := by
  cases alike with
  | nil => rfl
  | cons here behind =>
      simp only [List.head?_cons, Option.some_inj]
      exact here.eq_mark .leftBracket rfl

theorem joinPhrase_alike (alike : List.Forall₂ Alike left right) :
    joinPhrase? left = joinPhrase? right := by
  induction alike with
  | nil => rfl
  | cons here behind ih => rw [joinPhrase?, joinPhrase?, here.keyword_eq, ih]

/-- Two leaves that are the same without spelling, and as long. -/
def SamePhrase (first second : Leaf × Nat) : Prop :=
  first.1.unspelled = second.1.unspelled ∧ first.2 = second.2

theorem wordLeaf_alike {first second : Word} (here : Alike (.word first) (.word second))
    (behind : List.Forall₂ Alike left right) :
    SamePhrase (wordLeaf first left) (wordLeaf second right) := by
  have words : first.keyword? = second.keyword? := here.keyword_eq
  have joined := joinPhrase_alike (.cons here behind)
  unfold wordLeaf
  simp only [words, head_keyword_alike behind, head_leftBracket_alike behind, joined]
  cases second.keyword? with
  | none => exact ⟨rfl, rfl⟩
  | some word =>
      -- The tests now agree, and no branch below shows more of the word than its keyword.
      dsimp only
      generalize (right.head?.bind Token.keyword?).bind (pairLeaf? word) = pair
      generalize joinPhrase? (.word second :: right) = phrase
      generalize (word.isSide && decide (right.head? = some .leftBracket)) = called
      cases word.isVerb with
      | true => exact ⟨rfl, rfl⟩
      | false =>
          cases pair with
          | some leaf => exact ⟨rfl, rfl⟩
          | none => cases word.isPattern <;> cases called <;> cases phrase <;> exact ⟨rfl, rfl⟩

theorem opensProjection_unspelled (previous : Option Leaf) :
    opensProjection (previous.map Leaf.unspelled) = opensProjection previous := by
  cases previous with
  | none => rfl
  | some content =>
      simp only [Option.map_some, opensProjection, content.unspelled_kind,
        content.unspelled_isPunctuation, content.unspelled_isKeyword]

theorem phraseAt_alike {first second : Token} {before other : Option Leaf}
    (previous : before.map Leaf.unspelled = other.map Leaf.unspelled) (here : Alike first second)
    (behind : List.Forall₂ Alike left right) :
    SamePhrase (phraseAt before first left) (phraseAt other second right) := by
  have projection : opensProjection before = opensProjection other := by
    rw [← opensProjection_unspelled before, previous, opensProjection_unspelled]
  cases here with
  | same =>
      cases first with
      | word word => exact wordLeaf_alike (.same _) behind
      | star => simp only [phraseAt, projection]; exact ⟨rfl, rfl⟩
      | _ => exact ⟨rfl, rfl⟩
  | keyword word one two => exact wordLeaf_alike (.keyword word one two) behind
  | name one two => exact wordLeaf_alike (.name one two) behind
  | literal numbers =>
      have shown (text : String) : (Leaf.literal text).unspelled =
          .literal (if beginsNumber text then "0" else "") := rfl
      exact ⟨(shown _).trans (numbers ▸ (shown _).symm), rfl⟩

theorem leavesFrom_alike (before : Option Leaf) (left : List Token) :
    ∀ other right, before.map Leaf.unspelled = other.map Leaf.unspelled →
      List.Forall₂ Alike left right →
        (leavesFrom before left).map Leaf.unspelled =
          (leavesFrom other right).map Leaf.unspelled := by
  fun_induction leavesFrom before left with
  | case1 before =>
      intro other right previous alike
      cases alike
      rw [leavesFrom]
  | case2 before token rest phrase ih =>
      intro other right previous alike
      cases alike with
      | cons here behind =>
          obtain ⟨shown, spans⟩ := phraseAt_alike previous here behind
          have next := List.forall₂_drop (phrase.2 - 1) behind
          have tail := ih (some _) _ (congrArg some shown) next
          rw [leavesFrom, List.map_cons, List.map_cons, shown, tail, spans]

theorem leavesOf_alike (alike : List.Forall₂ Alike left right) :
    (leavesOf left).map Leaf.unspelled = (leavesOf right).map Leaf.unspelled :=
  leavesFrom_alike none _ none _ rfl (firstStatement_alike alike)

end Reading

/-! ## Literals -/

theorem phraseAt_literal {before : Option Leaf} {token : Token} {rest : List Token}
    (kind : (phraseAt before token rest).1.kind = .literal) :
    token = .literal (phraseAt before token rest).1.text := by
  cases token with
  | literal text => rfl
  | word word =>
      have kinds := wordLeaf_kind word rest
      rw [phraseAt] at kind
      rw [kind] at kinds
      exact absurd kinds (by decide)
  | star =>
      rw [phraseAt] at kind
      split at kind <;> cases kind
  | _ => cases kind

theorem literal_of_mem_leavesFrom {before : Option Leaf} {tokens : List Token} {content : Leaf}
    (member : content ∈ leavesFrom before tokens) (kind : content.kind = .literal) :
    .literal content.text ∈ tokens := by
  fun_induction leavesFrom before tokens with
  | case1 before => cases member
  | case2 before token rest phrase ih =>
      rcases List.mem_cons.mp member with rfl | behind
      · exact phraseAt_literal kind ▸ List.mem_cons_self
      · exact List.mem_cons_of_mem _ (List.mem_of_mem_drop (ih behind))

theorem literal_of_mem_leavesOf {tokens : List Token} {content : Leaf}
    (member : content ∈ leavesOf tokens) (kind : content.kind = .literal) :
    .literal content.text ∈ tokens :=
  mem_of_mem_firstStatement (literal_of_mem_leavesFrom member kind)

/-! ## Two statements -/

theorem features_of_ofTokens {tokens : List Token} {statement : Statement}
    (accepted : Statement.ofTokens tokens = .ok statement)
    (noSymbol : ∀ text, .literal text ∈ tokens → text ∉ Node.comparisonSymbols) :
    statement.unspelled.features = statement.features := by
  have shaped := ofTokens_shaped accepted
  obtain ⟨-, nested, nests, rfl⟩ := nested_of_accepted accepted
  refine Statement.features_unspelled shaped fun node member content inside kind => ?_
  have kept := (leavesOfAll_groupNodes nested).trans (leavesOfAll_nested nests)
  have inLeaves : content ∈ leavesOf tokens :=
    kept ▸ Node.mem_leavesOfAll.mpr ⟨node, member, inside⟩
  exact noSymbol _ (literal_of_mem_leavesOf inLeaves kind)

/-- No count of a query text depends on the spelling of its names, or on more of a literal than
whether it is a number. -/
theorem features_unspelled_of_parse {dialect : Dialect} {query : String} {statement : Statement}
    (accepted : Statement.parse dialect query = .ok statement) :
    statement.unspelled.features = statement.features := by
  unfold Statement.parse at accepted
  cases scanned : Token.scan dialect query with
  | error fault => rw [scanned] at accepted; cases accepted
  | ok tokens =>
      rw [scanned] at accepted
      exact features_of_ofTokens accepted fun text member => distinct_of_scan scanned _ member

theorem ofTokens_unspelled {left right : List Token}
    (same : (leavesOf left).map Leaf.unspelled = (leavesOf right).map Leaf.unspelled) :
    (Statement.ofTokens left).map Statement.unspelled =
      (Statement.ofTokens right).map Statement.unspelled := by
  unfold Statement.ofTokens
  cases first : leavesOf left with
  | nil =>
      rw [first, List.map_nil, eq_comm, List.map_eq_nil_iff] at same
      rw [same]
  | cons content rest =>
      cases second : leavesOf right with
      | nil => rw [first, second] at same; cases same
      | cons other further =>
          rw [first, second] at same
          dsimp only
          rw [← Statement.ofLeaves_unspelled, same, Statement.ofLeaves_unspelled]

/-- Token lists that differ in spelling only are refused for the same reason, or accepted with the
same seven counts. -/
theorem features_of_alike {left right : List Token} (alike : List.Forall₂ Alike left right)
    (noSymbol : ∀ text, .literal text ∈ left ∨ .literal text ∈ right →
      text ∉ Node.comparisonSymbols) :
    match Statement.ofTokens left, Statement.ofTokens right with
    | .ok first, .ok second => first.features = second.features
    | .error first, .error second => first = second
    | _, _ => False := by
  have same := ofTokens_unspelled (leavesOf_alike alike)
  cases first : Statement.ofTokens left with
  | error fault =>
      cases second : Statement.ofTokens right with
      | error other =>
          rw [first, second] at same
          exact Except.error.inj same
      | ok statement => rw [first, second] at same; cases same
  | ok statement =>
      cases second : Statement.ofTokens right with
      | error fault => rw [first, second] at same; cases same
      | ok other =>
          rw [first, second] at same
          have trees : statement.unspelled = other.unspelled := Except.ok.inj same
          have leftCounts :=
            features_of_ofTokens first fun text member => noSymbol text (.inl member)
          have rightCounts :=
            features_of_ofTokens second fun text member => noSymbol text (.inr member)
          show statement.features = other.features
          rw [← leftCounts, trees, rightCounts]

/-- A call of `LEFT` in two letter cases, a quoted name for a plain one, and another number. -/
theorem features_alike_left_call :
    ∃ left right : List Token,
      left = [.word ⟨"select", none⟩, .word ⟨"left", none⟩, .leftBracket, .word ⟨"a", none⟩,
        .comma, .literal "1", .rightBracket, .word ⟨"from", none⟩, .word ⟨"t", none⟩] ∧
      right = [.word ⟨"SELECT", none⟩, .word ⟨"Left", none⟩, .leftBracket, .word ⟨"from", some '"'⟩,
        .comma, .literal ".5", .rightBracket, .word ⟨"From", none⟩, .word ⟨"u", none⟩] ∧
      List.Forall₂ Alike left right ∧
      (∀ text, .literal text ∈ left ∨ .literal text ∈ right → text ∉ Node.comparisonSymbols) ∧
      match Statement.ofTokens left, Statement.ofTokens right with
      | .ok first, .ok second => first.features = second.features
      | .error first, .error second => first = second
      | _, _ => False := by
  let left : List Token := [.word ⟨"select", none⟩, .word ⟨"left", none⟩, .leftBracket,
    .word ⟨"a", none⟩, .comma, .literal "1", .rightBracket, .word ⟨"from", none⟩,
    .word ⟨"t", none⟩]
  let right : List Token := [.word ⟨"SELECT", none⟩, .word ⟨"Left", none⟩, .leftBracket,
    .word ⟨"from", some '"'⟩, .comma, .literal ".5", .rightBracket, .word ⟨"From", none⟩,
    .word ⟨"u", none⟩]
  have alike : List.Forall₂ Alike left right :=
    .cons (.keyword .SELECT (by decide) (by decide)) <|
    .cons (.keyword .LEFT (by decide) (by decide)) <| .cons (.same _) <|
    .cons (.name (by decide) (by decide)) <| .cons (.same _) <| .cons (.literal (by decide)) <|
    .cons (.same _) <| .cons (.keyword .FROM (by decide) (by decide)) <|
    .cons (.name (by decide) (by decide)) .nil
  have noSymbol : ∀ text, .literal text ∈ left ∨ .literal text ∈ right →
      text ∉ Node.comparisonSymbols := by
    intro text member
    have literals : text = "1" ∨ text = ".5" := by simpa [left, right] using member
    rcases literals with rfl | rfl <;> decide
  exact ⟨left, right, rfl, rfl, alike, noSymbol, features_of_alike alike noSymbol⟩

end SqlMetrics
