import SqlMetrics.Proofs.Leaves

/-! # How deep brackets nest

The brackets of a list are followed from left to right, with the number of open ones so far.
Reading phrases neither skips nor adds a bracket (`brackets_leavesOf`), and nesting succeeds as long
as the deepest point is within the limit (`nestBrackets_eq_none_iff`). -/
set_option autoImplicit false
namespace SqlMetrics

inductive Bracket where
  | opening
  | closing
  deriving DecidableEq, Repr

/-- The open brackets behind this one; a closing bracket that closes none changes nothing. -/
def Bracket.turn (depth : Nat) : Bracket → Nat
  | .opening => depth + 1
  | .closing => depth - 1

def depthAfter (depth : Nat) (brackets : List Bracket) : Nat :=
  brackets.foldl Bracket.turn depth

/-- The most brackets that are open at the same time. -/
def deepest (depth : Nat) : List Bracket → Nat
  | [] => depth
  | bracket :: rest => max depth (deepest (bracket.turn depth) rest)

/-- Each closing bracket closes an open one, and in the end none is open. -/
def balances : Nat → List Bracket → Bool
  | depth, [] => depth = 0
  | depth, .opening :: rest => balances (depth + 1) rest
  | 0, .closing :: _ => false
  | depth + 1, .closing :: rest => balances depth rest

def Leaf.bracket? (content : Leaf) : Option Bracket :=
  if content.opensBracket then some .opening
  else if content.closesBracket then some .closing
  else none

def Token.bracket? : Token → Option Bracket
  | .leftBracket => some .opening
  | .rightBracket => some .closing
  | _ => none

def bracketsOf (leaves : List Leaf) : List Bracket :=
  leaves.filterMap Leaf.bracket?

def statementBrackets (tokens : List Token) : List Bracket :=
  (firstStatement tokens).filterMap Token.bracket?

theorem mem_of_mem_firstStatement {tokens : List Token} {token : Token}
    (member : token ∈ firstStatement tokens) : token ∈ tokens := by
  have kept := (List.takeWhile_sublist _).subset member
  have behind := (List.dropWhile_sublist _).subset kept
  exact (List.mem_filter.mp behind).1

theorem bracketsOf_append (front back : List Leaf) :
    bracketsOf (front ++ back) = bracketsOf front ++ bracketsOf back :=
  List.filterMap_append

theorem bracketsOf_cons (content : Leaf) (rest : List Leaf) :
    bracketsOf (content :: rest) = bracketsOf [content] ++ bracketsOf rest :=
  bracketsOf_append [content] rest

section Depth
variable {front back brackets : List Bracket} {depth limit : Nat}

/-! ## Depths along a list -/

theorem depthAfter_append (depth : Nat) (front back : List Bracket) :
    depthAfter depth (front ++ back) = depthAfter (depthAfter depth front) back :=
  List.foldl_append

theorem le_deepest (depth : Nat) (brackets : List Bracket) : depth ≤ deepest depth brackets := by
  cases brackets with
  | nil => exact Nat.le_refl depth
  | cons bracket rest => exact Nat.le_max_left _ _

theorem deepest_append (depth : Nat) (front back : List Bracket) :
    deepest depth (front ++ back) =
      max (deepest depth front) (deepest (depthAfter depth front) back) := by
  induction front generalizing depth with
  | nil => exact (Nat.max_eq_right (le_deepest depth back)).symm
  | cons bracket rest ih =>
      rw [List.cons_append, deepest, ih, deepest, Nat.max_assoc]
      rfl

theorem lt_deepest_iff :
    limit < deepest depth brackets ↔
      ∃ front, front <+: brackets ∧ limit < depthAfter depth front := by
  induction brackets generalizing depth with
  | nil => simp [deepest, depthAfter]
  | cons bracket rest ih =>
      have either : limit < deepest depth (bracket :: rest) ↔
          limit < depth ∨ limit < deepest (bracket.turn depth) rest := by
        rw [deepest]
        omega
      rw [either, ih]
      constructor
      · rintro (here | ⟨front, within, behind⟩)
        · exact ⟨[], List.nil_prefix, here⟩
        · exact ⟨bracket :: front, List.cons_prefix_cons.mpr ⟨rfl, within⟩, behind⟩
      · rintro ⟨front, within, beyond⟩
        cases front with
        | nil => exact Or.inl beyond
        | cons first others =>
            obtain ⟨rfl, inRest⟩ := List.cons_prefix_cons.mp within
            exact Or.inr ⟨others, inRest, beyond⟩

/-! ## Balanced brackets -/

/-- Within `extra` more open brackets, balanced ones reach as much deeper. -/
theorem deepest_of_balances (extra : Nat) (balanced : balances depth brackets = true) :
    deepest (extra + depth) brackets = extra + deepest depth brackets := by
  induction brackets generalizing depth with
  | nil => rfl
  | cons bracket rest ih =>
      rw [deepest, deepest, ← Nat.add_max_add_left]
      apply congrArg (max _)
      cases bracket with
      | opening => exact ih balanced
      | closing =>
          cases depth with
          | zero => cases balanced
          | succ depth => exact ih balanced

end Depth

/-! ## Phrases keep the brackets -/

section Phrases
variable {token : Token} {tokens rest : List Token} {content : Leaf}

theorem bracket_of_keyword {word : Keyword} (keyword : token.keyword? = some word) :
    token.bracket? = none := by
  cases token <;> first | rfl | cases keyword

theorem bracket_punctuation (text : String) :
    (Leaf.punctuation text).bracket? =
      if text = "(" then some .opening else if text = ")" then some .closing else none := by
  rw [Leaf.bracket?, Leaf.opensBracket, Leaf.closesBracket, Leaf.isPunctuation, Leaf.isPunctuation,
    Leaf.punctuation]
  by_cases opens : text = "("
  · simp [opens]
  · by_cases closes : text = ")"
    · simp [closes]
    · simp [opens, closes]

theorem bracket_of_kind (kind : content.kind ≠ .punctuation) : content.bracket? = none := by
  simp [Leaf.bracket?, Leaf.opensBracket, Leaf.closesBracket, Leaf.isPunctuation, kind]

theorem kind_of_bracket {bracket : Bracket} (mark : content.bracket? = some bracket) :
    content.kind = .punctuation := by
  by_cases kind : content.kind = .punctuation
  · exact kind
  · rw [bracket_of_kind kind] at mark
    cases mark

def LeafKind.ofWords : List LeafKind :=
  [.keyword, .verb, .name, .comparison]

theorem pairLeaf_kind {first second : Keyword} (pair : pairLeaf? first second = some content) :
    content.kind ∈ LeafKind.ofWords := by
  unfold pairLeaf? at pair
  split at pair
  · cases pair
    simp [LeafKind.ofWords, Leaf.keyword]
  · split at pair
    · cases pair
      simp [LeafKind.ofWords, Leaf.keyword]
    · split at pair
      · cases pair
        simp [LeafKind.ofWords, Leaf.comparison]
      · cases pair

theorem wordLeaf_kind (word : Word) (rest : List Token) :
    (wordLeaf word rest).1.kind ∈ LeafKind.ofWords := by
  unfold wordLeaf
  split
  · simp [LeafKind.ofWords, Leaf.name]
  · split
    · simp [LeafKind.ofWords]
    · split
      · next content pair =>
          obtain ⟨second, -, made⟩ := Option.bind_eq_some_iff.mp pair
          exact pairLeaf_kind made
      · split
        · simp [LeafKind.ofWords, Leaf.comparison]
        · split
          · simp [LeafKind.ofWords, Leaf.name]
          · split <;> simp [LeafKind.ofWords, Leaf.keyword]

theorem bracket_of_joinPhrase {words : List Keyword} (phrase : joinPhrase? tokens = some words) :
    ∀ token ∈ tokens.take words.length, token.bracket? = none := by
  induction tokens generalizing words with
  | nil => cases phrase
  | cons token rest ih =>
      rw [joinPhrase?] at phrase
      cases keyword : token.keyword? with
      | none => simp [keyword] at phrase
      | some word =>
          have here := bracket_of_keyword keyword
          simp only [keyword] at phrase
          split at phrase
          · cases phrase
            simpa using here
          · split at phrase
            · obtain ⟨others, behind, rfl⟩ := Option.map_eq_some_iff.mp phrase
              intro next member
              rcases List.mem_cons.mp member with rfl | inRest
              · exact here
              · exact ih behind next inRest
            · cases phrase

theorem bracket_of_wordLeaf (word : Word) (rest : List Token) :
    ∀ token ∈ rest.take ((wordLeaf word rest).2 - 1), token.bracket? = none := by
  unfold wordLeaf
  split
  · simp
  · split
    · simp
    · split
      · next pair =>
          obtain ⟨second, keyword, -⟩ := Option.bind_eq_some_iff.mp pair
          cases rest with
          | nil => simp
          | cons next further => simpa using bracket_of_keyword keyword
      · split
        · simp
        · split
          · simp
          · split
            · next words phrase =>
                intro token member
                apply bracket_of_joinPhrase phrase
                cases length : words.length with
                | zero => simp [length] at member
                | succ size =>
                    simp only [length, Nat.add_sub_cancel] at member
                    exact List.mem_cons_of_mem _ member
            · simp

/-- A phrase is the bracket that its first token is, and the other tokens of it are none. -/
theorem phraseAt_bracket (before : Option Leaf) (token : Token) (rest : List Token) :
    (phraseAt before token rest).1.bracket? = token.bracket? ∧
      ∀ next ∈ rest.take ((phraseAt before token rest).2 - 1), next.bracket? = none := by
  cases token with
  | word word =>
      have noMark : (wordLeaf word rest).1.kind ≠ .punctuation := by
        intro mark
        have kind := wordLeaf_kind word rest
        rw [mark] at kind
        exact absurd kind (by decide)
      exact ⟨bracket_of_kind noMark, bracket_of_wordLeaf word rest⟩
  | star =>
      rw [phraseAt]
      refine ⟨bracket_of_kind ?_, by simp⟩
      split <;> simp
  | leftBracket | rightBracket | comma | period | cast =>
      simp [phraseAt, bracket_punctuation, Token.bracket?]
  | _ =>
      refine ⟨bracket_of_kind ?_, by simp [phraseAt]⟩
      simp [phraseAt, Leaf.comparison, Leaf.literal]

theorem brackets_leavesFrom (before : Option Leaf) (tokens : List Token) :
    bracketsOf (leavesFrom before tokens) = tokens.filterMap Token.bracket? := by
  fun_induction leavesFrom before tokens with
  | case1 before => rfl
  | case2 before token rest phrase ih =>
      obtain ⟨here, taken⟩ := phraseAt_bracket before token rest
      have skipped : (rest.take (phrase.2 - 1)).filterMap Token.bracket? = [] :=
        List.filterMap_eq_nil_iff.mpr taken
      have behind : rest.filterMap Token.bracket? =
          (rest.drop (phrase.2 - 1)).filterMap Token.bracket? := by
        have parts : (rest.take (phrase.2 - 1) ++ rest.drop (phrase.2 - 1)).filterMap
            Token.bracket? = _ := List.filterMap_append
        rwa [List.take_append_drop, skipped, List.nil_append] at parts
      rw [bracketsOf, List.filterMap_cons, here, List.filterMap_cons, behind, ← ih]
      rfl

theorem brackets_leavesOf (tokens : List Token) :
    bracketsOf (leavesOf tokens) = statementBrackets tokens :=
  brackets_leavesFrom none (firstStatement tokens)

end Phrases

/-! ## Nesting within a limit -/

namespace OpenGroups

variable {limit : Nat} {groups next : OpenGroups} {content : Leaf}

def closing (groups : OpenGroups) (content : Leaf) : OpenGroups :=
  if groups.depth = 0 then groups.push (.leaf content) else (groups.push (.leaf content)).close

theorem depth_closing (groups : OpenGroups) (content : Leaf) :
    (groups.closing content).depth = groups.depth - 1 := by
  obtain ⟨inner, outer⟩ := groups
  cases outer <;> rfl

theorem read_eq (limit : Nat) (groups : OpenGroups) (content : Leaf) :
    groups.read? limit content =
      match content.bracket? with
      | none => some (groups.push (.leaf content))
      | some .opening =>
          if groups.depth < limit then some (groups.openBracket content) else none
      | some .closing => some (groups.closing content) := by
  unfold read? Leaf.bracket?
  by_cases opens : content.opensBracket = true
  · simp only [opens, if_true]
  · by_cases closes : content.closesBracket = true
    · by_cases base : groups.depth = 0
      · simp [opens, closes, base, closing]
      · simp [opens, closes, base, closing]
    · simp [opens, closes]

theorem depth_read (read : groups.read? limit content = some next) :
    next.depth = depthAfter groups.depth (bracketsOf [content]) := by
  rw [read_eq] at read
  rw [bracketsOf, List.filterMap_cons, List.filterMap_nil]
  cases kind : content.bracket? with
  | none =>
      rw [kind] at read
      cases read
      rfl
  | some bracket =>
      rw [kind] at read
      cases bracket with
      | opening =>
          dsimp only at read
          split at read
          · cases read
            rfl
          · cases read
      | closing =>
          cases read
          exact groups.depth_closing content

theorem depth_run {last : OpenGroups} {leaves : List Leaf} (run : Reads limit groups leaves last) :
    last.depth = depthAfter groups.depth (bracketsOf leaves) := by
  induction run with
  | done => rfl
  | read here _ ih => rw [bracketsOf_cons, depthAfter_append, ← depth_read here, ih]

theorem foldlM_eq_none_iff (leaves : List Leaf) :
    ∀ {groups : OpenGroups}, groups.depth ≤ limit →
      (leaves.foldlM (read? limit) groups = none ↔
        limit < deepest groups.depth (bracketsOf leaves)) := by
  induction leaves with
  | nil =>
      intro groups within
      simpa [bracketsOf, deepest] using within
  | cons content rest ih =>
      intro groups within
      rw [List.foldlM_cons, read_eq, bracketsOf, List.filterMap_cons]
      cases kind : content.bracket? with
      | none => exact ih within
      | some bracket =>
          have deeper : limit < deepest groups.depth (bracket :: bracketsOf rest) ↔
              limit < deepest (bracket.turn groups.depth) (bracketsOf rest) := by
            rw [deepest]
            omega
          refine Iff.trans ?_ deeper.symm
          cases bracket with
          | opening =>
              by_cases room : groups.depth < limit
              · simp only [if_pos room]
                exact ih room
              · have full := le_deepest (groups.depth + 1) (bracketsOf rest)
                simp only [if_neg room, Bracket.turn]
                refine iff_of_true rfl ?_
                omega
          | closing =>
              have turned := groups.depth_closing content
              have enough : (groups.closing content).depth ≤ limit := by omega
              have behind := ih enough
              rwa [turned] at behind

end OpenGroups

theorem nestBrackets_eq_none_iff {limit : Nat} {leaves : List Leaf} :
    nestBrackets limit leaves = none ↔ limit < deepest 0 (bracketsOf leaves) := by
  rw [nestBrackets, Option.map_eq_none_iff]
  exact OpenGroups.foldlM_eq_none_iff leaves (Nat.zero_le limit)

theorem deepest_le_of_nested {limit : Nat} {leaves : List Leaf} {nested : List Node}
    (nests : nestBrackets limit leaves = some nested) :
    deepest 0 (bracketsOf leaves) ≤ limit := by
  apply Nat.le_of_not_lt
  intro deeper
  rw [nestBrackets_eq_none_iff.mpr deeper] at nests
  cases nests

end SqlMetrics
