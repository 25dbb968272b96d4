import Mathlib.Data.Nat.Init
import SqlMetrics.Proofs.Acceptance
import SqlMetrics.Proofs.Phrases
import SqlMetrics.Proofs.TopLevel

/-! # Joins counted on the words

The joins of a statement are its words `JOIN` outside brackets and outside `WHERE` clauses that
follow no modifier, and each word `JOIN` ends one phrase, which takes all modifiers before it
(`joins_of_words`).  Places are counted from the first token of the statement.  The proof goes along
the phrases: one phrase has at most one plain join, at its beginning (`plainJoin_iff`), and opens or
ends a clause there or nowhere (`staysOpen_behind`). -/
set_option autoImplicit false
namespace SqlMetrics

open Node

/-! ## Places in a statement -/

/-- The keyword that the token at a place spells. -/
def wordAt (tokens : List Token) (i : Nat) : Option Keyword :=
  tokens[i]?.bind Token.keyword?

def leafAt : List Phrase → Nat → Option Leaf
  | [], _ => none
  | phrase :: rest, i =>
      if i = 0 then some phrase.leaf
      else if i < phrase.tokens.length then none
      else leafAt rest (i - phrase.tokens.length)

/-- No bracket is open before the place. -/
def OnTop (tokens : List Token) (i : Nat) : Prop :=
  openAfter (tokens.take i) = 0

def BeginsClause (tokens : List Token) (i : Nat) : Prop :=
  wordAt tokens i = some .WHERE ∧ OnTop tokens i

/-- A keyword that ends `WHERE` clauses, or a closing bracket that closes nothing. -/
def EndsClause (tokens : List Token) (i : Nat) : Prop :=
  (leafAt (phrasesFrom none tokens) i).any (fun content => closesWhere (.leaf content)) ∧
    OnTop tokens i

/-- A `WHERE` clause begins at the place or before it, and none of its ends follows up to there. -/
def InClause (tokens : List Token) (i : Nat) : Prop :=
  ∃ j ≤ i, BeginsClause tokens j ∧ ∀ k, j < k → k ≤ i → ¬ EndsClause tokens k

/-- The word `JOIN` outside brackets and `WHERE` clauses, with no modifier right before it. -/
structure PlainJoin (tokens : List Token) (i : Nat) : Prop where
  word : wordAt tokens i = some .JOIN
  onTop : OnTop tokens i
  outside : ¬ InClause tokens i
  unmodified : ((tokens.take i).getLast?.any Token.modifiesJoin) = false

/-- The modifiers of a join that stand last in some tokens, with nothing between them. -/
def modifiersBefore (tokens : List Token) : List Keyword :=
  ((tokens.reverse.takeWhile Token.modifiesJoin).filterMap Token.keyword?).reverse

/-- The last token of this phrase stands at the place. -/
def EndsAt (phrases : List Phrase) (n i : Nat) : Prop :=
  n < phrases.length ∧ (tokensOf (phrases.take (n + 1))).length = i + 1

section Decidable
variable (tokens : List Token) (i : Nat)

instance : Decidable (OnTop tokens i) :=
  inferInstanceAs (Decidable (_ = 0))

instance : Decidable (BeginsClause tokens i) :=
  inferInstanceAs (Decidable (_ ∧ _))

instance : Decidable (EndsClause tokens i) :=
  inferInstanceAs (Decidable (_ ∧ _))

instance : Decidable (InClause tokens i) :=
  inferInstanceAs (Decidable (∃ j, j ≤ i ∧ BeginsClause tokens j ∧
    ∀ k, j + 1 ≤ k → k ≤ i → ¬ EndsClause tokens k))

instance : Decidable (PlainJoin tokens i) :=
  decidable_of_iff (wordAt tokens i = some .JOIN ∧ OnTop tokens i ∧ ¬ InClause tokens i ∧
      (tokens.take i).getLast?.any Token.modifiesJoin = false)
    ⟨fun ⟨word, onTop, outside, unmodified⟩ => ⟨word, onTop, outside, unmodified⟩,
      fun join => ⟨join.word, join.onTop, join.outside, join.unmodified⟩⟩

end Decidable

/-! ## Clauses that stay open -/

/-- Something began before the place and has not ended before it. -/
def StaysOpen (begins ends : Nat → Prop) (n : Nat) : Prop :=
  ∃ j < n, begins j ∧ ∀ k, j < k → k < n → ¬ ends k

/-- Nothing begins or ends within a stretch but at its first place. -/
theorem staysOpen_add {begins ends : Nat → Prop} {n width : Nat} (wide : 0 < width)
    (noBegin : ∀ m, 0 < m → m < width → ¬ begins (n + m))
    (noEnd : ∀ m, 0 < m → m < width → ¬ ends (n + m)) :
    StaysOpen begins ends (n + width) ↔ begins n ∨ StaysOpen begins ends n ∧ ¬ ends n := by
  constructor
  · rintro ⟨j, within, begun, open_⟩
    rcases Nat.lt_trichotomy j n with before | rfl | behind
    · have stays : ∀ k, j < k → k < n → ¬ ends k :=
        fun k later earlier => open_ k later (Nat.lt_add_right width earlier)
      exact Or.inr ⟨⟨j, before, begun, stays⟩, open_ n before (by omega)⟩
    · exact Or.inl begun
    · obtain ⟨m, rfl⟩ := Nat.exists_eq_add_of_lt behind
      exact absurd begun (noBegin (m + 1) (Nat.succ_pos m) (by omega))
  · rintro (begun | ⟨⟨j, before, begun, open_⟩, goesOn⟩)
    · refine ⟨n, by omega, begun, fun k later earlier => ?_⟩
      obtain ⟨m, rfl⟩ := Nat.exists_eq_add_of_lt later
      exact noEnd (m + 1) (Nat.succ_pos m) (by omega)
    · refine ⟨j, by omega, begun, fun k later earlier => ?_⟩
      rcases Nat.lt_trichotomy k n with inside | rfl | behind
      · exact open_ k later inside
      · exact goesOn
      · obtain ⟨m, rfl⟩ := Nat.exists_eq_add_of_lt behind
        exact noEnd (m + 1) (Nat.succ_pos m) (by omega)

theorem inClause_iff {tokens : List Token} {i : Nat} :
    InClause tokens i ↔ StaysOpen (BeginsClause tokens) (EndsClause tokens) (i + 1) := by
  simp only [InClause, StaysOpen, Nat.lt_succ_iff]

/-! ## The places of one phrase -/

section Phrase
variable {tokens : List Token} {front back : List Phrase} {phrase : Phrase} {m : Nat}

theorem wordAt_of_split (split : phrasesFrom none tokens = front ++ phrase :: back)
    (inside : m < phrase.tokens.length) :
    wordAt tokens ((tokensOf front).length + m) = phrase.tokens[m]?.bind Token.keyword? := by
  rw [wordAt, tokens_of_split split, List.getElem?_append_right (Nat.le_add_right _ _),
    Nat.add_sub_cancel_left, List.getElem?_append_left inside]

theorem take_of_split (split : phrasesFrom none tokens = front ++ phrase :: back)
    (within : m ≤ phrase.tokens.length) :
    tokens.take ((tokensOf front).length + m) = tokensOf front ++ phrase.tokens.take m := by
  rw [tokens_of_split split, List.take_length_add_append, List.take_append_of_le_length within]

theorem leafAt_append (filled : ∀ other ∈ front, 0 < other.tokens.length)
    (inside : m < phrase.tokens.length) :
    leafAt (front ++ phrase :: back) ((tokensOf front).length + m) =
      if m = 0 then some phrase.leaf else none := by
  induction front with
  | nil => simp [leafAt, tokensOf, inside]
  | cons first rest ih =>
      have here := filled first List.mem_cons_self
      have width : (tokensOf (first :: rest)).length + m =
          first.tokens.length + ((tokensOf rest).length + m) := by
        rw [tokensOf_cons, List.length_append, Nat.add_assoc]
      rw [List.cons_append, leafAt, width, if_neg (by omega), if_neg (by omega),
        Nat.add_sub_cancel_left]
      exact ih fun other member => filled other (List.mem_cons_of_mem _ member)

theorem leafAt_of_split (split : phrasesFrom none tokens = front ++ phrase :: back)
    (inside : m < phrase.tokens.length) :
    leafAt (phrasesFrom none tokens) ((tokensOf front).length + m) =
      if m = 0 then some phrase.leaf else none := by
  have filled : ∀ other ∈ front, 0 < other.tokens.length := fun other member =>
    List.length_pos_iff.mpr (tokens_ne_nil (split ▸ List.mem_append_left _ member))
  rw [split]
  exact leafAt_append filled inside

theorem openAfter_append (front back : List Token) :
    openAfter (front ++ back) = depthAfter (openAfter front) (back.filterMap Token.bracket?) := by
  rw [openAfter, List.filterMap_append, depthAfter_append, openAfter]

theorem onTop_of_split (split : phrasesFrom none tokens = front ++ phrase :: back) :
    OnTop tokens (tokensOf front).length ↔ openAfter (tokensOf front) = 0 := by
  have before := take_of_split split (Nat.zero_le _)
  rw [Nat.add_zero, List.take_zero, List.append_nil] at before
  rw [OnTop, before]

theorem beginsClause_of_split (split : phrasesFrom none tokens = front ++ phrase :: back) :
    BeginsClause tokens (tokensOf front).length ↔
      phrase.leaf.isKeyword "WHERE" = true ∧ openAfter (tokensOf front) = 0 := by
  have spelled := spelled_of_split split
  have first := wordAt_of_split split (List.length_pos_iff.mpr spelled.tokens_ne_nil)
  rw [Nat.add_zero] at first
  rw [BeginsClause, onTop_of_split split, first]
  refine and_congr_left fun _ => ⟨fun word => ?_, fun leaf => ?_⟩
  · obtain ⟨token, found, word⟩ := Option.bind_eq_some_iff.mp word
    have begins : (Leaf.keyword "WHERE").isKeyword "WHERE" = true := by decide
    rw [spelled.whereWord (List.mem_of_getElem? found) word]
    exact begins
  · obtain ⟨token, tokens, word⟩ := spelled.isWhere leaf
    rw [tokens]
    exact word

theorem endsClause_of_split (split : phrasesFrom none tokens = front ++ phrase :: back) :
    EndsClause tokens (tokensOf front).length ↔
      closesWhere (.leaf phrase.leaf) = true ∧ openAfter (tokensOf front) = 0 := by
  have filled := (spelled_of_split split).tokens_ne_nil
  have first := leafAt_of_split split (List.length_pos_iff.mpr filled)
  rw [Nat.add_zero, if_pos rfl] at first
  rw [EndsClause, first, Option.any_some, onTop_of_split split]

theorem not_beginsClause_within (split : phrasesFrom none tokens = front ++ phrase :: back)
    (later : 0 < m) (inside : m < phrase.tokens.length) :
    ¬ BeginsClause tokens ((tokensOf front).length + m) := by
  rintro ⟨word, -⟩
  rw [wordAt_of_split split inside] at word
  obtain ⟨token, found, word⟩ := Option.bind_eq_some_iff.mp word
  have alone := (spelled_of_split split).whereWord (List.mem_of_getElem? found) word
  rw [alone, List.length_singleton] at inside
  omega

theorem not_endsClause_within (split : phrasesFrom none tokens = front ++ phrase :: back)
    (later : 0 < m) (inside : m < phrase.tokens.length) :
    ¬ EndsClause tokens ((tokensOf front).length + m) := by
  rintro ⟨ends, -⟩
  rw [leafAt_of_split split inside, if_neg (Nat.ne_of_gt later)] at ends
  cases ends

/-- Where a phrase ends, a clause is open if one begins with it, or was open and does not end with
it. -/
theorem staysOpen_behind (split : phrasesFrom none tokens = front ++ phrase :: back) :
    StaysOpen (BeginsClause tokens) (EndsClause tokens) (tokensOf (front ++ [phrase])).length ↔
      phrase.leaf.isKeyword "WHERE" = true ∧ openAfter (tokensOf front) = 0 ∨
        StaysOpen (BeginsClause tokens) (EndsClause tokens) (tokensOf front).length ∧
          ¬ (closesWhere (.leaf phrase.leaf) = true ∧ openAfter (tokensOf front) = 0) := by
  have filled := List.length_pos_iff.mpr (spelled_of_split split).tokens_ne_nil
  have width : (tokensOf (front ++ [phrase])).length =
      (tokensOf front).length + phrase.tokens.length := by
    simp [tokensOf]
  rw [width, staysOpen_add filled (fun _ => not_beginsClause_within split)
    (fun _ => not_endsClause_within split), beginsClause_of_split split, endsClause_of_split split]

/-- A phrase has no plain join but at its beginning, where it has one if its leaf is the word
`JOIN`. -/
theorem plainJoin_iff (split : phrasesFrom none tokens = front ++ phrase :: back)
    (inside : m < phrase.tokens.length) :
    PlainJoin tokens ((tokensOf front).length + m) ↔
      m = 0 ∧ openAfter (tokensOf front) = 0 ∧
        ¬ StaysOpen (BeginsClause tokens) (EndsClause tokens) (tokensOf front).length ∧
        phrase.leaf.isKeyword "JOIN" = true := by
  have spelled := spelled_of_split split
  have clauses (leaf : phrase.leaf.isKeyword "JOIN" = true) :
      InClause tokens (tokensOf front).length ↔
        StaysOpen (BeginsClause tokens) (EndsClause tokens) (tokensOf front).length := by
    have noWhere : phrase.leaf.isKeyword "WHERE" = false :=
      Leaf.isKeyword_apart leaf (by decide)
    have goesOn : ¬ closesWhere (.leaf phrase.leaf) = true := by
      intro closes
      have noJoin : phrase.leaf.isKeyword "JOIN" = false :=
        isKeyword_of_closesWhere closes (by decide)
      rw [noJoin] at leaf
      cases leaf
    rw [inClause_iff, staysOpen_add Nat.one_pos (by omega) (by omega), beginsClause_of_split split,
      endsClause_of_split split]
    simp [noWhere, goesOn]
  constructor
  · rintro ⟨word, onTop, outside, unmodified⟩
    rw [wordAt_of_split split inside] at word
    obtain ⟨token, found, word⟩ := Option.bind_eq_some_iff.mp word
    obtain ⟨modifiers, run, rfl, rfl, spell, modify⟩ := spelled.joinWord found word
    rw [take_of_split split (Nat.le_of_lt inside), List.take_left] at unmodified
    have alone : run = [] := by
      rcases List.eq_nil_or_concat run with empty | ⟨others, last, rfl⟩
      · exact empty
      · have modifies := spell.modifiesJoin modify last (by simp)
        simp [modifies] at unmodified
    subst alone
    rw [Spell, List.map_nil, eq_comm, List.map_eq_nil_iff] at spell
    have leaf : (joinLeaf modifiers).isKeyword "JOIN" = true := by
      rw [joinLeaf_isJoin, spell, List.isEmpty_nil]
    exact ⟨rfl, (onTop_of_split split).mp onTop, mt (clauses leaf).mpr outside, leaf⟩
  · rintro ⟨rfl, onTop, closed, leaf⟩
    obtain ⟨token, alone, word⟩ := spelled.isJoin leaf
    have joined : joinPhrase? (tokensOf (phrase :: back)) ≠ none := by
      rw [tokensOf_cons, alone, List.singleton_append, joinPhrase?, word]
      exact Option.some_ne_none _
    refine ⟨?_, (onTop_of_split split).mpr onTop, mt (clauses leaf).mp closed, ?_⟩
    · rw [wordAt_of_split split inside, alone]
      exact word
    · rw [take_of_split split (Nat.zero_le _), List.take_zero, List.append_nil]
      cases before : (tokensOf front).getLast? with
      | none => rfl
      | some last => exact notMidRun_of_split split joined before

/-! ## Along the phrases -/

theorem countP_first {p : Nat → Bool} {n width : Nat} (filled : 0 < width)
    (later : ∀ m, 0 < m → m < width → p (n + m) = false) :
    (List.range' n width).countP p = if p n then 1 else 0 := by
  obtain ⟨width, rfl⟩ := Nat.exists_eq_add_one.mpr filled
  have noLater : (List.range' (n + 1) width).countP p = 0 := by
    refine List.countP_eq_zero.mpr fun i member => ?_
    obtain ⟨beyond, within⟩ := List.mem_range'_1.mp member
    obtain ⟨m, rfl⟩ := Nat.exists_eq_add_of_le (Nat.le_of_succ_le beyond)
    simp [later m (by omega) (by omega)]
  rw [List.range'_succ, List.countP_cons, noLater, Nat.zero_add]

theorem countP_plainJoin (split : phrasesFrom none tokens = front ++ phrase :: back)
    {inClause : Bool} (clause : inClause = true ↔
      StaysOpen (BeginsClause tokens) (EndsClause tokens) (tokensOf front).length) :
    (List.range' (tokensOf front).length phrase.tokens.length).countP
        (fun i => PlainJoin tokens i) =
      if openAfter (tokensOf front) = 0 ∧ inClause = false ∧ phrase.leaf.isKeyword "JOIN" = true
      then 1 else 0 := by
  have filled := List.length_pos_iff.mpr (spelled_of_split split).tokens_ne_nil
  have first := plainJoin_iff split filled
  rw [Nat.add_zero, ← clause] at first
  rw [countP_first filled fun m later inside => ?_]
  · simp [first]
  · simp [plainJoin_iff split inside, Nat.ne_of_gt later]

theorem joinsOutside_topLeaves (inClause : Bool) (depth : Nat) (content : Leaf)
    (rest : List Leaf) :
    joinsOutside inClause (topLeaves depth (content :: rest)) =
      (if depth = 0 ∧ inClause = false ∧ content.isKeyword "JOIN" = true then 1 else 0) +
        joinsOutside (if depth = 0 then clauseBehind inClause content else inClause)
          (topLeaves (depthAfter depth (bracketsOf [content])) rest) := by
  rw [topLeaves]
  by_cases top : depth = 0
  · cases opens : content.opensBracket with
    | false => simp [top, joinsOutside]
    | true =>
        have bracket := eq_of_opensBracket opens
        have goesOn : clauseBehind inClause content = inClause := by
          cases inClause <;> simp +decide [bracket, clauseBehind]
        have noJoin : content.isKeyword "JOIN" = false := by
          rw [bracket]
          rfl
        simp [top, goesOn, noJoin]
  · simp [top]

/-- From each phrase on, the plain joins are those that its leaf and the leaves behind it tell. -/
theorem joinsOutside_phrases (todo : List Phrase) :
    ∀ done inClause, phrasesFrom none tokens = done ++ todo →
      (inClause = true ↔
        StaysOpen (BeginsClause tokens) (EndsClause tokens) (tokensOf done).length) →
      joinsOutside inClause (topLeaves (openAfter (tokensOf done)) (todo.map Phrase.leaf)) =
        (List.range' (tokensOf done).length (tokensOf todo).length).countP
          (fun i => PlainJoin tokens i) := by
  induction todo with
  | nil => intro done inClause _ _; rfl
  | cons phrase todo ih =>
      intro done inClause split clause
      have depth : openAfter (tokensOf (done ++ [phrase])) =
          depthAfter (openAfter (tokensOf done)) (bracketsOf [phrase.leaf]) := by
        rw [tokensOf_append, openAfter_append, ← bracket_of_split split, tokensOf_cons]
        simp [tokensOf]
      have width : (tokensOf (done ++ [phrase])).length =
          (tokensOf done).length + phrase.tokens.length := by
        simp [tokensOf]
      have behind := ih (done ++ [phrase])
        (if openAfter (tokensOf done) = 0 then clauseBehind inClause phrase.leaf else inClause)
        (by rw [split, List.append_assoc, List.singleton_append]) (by
          rw [staysOpen_behind split, ← clause]
          by_cases top : openAfter (tokensOf done) = 0 <;> simp [top, clauseBehind])
      rw [depth, width] at behind
      rw [List.map_cons, joinsOutside_topLeaves, behind, tokensOf_cons, List.length_append,
        ← List.range'_append_1, List.countP_append, countP_plainJoin split clause]

end Phrase

/-! ## The phrase of each join -/

theorem modifiersBefore_append {front run : List Token} {modifiers : List Keyword}
    (spell : Spell modifiers run) (modify : ∀ word ∈ modifiers, word.modifiesJoin)
    (stops : ∀ last ∈ front.getLast?, last.modifiesJoin = false) :
    modifiersBefore (front ++ run) = modifiers := by
  have all : ∀ token ∈ run.reverse, token.modifiesJoin = true := fun token member =>
    spell.modifiesJoin modify token (List.mem_reverse.mp member)
  have noModifiers : front.reverse.takeWhile Token.modifiesJoin = [] := by
    rw [← List.head?_reverse] at stops
    cases last : front.reverse with
    | nil => rfl
    | cons token rest =>
        rw [last] at stops
        exact List.takeWhile_cons_of_neg (by simp [stops token rfl])
  have words : run.filterMap Token.keyword? = modifiers := by
    have mapped : (run.map Token.keyword?).filterMap id = run.filterMap Token.keyword? :=
      List.filterMap_map
    rw [← mapped, spell, List.filterMap_map]
    exact List.filterMap_some
  rw [modifiersBefore, List.reverse_append, List.takeWhile_append_of_pos all, noModifiers,
    List.append_nil, List.filterMap_reverse, List.reverse_reverse, words]

theorem exists_split {phrases : List Phrase} :
    ∀ {i : Nat}, i < (tokensOf phrases).length → ∃ front phrase back m,
      phrases = front ++ phrase :: back ∧ i = (tokensOf front).length + m ∧
        m < phrase.tokens.length := by
  induction phrases with
  | nil => intro i within; cases within
  | cons first rest ih =>
      intro i within
      by_cases here : i < first.tokens.length
      · exact ⟨[], first, rest, i, rfl, (Nat.zero_add i).symm, here⟩
      · rw [tokensOf_cons, List.length_append] at within
        obtain ⟨front, phrase, back, m, rfl, place, inside⟩ :=
          ih (i := i - first.tokens.length) (by omega)
        refine ⟨first :: front, phrase, back, m, rfl, ?_, inside⟩
        rw [tokensOf_cons, List.length_append]
        omega

theorem width_take_lt {phrases : List Phrase} (filled : ∀ phrase ∈ phrases, phrase.tokens ≠ [])
    {m n : Nat} (less : m < n) (within : n ≤ phrases.length) :
    (tokensOf (phrases.take m)).length < (tokensOf (phrases.take n)).length := by
  induction n with
  | zero => cases less
  | succ n ih =>
      have phrase := List.length_pos_iff.mpr (filled phrases[n] (List.getElem_mem within))
      rw [List.take_succ_eq_append_getElem within, tokensOf_append, List.length_append]
      have last : (tokensOf [phrases[n]]).length = phrases[n].tokens.length := by simp [tokensOf]
      rcases Nat.lt_succ_iff_lt_or_eq.mp less with earlier | rfl
      · have before := ih earlier (Nat.le_of_succ_le within)
        omega
      · omega

theorem endsAt_unique {tokens : List Token} {m n i : Nat}
    (first : EndsAt (phrasesFrom none tokens) m i)
    (second : EndsAt (phrasesFrom none tokens) n i) : m = n := by
  have filled : ∀ phrase ∈ phrasesFrom none tokens, phrase.tokens ≠ [] := fun _ => tokens_ne_nil
  rcases Nat.lt_trichotomy m n with less | same | more
  · have apart := width_take_lt filled (Nat.succ_lt_succ less) second.1
    rw [first.2, second.2] at apart
    exact absurd apart (Nat.lt_irrefl _)
  · exact same
  · have apart := width_take_lt filled (Nat.succ_lt_succ more) first.1
    rw [first.2, second.2] at apart
    exact absurd apart (Nat.lt_irrefl _)

/-- The word `JOIN` ends one phrase, and this has all modifiers before it. -/
theorem exists_joinPhrase {tokens : List Token} {i : Nat}
    (spelled : wordAt tokens i = some .JOIN) :
    ∃ n phrase, (phrasesFrom none tokens)[n]? = some phrase ∧
      phrase.leaf = .keyword (phraseText (modifiersBefore (tokens.take i) ++ [.JOIN])) ∧
      ∀ m, EndsAt (phrasesFrom none tokens) m i ↔ m = n := by
  have within : i < (tokensOf (phrasesFrom none tokens)).length := by
    obtain ⟨token, found, -⟩ := Option.bind_eq_some_iff.mp spelled
    rw [tokens_phrasesFrom]
    exact (List.getElem?_eq_some_iff.mp found).1
  obtain ⟨front, phrase, back, m, split, rfl, inside⟩ := exists_split within
  rw [wordAt_of_split split inside] at spelled
  obtain ⟨token, found, word⟩ := Option.bind_eq_some_iff.mp spelled
  obtain ⟨modifiers, run, rfl, rfl, spell, modify⟩ := (spelled_of_split split).joinWord found word
  have joined : joinPhrase? (tokensOf (⟨joinLeaf modifiers, run ++ [token]⟩ :: back)) ≠ none := by
    rw [tokensOf_cons, List.append_assoc, List.singleton_append, joinPhrase_run spell modify word]
    exact Option.some_ne_none _
  have ends : EndsAt (phrasesFrom none tokens) front.length
      ((tokensOf front).length + run.length) := by
    rw [EndsAt, split]
    refine ⟨by simp, ?_⟩
    rw [List.take_length_add_append]
    simp [tokensOf, Nat.add_assoc]
  have before := modifiersBefore_append spell modify fun last => notMidRun_of_split split joined
  refine ⟨front.length, ⟨joinLeaf modifiers, run ++ [token]⟩, ?_, ?_,
    fun m => ⟨fun other => endsAt_unique other ends, ?_⟩⟩
  · rw [split]
    simp
  · rw [take_of_split split (Nat.le_of_lt inside), List.take_left, before]
    rfl
  · rintro rfl
    exact ends

/-- Joins are counted on the words of the first statement.  A join counts if it stands outside
brackets and `WHERE` clauses and has no modifier.  The phrases tile the statement, and each word
`JOIN` is the last one of exactly one phrase, a keyword that begins with all modifiers before it. -/
theorem joins_of_words {tokens : List Token} {statement : Statement}
    (accepted : Statement.ofTokens tokens = .ok statement) :
    statement.joins = (List.range (firstStatement tokens).length).countP
        (fun i => PlainJoin (firstStatement tokens) i) ∧
      (phrasesOf tokens).map Phrase.leaf = leavesOf tokens ∧
      tokensOf (phrasesOf tokens) = firstStatement tokens ∧
      ∀ i, wordAt (firstStatement tokens) i = some .JOIN →
        ∃ n phrase, (phrasesOf tokens)[n]? = some phrase ∧
          phrase.leaf = .keyword
            (phraseText (modifiersBefore ((firstStatement tokens).take i) ++ [.JOIN])) ∧
          ∀ m, EndsAt (phrasesOf tokens) m i ↔ m = n := by
  have leaves : (phrasesOf tokens).map Phrase.leaf = leavesOf tokens := leaves_phrasesFrom _ _
  have tiled : tokensOf (phrasesOf tokens) = firstStatement tokens := tokens_phrasesFrom _ _
  refine ⟨?_, leaves, tiled, fun i => exists_joinPhrase⟩
  have nothing : ¬ StaysOpen (BeginsClause (firstStatement tokens))
      (EndsClause (firstStatement tokens)) 0 := by
    rintro ⟨j, before, -⟩
    cases before
  have counted := joinsOutside_phrases (phrasesOf tokens) [] false rfl
    (iff_of_false Bool.false_ne_true nothing)
  rw [leaves, tiled] at counted
  rw [joins_ofLeaves (ofLeaves_of_accepted accepted), List.range_eq_range']
  exact counted

/-- Two joins count: that before the clause and that behind its end.  A join with modifiers, one in
brackets and one in the clause do not. -/
theorem joins_around_clause :
    ∃ tokens statement, tokens = [.word ⟨"select", none⟩, .blank, .word ⟨"left", none⟩,
        .leftBracket, .word ⟨"a", none⟩, .rightBracket, .word ⟨"from", none⟩, .word ⟨"t", none⟩,
        .word ⟨"join", none⟩, .word ⟨"u", none⟩, .word ⟨"natural", none⟩, .word ⟨"left", none⟩,
        .word ⟨"join", none⟩, .word ⟨"v", none⟩, .word ⟨"where", none⟩, .word ⟨"a", none⟩,
        .word ⟨"in", none⟩, .leftBracket, .word ⟨"b", none⟩, .word ⟨"join", none⟩,
        .word ⟨"c", none⟩, .rightBracket, .word ⟨"join", none⟩, .word ⟨"d", none⟩,
        .word ⟨"group", none⟩, .word ⟨"by", none⟩, .word ⟨"a", none⟩, .word ⟨"join", none⟩] ∧
      Statement.ofTokens tokens = .ok statement ∧
      statement.joins = (List.range (firstStatement tokens).length).countP
        (fun i => PlainJoin (firstStatement tokens) i) ∧
      statement.joins = 2 ∧
      ∃ n phrase, (phrasesOf tokens)[n]? = some phrase ∧
        phrase.leaf = .keyword "NATURAL LEFT JOIN" ∧
        ∀ m, EndsAt (phrasesOf tokens) m 11 ↔ m = n := by
  let tokens : List Token := [.word ⟨"select", none⟩, .blank, .word ⟨"left", none⟩,
    .leftBracket, .word ⟨"a", none⟩, .rightBracket, .word ⟨"from", none⟩, .word ⟨"t", none⟩,
    .word ⟨"join", none⟩, .word ⟨"u", none⟩, .word ⟨"natural", none⟩, .word ⟨"left", none⟩,
    .word ⟨"join", none⟩, .word ⟨"v", none⟩, .word ⟨"where", none⟩, .word ⟨"a", none⟩,
    .word ⟨"in", none⟩, .leftBracket, .word ⟨"b", none⟩, .word ⟨"join", none⟩,
    .word ⟨"c", none⟩, .rightBracket, .word ⟨"join", none⟩, .word ⟨"d", none⟩,
    .word ⟨"group", none⟩, .word ⟨"by", none⟩, .word ⟨"a", none⟩, .word ⟨"join", none⟩]
  have lexed : leavesOf tokens = [⟨.verb, "SELECT"⟩, .name "left", .punctuation "(", .name "a",
      .punctuation ")", .keyword "FROM", .name "t", .keyword "JOIN", .name "u",
      .keyword "NATURAL LEFT JOIN", .name "v", .keyword "WHERE", .name "a", .keyword "IN",
      .punctuation "(", .name "b", .keyword "JOIN", .name "c", .punctuation ")",
      .keyword "JOIN", .name "d", .keyword "GROUP BY", .name "a", .keyword "JOIN"] := by
    decide +kernel
  have accepted := accepted_of_nested lexed (by simp) rfl
  obtain ⟨joins, -, -, words⟩ := joins_of_words accepted
  have plain : (List.range (firstStatement tokens).length).countP
      (fun i => PlainJoin (firstStatement tokens) i) = 2 := by decide +kernel
  have modified : modifiersBefore ((firstStatement tokens).take 11) = [.NATURAL, .LEFT] := by
    decide +kernel
  obtain ⟨n, phrase, found, leaf, ends⟩ := words 11 (by decide +kernel)
  rw [modified] at leaf
  exact ⟨tokens, _, rfl, accepted, joins, joins.trans plain, n, phrase, found, leaf, ends⟩

end SqlMetrics
