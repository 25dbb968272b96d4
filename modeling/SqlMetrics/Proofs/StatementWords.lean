import Mathlib.Data.List.Chain
import SqlMetrics.Proofs.Counting
import SqlMetrics.Proofs.Lossless
import SqlMetrics.Proofs.Phrases
import SqlMetrics.Proofs.ScannedSymbols

/-! # The words of a statement

Reading the leaves of a statement goes along its tokens in steps that leave out and repeat nothing
(`Covers`), shows each token as it is written but for the letters of keywords (`shownTexts`), and
reads no phrase in two parts (`Separates`); these are put together in `leaves_tile_statement`.  So
what is counted on the leaves can be counted on the words: the subqueries of a statement are its
words `SELECT` but one (`subqueries_of_words`). -/
set_option autoImplicit false
namespace SqlMetrics

open Node

/-! ## Steps -/

/-- Reading from a place on, with the leaf before it: each step yields a leaf and takes some tokens,
none of them beyond the end, the next step begins where it ends, and the reading is done where no
token is left. -/
inductive Covers (tokens : List Token) : Option Leaf → Nat → List (Leaf × Nat) → Prop where
  | done {previous : Option Leaf} : Covers tokens previous tokens.length []
  | step {previous : Option Leaf} {place width : Nat} {leaf : Leaf} {token : Token}
      {rest : List Token} {steps : List (Leaf × Nat)} (here : tokens.drop place = token :: rest)
      (read : phraseAt previous token rest = (leaf, width)) (wide : 1 ≤ width)
      (within : place + width ≤ tokens.length)
      (behind : Covers tokens leaf (place + width) steps) :
      Covers tokens previous place ((leaf, width) :: steps)

section Steps
variable {tokens : List Token}

theorem joinPhrase_length {words : List Keyword} (phrase : joinPhrase? tokens = some words) :
    1 ≤ words.length ∧ words.length ≤ tokens.length := by
  obtain ⟨modifiers, run, last, behind, rfl, rfl, spell, -, -⟩ := joinPhrase_eq_some phrase
  have same := congrArg List.length spell
  simp only [List.length_map] at same
  simp only [List.length_append, List.length_cons, List.length_nil]
  omega

theorem phraseAt_width (previous : Option Leaf) (token : Token) (rest : List Token) :
    1 ≤ (phraseAt previous token rest).2 ∧
      (phraseAt previous token rest).2 ≤ rest.length + 1 := by
  cases token with
  | word word =>
      rw [phraseAt]
      fun_cases wordLeaf word rest with
      | case3 first spelled noVerb leaf found =>
          obtain ⟨second, next, -⟩ := Option.bind_eq_some_iff.mp found
          cases rest with
          | nil => cases next
          | cons token behind => simp
      | case6 first spelled noVerb noPair noPattern noCall words phrase =>
          exact joinPhrase_length phrase
      | _ => simp
  | _ => simp [phraseAt]

/-- The leaves of the tokens behind a place are those of steps that cover them. -/
theorem exists_covers (previous : Option Leaf) (todo : List Token) :
    ∀ place ≤ tokens.length, tokens.drop place = todo →
      ∃ steps, Covers tokens previous place steps ∧
        steps.map Prod.fst = leavesFrom previous todo := by
  fun_induction leavesFrom previous todo with
  | case1 previous =>
      intro place within here
      have atEnd : place = tokens.length :=
        Nat.le_antisymm within (List.drop_eq_nil_iff.mp here)
      exact ⟨[], atEnd ▸ .done, rfl⟩
  | case2 previous token rest phrase ih =>
      intro place within here
      obtain ⟨wide, short⟩ : 1 ≤ phrase.2 ∧ phrase.2 ≤ rest.length + 1 :=
        phraseAt_width previous token rest
      have left := congrArg List.length here
      rw [List.length_drop, List.length_cons] at left
      have fits : place + phrase.2 ≤ tokens.length := by omega
      have behind : tokens.drop (place + phrase.2) = rest.drop (phrase.2 - 1) := by
        rw [← List.drop_drop, here]
        obtain ⟨width, same⟩ := Nat.exists_eq_add_one.mpr wide
        rw [same, List.drop_succ_cons, Nat.add_sub_cancel]
      obtain ⟨steps, covers, leaves⟩ := ih _ fits behind
      exact ⟨phrase :: steps, .step here rfl wide fits covers, congrArg _ leaves⟩

end Steps

/-! ## Texts -/

/-- A token as its leaf shows it, given the token behind it: a keyword is in upper case, unless it
is a side of a join that is called like a function. -/
def Token.shown (token : Token) (next : Option Token) : String :=
  match token.keyword? with
  | none => token.text
  | some keyword =>
      if keyword.isSide && next = some .leftBracket then token.text else upperText token.text

def shownTexts : List Token → List String
  | [] => []
  | token :: rest => token.shown rest.head? :: shownTexts rest

section Texts
variable {token : Token} {tokens : List Token} {word : Keyword}

theorem upperText_of_keyword (spelled : token.keyword? = some word) :
    upperText token.text = word.text := by
  cases token with
  | word spelling =>
      obtain ⟨value, quote⟩ := spelling
      cases quote with
      | some opening => cases spelled
      | none =>
          have found : Keyword.ofWord? value = some word := spelled
          exact (of_decide_eq_true (List.find?_some found :)).symm
  | _ => cases spelled

theorem shown_of_keyword {next : Option Token} (spelled : token.keyword? = some word)
    (noCall : (word.isSide && next = some .leftBracket) = false) :
    token.shown next = word.text := by
  rw [Token.shown, spelled]
  dsimp only
  rw [noCall, if_neg Bool.false_ne_true, upperText_of_keyword spelled]

theorem joinPhrase_shown {words : List Keyword} (phrase : joinPhrase? tokens = some words) :
    (shownTexts tokens).take words.length = words.map Keyword.text := by
  induction tokens generalizing words with
  | nil => cases phrase
  | cons token rest ih =>
      rw [joinPhrase?] at phrase
      cases spelled : token.keyword? with
      | none => simp [spelled] at phrase
      | some word =>
          simp only [spelled] at phrase
          split at phrase
          · next ends =>
              cases phrase
              subst ends
              simp [shownTexts, shown_of_keyword spelled rfl]
          · split at phrase
            · obtain ⟨others, further, rfl⟩ := Option.map_eq_some_iff.mp phrase
              have noCall : (word.isSide && rest.head? = some .leftBracket) = false := by
                cases rest with
                | nil => simp
                | cons next behind =>
                    have noBracket : next ≠ .leftBracket := by
                      rintro rfl
                      cases further
                    simp [noBracket]
              rw [shownTexts, List.length_cons, List.take_succ_cons, List.map_cons, ih further,
                shown_of_keyword spelled noCall]
            · cases phrase

theorem pairLeaf_text {first second : Keyword} {leaf : Leaf}
    (pair : pairLeaf? first second = some leaf) :
    leaf.text = phraseText [first, second] ∧ first.isSide = false ∧ second.isSide = false := by
  have words : first.isSide = false ∧ second.isSide = false := by
    rcases pairLeaf_cases pair with ⟨takes, rfl, -⟩ | ⟨rfl, rfl, -⟩ | ⟨rfl, pattern, -⟩
    · cases first <;> first | exact ⟨rfl, rfl⟩ | cases takes
    · exact ⟨rfl, rfl⟩
    · cases second <;> first | exact ⟨rfl, rfl⟩ | cases pattern
  refine ⟨?_, words⟩
  unfold pairLeaf? at pair
  split at pair
  · cases pair
    rfl
  · split at pair
    · cases pair
      rfl
    · split at pair
      · cases pair
        rfl
      · cases pair

theorem phraseAt_text (previous : Option Leaf) (token : Token) (rest : List Token) :
    (phraseAt previous token rest).1.text =
      " ".intercalate ((shownTexts (token :: rest)).take (phraseAt previous token rest).2) := by
  have alone (text : String) (shown : token.shown rest.head? = text) :
      text = " ".intercalate ((shownTexts (token :: rest)).take 1) := by
    rw [shownTexts, List.take_succ_cons, List.take_zero, String.intercalate_singleton, shown]
  cases token with
  | word word =>
      rw [phraseAt]
      fun_cases wordLeaf word rest with
      | case1 noWord =>
          have noWord : (Token.word word).keyword? = none := noWord
          exact alone _ (by rw [Token.shown, noWord]; rfl)
      | case2 first spelled verb =>
          exact alone _ (shown_of_keyword spelled (by cases first <;> first | rfl | cases verb))
      | case3 first spelled noVerb leaf found =>
          obtain ⟨second, next, pair⟩ := Option.bind_eq_some_iff.mp found
          obtain ⟨text, noSide, noSideToo⟩ := pairLeaf_text pair
          cases rest with
          | nil => cases next
          | cons token behind =>
              have shown : (Token.word word).shown (some token) = first.text :=
                shown_of_keyword spelled (by rw [noSide, Bool.false_and])
              have shownToo : token.shown behind.head? = second.text :=
                shown_of_keyword next (by rw [noSideToo, Bool.false_and])
              rw [shownTexts, List.head?_cons, shown, shownTexts, shownToo, text]
              rfl
      | case4 first spelled noVerb noPair pattern =>
          exact alone _ (shown_of_keyword spelled (by cases first <;> first | rfl | cases pattern))
      | case5 first spelled noVerb noPair noPattern called =>
          have spelled : (Token.word word).keyword? = some first := spelled
          exact alone _ (by rw [Token.shown, spelled]; exact if_pos called)
      | case6 first spelled noVerb noPair noPattern noCall words phrase =>
          exact congrArg (String.intercalate " ") (joinPhrase_shown phrase).symm
      | case7 first spelled noVerb noPair noPattern noCall noPhrase =>
          exact alone _ (shown_of_keyword spelled (by simpa using noCall))
  | star =>
      rw [phraseAt]
      have star := alone "*" rfl
      split <;> exact star
  | _ => exact alone _ rfl

theorem drop_shownTexts (tokens : List Token) (width : Nat) :
    (shownTexts tokens).drop width = shownTexts (tokens.drop width) := by
  induction tokens generalizing width with
  | nil => simp [shownTexts]
  | cons token rest ih =>
      cases width with
      | zero => rfl
      | succ width => rw [shownTexts, List.drop_succ_cons, List.drop_succ_cons, ih]

theorem joined_leavesFrom (previous : Option Leaf) (tokens : List Token) :
    joined (leavesFrom previous tokens) = " ".intercalate (shownTexts tokens) := by
  fun_induction leavesFrom previous tokens with
  | case1 previous => rfl
  | case2 previous token rest phrase ih =>
      have text : phrase.1.text = " ".intercalate ((shownTexts (token :: rest)).take phrase.2) :=
        phraseAt_text previous token rest
      have split : shownTexts (token :: rest) =
          (shownTexts (token :: rest)).take phrase.2 ++ shownTexts (rest.drop (phrase.2 - 1)) := by
        obtain ⟨width, same⟩ : ∃ width, phrase.2 = width + 1 :=
          Nat.exists_eq_add_one.mpr (phraseAt_width previous token rest).1
        rw [same, Nat.add_sub_cancel, ← List.drop_succ_cons (a := token), ← drop_shownTexts,
          List.take_append_drop]
      have shown : (shownTexts (token :: rest)).take phrase.2 ≠ [] := by
        rw [shownTexts, ne_eq, List.take_eq_nil_iff, not_or]
        exact ⟨Nat.ne_of_gt (phraseAt_width previous token rest).1, List.cons_ne_nil _ _⟩
      rw [joined] at ih ⊢
      rw [split, List.map_cons, text]
      cases behind : rest.drop (phrase.2 - 1) with
      | nil => rw [leavesFrom, List.map_nil, shownTexts, List.append_nil,
          String.intercalate_singleton]
      | cons next further =>
          have more : (leavesFrom (some phrase.1) (next :: further)).map Leaf.text ≠ [] := by
            rw [leavesFrom, List.map_cons]
            exact List.cons_ne_nil _ _
          have moreShown : shownTexts (next :: further) ≠ [] := List.cons_ne_nil _ _
          rw [behind] at ih
          rw [String.intercalate_cons_of_ne_nil more,
            String.intercalate_append_of_ne_nil shown moreShown, ih]

end Texts

/-! ## Whole phrases -/

/-- Two leaves one after the other that are the parts of one phrase. -/
inductive Separates : Leaf → Leaf → Prop where
  | clause {word : Keyword} (takes : word.takesBy) : Separates (.keyword word.text) (.keyword "BY")
  | union : Separates (.keyword "UNION") (.keyword "ALL")
  | pattern {word : Keyword} (compares : word.isPattern) :
      Separates (.keyword "NOT") (.comparison word.text)
  | join {word : Keyword} {modifiers : List Keyword} (modifies : word.modifiesJoin) :
      Separates (.keyword word.text) (joinLeaf modifiers)

section Whole
variable {previous : Option Leaf} {token : Token} {rest : List Token} {word : Keyword}

theorem ofWord?_text (word : Keyword) : Keyword.ofWord? word.text = some word := by
  cases word <;> decide

theorem text_injective {first second : Keyword} (same : first.text = second.text) :
    first = second := by
  have spelled := ofWord?_text first
  rw [same, ofWord?_text] at spelled
  exact (Option.some.inj spelled).symm

theorem endsInJoin_iff (word : Keyword) :
    joinLetters <:+ word.text.toList.map Char.toLower ↔ word = .JOIN := by
  cases word <;> decide

section Pair
variable {first second : Keyword} {leaf : Leaf}

theorem pairLeaf_text_ne (pair : pairLeaf? first second = some leaf) : leaf.text ≠ word.text := by
  intro same
  have noSpace : ' ' ∉ word.text.toList := by cases word <;> decide
  have space : ' ' ∈ (phraseText [first, second]).toList := by
    simp [phraseText, String.intercalate_cons_of_ne_nil]
  rw [← (pairLeaf_text pair).1, same] at space
  exact noSpace space

theorem pairLeaf_ne_joinLeaf (pair : pairLeaf? first second = some leaf)
    (modifiers : List Keyword) : leaf ≠ joinLeaf modifiers := by
  rintro rfl
  have text : phraseText (modifiers ++ [.JOIN]) = phraseText [first, second] :=
    (pairLeaf_text pair).1
  have letters := joinLeaf_letters modifiers
  rw [text] at letters
  revert letters
  rcases pairLeaf_cases pair with ⟨takes, rfl, -⟩ | ⟨rfl, rfl, -⟩ | ⟨-, -, kind⟩
  · cases first <;> first | cases takes; done | decide
  · decide
  · exact absurd rfl kind

end Pair

/-- A leaf of one keyword is read from that word, and what stands behind does not go with it. -/
theorem word_of_leaf (noJoin : word ≠ .JOIN)
    (leaf : (phraseAt previous token rest).1 = .keyword word.text) :
    token.keyword? = some word ∧ (phraseAt previous token rest).2 = 1 ∧
      (rest.head?.bind Token.keyword?).bind (pairLeaf? word) = none ∧
      (word.modifiesJoin → joinPhrase? rest = none) := by
  cases token with
  | word spelling =>
      rw [phraseAt] at leaf ⊢
      revert leaf
      fun_cases wordLeaf spelling rest with
      | case1 | case2 | case4 | case5 => rintro ⟨⟩
      | case3 first spelled noVerb pair found =>
          intro leaf
          obtain ⟨second, -, pair⟩ := Option.bind_eq_some_iff.mp found
          exact absurd (congrArg Leaf.text leaf) (pairLeaf_text_ne pair)
      | case6 first spelled noVerb noPair noPattern noCall words phrase =>
          intro leaf
          obtain ⟨modifiers, -, -, -, rfl, -⟩ := joinPhrase_eq_some phrase
          have text : phraseText (modifiers ++ [.JOIN]) = word.text := congrArg Leaf.text leaf
          have letters := joinLeaf_letters modifiers
          rw [text] at letters
          exact absurd ((endsInJoin_iff word).mp letters) noJoin
      | case7 first spelled noVerb noPair noPattern noCall noPhrase =>
          intro leaf
          obtain rfl := text_injective (congrArg Leaf.text leaf)
          have spelled : (Token.word spelling).keyword? = some first := spelled
          exact ⟨spelled, rfl, noPair, (joinPhrase_behind spelled noPhrase).2⟩
  | star =>
      rw [phraseAt] at leaf
      split at leaf <;> cases leaf
  | _ => cases leaf

theorem joinPhrase_of_leaf {modifiers : List Keyword}
    (leaf : (phraseAt previous token rest).1 = joinLeaf modifiers) :
    joinPhrase? (token :: rest) ≠ none := by
  cases token with
  | word spelling =>
      rw [phraseAt] at leaf
      revert leaf
      fun_cases wordLeaf spelling rest with
      | case1 | case2 | case4 | case5 => rintro ⟨⟩
      | case3 first spelled noVerb pair found =>
          intro leaf
          obtain ⟨second, -, pair⟩ := Option.bind_eq_some_iff.mp found
          exact absurd leaf (pairLeaf_ne_joinLeaf pair modifiers)
      | case6 first spelled noVerb noPair noPattern noCall words phrase =>
          rw [phrase]
          exact fun _ => Option.some_ne_none words
      | case7 first spelled noVerb noPair noPattern noCall noPhrase =>
          intro leaf
          have spelled : (Token.word spelling).keyword? = some first := spelled
          have text : first.text = phraseText (modifiers ++ [.JOIN]) := congrArg Leaf.text leaf
          have letters := joinLeaf_letters modifiers
          rw [← text] at letters
          exact absurd ((endsInJoin_iff first).mp letters) (joinPhrase_behind spelled noPhrase).1
  | star =>
      rw [phraseAt] at leaf
      split at leaf <;> cases leaf
  | _ => cases leaf

theorem comparison_of_leaf (leaf : (phraseAt previous token rest).1 = .comparison word.text) :
    token.keyword? = some word ∨ token = .comparison word.text := by
  cases token with
  | word spelling =>
      rw [phraseAt] at leaf
      revert leaf
      fun_cases wordLeaf spelling rest with
      | case1 | case2 | case5 | case6 | case7 => rintro ⟨⟩
      | case3 first spelled noVerb pair found =>
          intro leaf
          obtain ⟨second, -, pair⟩ := Option.bind_eq_some_iff.mp found
          exact absurd (congrArg Leaf.text leaf) (pairLeaf_text_ne pair)
      | case4 first spelled noVerb noPair pattern =>
          intro leaf
          exact Or.inl (text_injective (congrArg Leaf.text leaf) ▸ spelled)
  | comparison text =>
      cases leaf
      exact Or.inr rfl
  | star =>
      rw [phraseAt] at leaf
      split at leaf <;> cases leaf
  | _ => cases leaf

theorem not_separates {between : Option Leaf} {next : Token} {behind : List Token}
    (operator : ∀ text, next = .comparison text → text ∈ comparisonTexts)
    (left : rest.drop ((phraseAt previous token rest).2 - 1) = next :: behind) :
    ¬ Separates (phraseAt previous token rest).1 (phraseAt between next behind).1 := by
  have alone {word : Keyword} (noJoin : word ≠ .JOIN)
      (leaf : (phraseAt previous token rest).1 = .keyword word.text) :
      next.keyword?.bind (pairLeaf? word) = none ∧
        (word.modifiesJoin → joinPhrase? (next :: behind) = none) := by
    obtain ⟨-, width, noPair, noPhrase⟩ := word_of_leaf noJoin leaf
    rw [width, Nat.sub_self, List.drop_zero] at left
    rw [left] at noPair noPhrase
    exact ⟨noPair, noPhrase⟩
  intro separates
  generalize one : (phraseAt previous token rest).1 = first,
    two : (phraseAt between next behind).1 = second at separates
  cases separates with
  | @clause word takes =>
      have noJoin : word ≠ .JOIN := by
        rintro rfl
        cases takes
      obtain ⟨spelled, -⟩ := word_of_leaf (by decide : Keyword.BY ≠ .JOIN) two
      have noPair := (alone noJoin one).1
      simp [spelled, pairLeaf?, takes] at noPair
  | union =>
      obtain ⟨spelled, -⟩ := word_of_leaf (by decide : Keyword.ALL ≠ .JOIN) two
      have noPair := (alone (by decide : Keyword.UNION ≠ .JOIN) one).1
      rw [spelled] at noPair
      cases noPair
  | @pattern word compares =>
      rcases comparison_of_leaf two with spelled | shown
      · have noPair := (alone (by decide : Keyword.NOT ≠ .JOIN) one).1
        rw [spelled] at noPair
        revert noPair
        cases word <;> first | cases compares; done | rintro ⟨⟩
      · have known := operator _ shown
        revert known
        cases word <;> first | cases compares; done | decide
  | @join word modifiers modifies =>
      have noJoin : word ≠ .JOIN := by
        rintro rfl
        cases modifies
      exact joinPhrase_of_leaf two ((alone noJoin one).2 modifies)

theorem leavesFrom_whole (previous : Option Leaf) (tokens : List Token)
    (operators : ∀ text, .comparison text ∈ tokens → text ∈ comparisonTexts) :
    (leavesFrom previous tokens).IsChain fun first second => ¬ Separates first second := by
  fun_induction leavesFrom previous tokens with
  | case1 previous => exact .nil
  | case2 previous token rest phrase ih =>
      have operatorsBehind : ∀ text, .comparison text ∈ rest.drop (phrase.2 - 1) →
          text ∈ comparisonTexts := fun text member =>
        operators text (List.mem_cons_of_mem _ (List.mem_of_mem_drop member))
      refine List.isChain_cons.mpr ⟨?_, ih operatorsBehind⟩
      cases behind : rest.drop (phrase.2 - 1) with
      | nil => simp [leavesFrom]
      | cons next further =>
          rw [behind] at operatorsBehind
          intro leaf first
          rw [leavesFrom] at first
          obtain rfl := Option.some.inj first
          refine not_separates (fun text shown => operatorsBehind text ?_) behind
          exact shown ▸ List.mem_cons_self

end Whole

/-- The leaves of the first statement are read in steps that cover its tokens, and with spaces
between them they show the tokens, only keywords in upper case.  No phrase is read in parts, as long
as the operators are those of a text. -/
theorem leaves_tile_statement (tokens : List Token) :
    (∃ steps, Covers (firstStatement tokens) none 0 steps ∧
      steps.map Prod.fst = leavesOf tokens) ∧
    " ".intercalate ((leavesOf tokens).map Leaf.text) =
      " ".intercalate (shownTexts (firstStatement tokens)) ∧
    ((∀ text, .comparison text ∈ tokens → text ∈ comparisonTexts) →
      (leavesOf tokens).IsChain fun first second => ¬ Separates first second) := by
  refine ⟨exists_covers none _ 0 (Nat.zero_le _) List.drop_zero, joined_leavesFrom none _, ?_⟩
  intro operators
  exact leavesFrom_whole none _ fun text member => operators text (mem_of_mem_firstStatement member)

/-- A side that is called and one that joins, and words that stand before half of a phrase only. -/
theorem tiles_of_halves :
    ∃ tokens, tokens = [.semicolon, .word ⟨"select", none⟩, .blank, .word ⟨"left", none⟩,
        .leftBracket, .word ⟨"a", none⟩, .rightBracket, .word ⟨"not", none⟩,
        .word ⟨"ilike", none⟩, .word ⟨"not", none⟩, .comparison "=", .word ⟨"natural", none⟩,
        .word ⟨"group", none⟩, .word ⟨"group", none⟩, .word ⟨"by", none⟩, .word ⟨"by", some '"'⟩,
        .word ⟨"left", none⟩, .word ⟨"outer", none⟩, .word ⟨"join", none⟩, .semicolon, .star] ∧
      (∀ text, .comparison text ∈ tokens → text ∈ comparisonTexts) ∧
      (∃ steps, Covers (firstStatement tokens) none 0 steps ∧
        steps.map Prod.fst = leavesOf tokens) ∧
      " ".intercalate ((leavesOf tokens).map Leaf.text) =
        "SELECT left ( a ) NOT ILIKE NOT = NATURAL GROUP GROUP BY \"by\" LEFT OUTER JOIN" ∧
      (leavesOf tokens).IsChain fun first second => ¬ Separates first second := by
  let tokens : List Token := [.semicolon, .word ⟨"select", none⟩, .blank, .word ⟨"left", none⟩,
    .leftBracket, .word ⟨"a", none⟩, .rightBracket, .word ⟨"not", none⟩,
    .word ⟨"ilike", none⟩, .word ⟨"not", none⟩, .comparison "=", .word ⟨"natural", none⟩,
    .word ⟨"group", none⟩, .word ⟨"group", none⟩, .word ⟨"by", none⟩, .word ⟨"by", some '"'⟩,
    .word ⟨"left", none⟩, .word ⟨"outer", none⟩, .word ⟨"join", none⟩, .semicolon, .star]
  have operators : ∀ text, .comparison text ∈ tokens → text ∈ comparisonTexts := by
    intro text member
    simp only [tokens, List.mem_cons, List.not_mem_nil, reduceCtorEq, false_or, or_false,
      Token.comparison.injEq] at member
    subst member
    decide
  obtain ⟨steps, texts, whole⟩ := leaves_tile_statement tokens
  refine ⟨tokens, rfl, operators, steps, texts.trans ?_, whole operators⟩
  decide +kernel

/-! ## Subqueries -/

section Selects
variable {tokens : List Token} {statement : Statement}

theorem Phrase.Spelled.tail {phrase : Phrase} {behind : List Token}
    (spelled : phrase.Spelled behind) :
    ∀ token ∈ phrase.tokens.tail, token.keyword? ≠ some .SELECT := by
  intro token member word
  cases spelled with
  | other noWord kind => cases member
  | operation first noJoin noWhere stops kind => cases member
  | alone first noJoin stops => cases member
  | @pair leaf first second front back behind spell pair =>
      obtain rfl : token = second := by simpa using member
      have spelled : token.keyword? = some back := (List.cons.inj (List.cons.inj spell).2).1
      cases Option.some.inj (spelled.symm.trans word)
      rcases pairLeaf_cases pair with ⟨-, same, -⟩ | ⟨-, same, -⟩ | ⟨-, pattern, -⟩
      · cases same
      · cases same
      · cases pattern
  | @join run last modifiers behind spell modify ends =>
      rcases List.mem_append.mp (List.mem_of_mem_tail member) with inRun | atEnd
      · obtain ⟨modifier, inModifiers, same⟩ := spell.mem inRun
        cases Option.some.inj (same.symm.trans word)
        cases modify _ inModifiers
      · rw [List.mem_singleton.mp atEnd, ends] at word
        cases word

theorem phraseAt_isSelect (previous : Option Leaf) (token : Token) (rest : List Token) :
    (phraseAt previous token rest).1.isSelect = decide (token.keyword? = some .SELECT) := by
  cases token with
  | word word =>
      rw [phraseAt, Token.keyword?]
      have other {first : Keyword} {leaf : Leaf} (spelled : word.keyword? = some first)
          (noVerb : ¬ first.isVerb) (kind : leaf.kind ≠ .verb) :
          leaf.isSelect = decide (word.keyword? = some .SELECT) := by
        have noSelect : word.keyword? ≠ some .SELECT := by
          rw [spelled]
          rintro ⟨⟩
          exact noVerb rfl
        rw [decide_eq_false noSelect, Leaf.isSelect, decide_eq_false kind, Bool.false_and]
      fun_cases wordLeaf word rest with
      | case1 noWord => rw [noWord]; rfl
      | case2 first spelled verb =>
          rw [spelled]
          cases first <;> first | cases verb; done | decide
      | case3 first spelled noVerb leaf found =>
          obtain ⟨second, -, pair⟩ := Option.bind_eq_some_iff.mp found
          refine other spelled noVerb fun verb => ?_
          rcases pairLeaf_cases pair with ⟨-, -, rfl⟩ | ⟨-, -, rfl⟩ | ⟨rfl, pattern, -⟩
          · cases verb
          · cases verb
          · cases second <;> cases pattern <;> cases pair <;> cases verb
      | case4 first spelled noVerb | case5 first spelled noVerb | case6 first spelled noVerb
      | case7 first spelled noVerb => exact other spelled noVerb LeafKind.noConfusion
  | star =>
      rw [phraseAt]
      split <;> rfl
  | _ => rfl

theorem countP_isSelect_leavesFrom (previous : Option Leaf) (tokens : List Token) :
    (leavesFrom previous tokens).countP Leaf.isSelect =
      tokens.countP fun token => token.keyword? = some .SELECT := by
  fun_induction leavesFrom previous tokens with
  | case1 previous => rfl
  | case2 previous token rest phrase ih =>
      have here : phrase.1.isSelect = decide (token.keyword? = some .SELECT) :=
        phraseAt_isSelect previous token rest
      have tail : (rest.take (phrase.2 - 1)).countP
          (fun token => token.keyword? = some .SELECT) = 0 := by
        rw [List.countP_eq_zero]
        intro other member
        simpa using (phraseAt_spelled previous token rest).tail other member
      have split := List.take_append_drop (phrase.2 - 1) rest
      calc (phrase.1 :: leavesFrom (some phrase.1) (rest.drop (phrase.2 - 1))).countP Leaf.isSelect
          = (rest.drop (phrase.2 - 1)).countP (fun token => token.keyword? = some .SELECT) +
              if token.keyword? = some .SELECT then 1 else 0 := by
            simp only [List.countP_cons, here, ih, decide_eq_true_eq]
        _ = (token :: (rest.take (phrase.2 - 1) ++ rest.drop (phrase.2 - 1))).countP
              (fun token => token.keyword? = some .SELECT) := by
            simp only [List.countP_cons, List.countP_append, tail, Nat.zero_add, decide_eq_true_eq]
        _ = _ := by rw [split]

/-- The subqueries of a parsed statement are the words `SELECT` of its text, but for one; without
any there is one less than none.  The tree of a parsed text is not empty. -/
theorem subqueries_of_words {dialect : Dialect} {query : String}
    (parsed : Statement.parse dialect query = .ok statement) :
    ∃ tokens, Token.scan dialect query = .ok tokens ∧
      statement.subqueries = ((firstStatement tokens).countP
        fun token => token.keyword? = some .SELECT : Int) - 1 ∧
      -1 ≤ statement.subqueries ∧
      (statement.subqueries = -1 ↔
        ∀ token ∈ firstStatement tokens, token.keyword? ≠ some .SELECT) ∧
      statement.nodes ≠ [] := by
  obtain ⟨tokens, scanned, accepted⟩ := parse_eq_ok_iff.mp parsed
  obtain ⟨full, -⟩ := nested_of_accepted accepted
  have ofLeaves := ofLeaves_of_accepted accepted
  have count := subqueries_ofLeaves full ofLeaves
  have words : (leavesOf tokens).countP Leaf.isSelect =
      (firstStatement tokens).countP fun token => token.keyword? = some .SELECT :=
    countP_isSelect_leavesFrom none _
  have noWord : (firstStatement tokens).countP (fun token => token.keyword? = some .SELECT) = 0 ↔
      ∀ token ∈ firstStatement tokens, token.keyword? ≠ some .SELECT := by
    simp [List.countP_eq_zero]
  rw [words] at count
  refine ⟨tokens, scanned, count, by omega, ?_, ?_⟩
  · rw [← noWord]
    omega
  · intro empty
    have leaves := leavesOfAll_ofLeaves ofLeaves
    rw [empty] at leaves
    exact full leaves.symm

/-- A word `SELECT` within a clause, next to one that is quoted; and a text without any. -/
theorem subqueries_within_clause :
    (∃ statement, Statement.parse .generic "SELECT a WHERE b IN select \"select\"" =
        .ok statement ∧ statement.subqueries = 1 ∧ statement.nodes ≠ []) ∧
      ∃ statement, Statement.parse .generic "UPDATE t" = .ok statement ∧
        statement.subqueries = -1 ∧ statement.nodes ≠ [] := by
  let tokens : List Token := [.word ⟨"SELECT", none⟩, .blank, .word ⟨"a", none⟩, .blank,
    .word ⟨"WHERE", none⟩, .blank, .word ⟨"b", none⟩, .blank, .word ⟨"IN", none⟩, .blank,
    .word ⟨"select", none⟩, .blank, .word ⟨"select", some '"'⟩]
  have scanned : Token.scan .generic "SELECT a WHERE b IN select \"select\"" = .ok tokens :=
    by decide +kernel
  have scannedToo : Token.scan .generic "UPDATE t" =
      .ok [.word ⟨"UPDATE", none⟩, .blank, .word ⟨"t", none⟩] := by decide +kernel
  have lexed : leavesOf tokens = [⟨.verb, "SELECT"⟩, .name "a", .keyword "WHERE", .name "b",
      .keyword "IN", ⟨.verb, "SELECT"⟩, .name "\"select\""] := by decide +kernel
  have lexedToo : leavesOf [.word ⟨"UPDATE", none⟩, .blank, .word ⟨"t", none⟩] =
      [⟨.verb, "UPDATE"⟩, .name "t"] := by decide +kernel
  have parsed := parse_eq_ok_iff.mpr ⟨_, scanned, accepted_of_nested lexed (by simp) rfl⟩
  have parsedToo := parse_eq_ok_iff.mpr ⟨_, scannedToo, accepted_of_nested lexedToo (by simp) rfl⟩
  obtain ⟨_, again, count, -, -, least⟩ := subqueries_of_words parsed
  obtain ⟨_, againToo, -, -, noSelect, leastToo⟩ := subqueries_of_words parsedToo
  cases scanned.symm.trans again
  cases scannedToo.symm.trans againToo
  exact ⟨⟨_, parsed, count.trans (by decide +kernel), least⟩, _, parsedToo,
    noSelect.mpr (by decide +kernel), leastToo⟩

end Selects

end SqlMetrics
