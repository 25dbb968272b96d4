import SqlMetrics.Proofs.Depth

/-! # The phrases of a statement

`phrasesFrom` pairs each leaf with the tokens it stands for.  These tile the token list
(`tokens_phrasesFrom`), and `Phrase.Spelled` tells what the words of a phrase are.  No phrase ends
within the modifiers of a join (`Phrase.Spelled.notMidRun`), so every phrase of a join begins with
the first of them. -/
set_option autoImplicit false
namespace SqlMetrics

/-! ## Join phrases -/

def joinLetters : List Char := "join".toList

def joinLeaf (modifiers : List Keyword) : Leaf :=
  .keyword (phraseText (modifiers ++ [.JOIN]))

section JoinLeaf
variable (modifiers : List Keyword)

theorem phraseText_join :
    (phraseText (modifiers ++ [.JOIN])).toList =
      (modifiers.flatMap fun word => word.text.toList ++ [' ']) ++ "JOIN".toList := by
  induction modifiers with
  | nil => rfl
  | cons word rest ih =>
      have more : (rest ++ [Keyword.JOIN]).map Keyword.text ≠ [] := by simp
      rw [phraseText] at ih ⊢
      rw [List.cons_append, List.map_cons, String.intercalate_cons_of_ne_nil more]
      simp only [String.toList_append, ih, List.flatMap_cons, List.append_assoc]
      rfl

theorem joinLeaf_letters :
    joinLetters <:+ (phraseText (modifiers ++ [.JOIN])).toList.map Char.toLower := by
  rw [phraseText_join, List.map_append]
  exact List.suffix_append _ _

/-- A join phrase is no keyword that does not end in the word `JOIN`. -/
theorem joinLeaf_isKeyword {text : String}
    (other : ¬ joinLetters <:+ text.toList.map Char.toLower) :
    (joinLeaf modifiers).isKeyword text = false := by
  by_cases same : sameLetters (phraseText (modifiers ++ [.JOIN])) text = true
  · rw [sameLetters, decide_eq_true_eq] at same
    exact absurd (same ▸ joinLeaf_letters modifiers) other
  · simpa [Leaf.isKeyword, joinLeaf, Leaf.keyword] using same

theorem joinLeaf_isJoin : (joinLeaf modifiers).isKeyword "JOIN" = modifiers.isEmpty := by
  rw [Leaf.isKeyword, joinLeaf, Leaf.keyword, decide_eq_true rfl, Bool.true_and]
  cases modifiers with
  | nil => decide
  | cons word rest =>
      have letters := phraseText_join (word :: rest)
      have longer : (phraseText (word :: rest ++ [.JOIN])).toList.map Char.toLower ≠
          "JOIN".toList.map Char.toLower := by
        intro same
        have lengths := congrArg List.length same
        rw [letters] at lengths
        simp at lengths
        omega
      simpa [sameLetters] using longer

end JoinLeaf

/-! ## Leaves with their tokens -/

/-- A leaf with the tokens it stands for. -/
structure Phrase where
  leaf : Leaf
  tokens : List Token
  deriving DecidableEq, Repr

/-- The phrases of a token list, with the leaf before it. -/
def phrasesFrom (previous : Option Leaf) (tokens : List Token) : List Phrase :=
  match tokens with
  | [] => []
  | token :: rest =>
      let phrase := phraseAt previous token rest
      ⟨phrase.1, token :: rest.take (phrase.2 - 1)⟩ ::
        phrasesFrom (some phrase.1) (rest.drop (phrase.2 - 1))
termination_by tokens.length
decreasing_by simp only [List.length_cons, List.length_drop]; omega

def phrasesOf (tokens : List Token) : List Phrase :=
  phrasesFrom none (firstStatement tokens)

def tokensOf (phrases : List Phrase) : List Token :=
  phrases.flatMap Phrase.tokens

theorem tokensOf_append (front back : List Phrase) :
    tokensOf (front ++ back) = tokensOf front ++ tokensOf back :=
  List.flatMap_append

theorem tokensOf_cons (phrase : Phrase) (rest : List Phrase) :
    tokensOf (phrase :: rest) = phrase.tokens ++ tokensOf rest :=
  List.flatMap_cons

theorem leaves_phrasesFrom (previous : Option Leaf) (tokens : List Token) :
    (phrasesFrom previous tokens).map Phrase.leaf = leavesFrom previous tokens := by
  fun_induction phrasesFrom previous tokens with
  | case1 previous => rw [leavesFrom, List.map_nil]
  | case2 previous token rest phrase ih => rw [leavesFrom, List.map_cons, ih]

theorem tokens_phrasesFrom (previous : Option Leaf) (tokens : List Token) :
    tokensOf (phrasesFrom previous tokens) = tokens := by
  fun_induction phrasesFrom previous tokens with
  | case1 previous => rfl
  | case2 previous token rest phrase ih =>
      rw [tokensOf_cons, ih, List.cons_append, List.take_append_drop]

theorem tokens_of_split {tokens : List Token} {front back : List Phrase} {phrase : Phrase}
    (split : phrasesFrom none tokens = front ++ phrase :: back) :
    tokens = tokensOf front ++ (phrase.tokens ++ tokensOf back) := by
  rw [← tokensOf_cons, ← tokensOf_append, ← split, tokens_phrasesFrom]

/-! ## What a phrase is spelled with -/

def Token.modifiesJoin (token : Token) : Bool :=
  token.keyword?.any Keyword.modifiesJoin

def Spell (words : List Keyword) (tokens : List Token) : Prop :=
  tokens.map Token.keyword? = words.map some

theorem Spell.mem {words : List Keyword} {tokens : List Token} (spell : Spell words tokens)
    {token : Token} (member : token ∈ tokens) : ∃ word ∈ words, token.keyword? = some word := by
  have spelled : token.keyword? ∈ words.map some := spell ▸ List.mem_map_of_mem member
  obtain ⟨word, inWords, same⟩ := List.mem_map.mp spelled
  exact ⟨word, inWords, same.symm⟩

theorem Spell.modifiesJoin {words : List Keyword} {tokens : List Token} (spell : Spell words tokens)
    (modify : ∀ word ∈ words, word.modifiesJoin) : ∀ token ∈ tokens, token.modifiesJoin = true := by
  intro token member
  obtain ⟨word, inWords, spelled⟩ := spell.mem member
  rw [Token.modifiesJoin, spelled]
  exact modify word inWords

/-- What the tokens of a phrase are, given those behind it. -/
inductive Phrase.Spelled : Phrase → List Token → Prop where
  /-- A token that is no keyword. -/
  | other {leaf : Leaf} {token : Token} {behind : List Token} (noWord : token.keyword? = none)
      (kind : leaf.kind ≠ .keyword) : Spelled ⟨leaf, [token]⟩ behind
  /-- A verb, a pattern, or a side that is called. -/
  | operation {leaf : Leaf} {token : Token} {word : Keyword} {behind : List Token}
      (spelled : token.keyword? = some word) (noJoin : word ≠ .JOIN) (noWhere : word ≠ .WHERE)
      (stops : word.modifiesJoin → joinPhrase? behind = none) (kind : leaf.kind ≠ .keyword) :
      Spelled ⟨leaf, [token]⟩ behind
  | pair {leaf : Leaf} {first second : Token} {front back : Keyword} {behind : List Token}
      (spelled : Spell [front, back] [first, second]) (pair : pairLeaf? front back = some leaf) :
      Spelled ⟨leaf, [first, second]⟩ behind
  | join {run : List Token} {last : Token} {modifiers : List Keyword} {behind : List Token}
      (spelled : Spell modifiers run) (modify : ∀ word ∈ modifiers, word.modifiesJoin)
      (ends : last.keyword? = some .JOIN) : Spelled ⟨joinLeaf modifiers, run ++ [last]⟩ behind
  /-- A keyword with nothing to go with it. -/
  | alone {token : Token} {word : Keyword} {behind : List Token}
      (spelled : token.keyword? = some word) (noJoin : word ≠ .JOIN)
      (stops : word.modifiesJoin → joinPhrase? behind = none) :
      Spelled ⟨.keyword word.text, [token]⟩ behind

section Spelled
variable {token : Token} {tokens rest : List Token}

/-- A join phrase is some modifiers and the word `JOIN` behind them. -/
theorem joinPhrase_eq_some {words : List Keyword} (phrase : joinPhrase? tokens = some words) :
    ∃ modifiers run last behind, words = modifiers ++ [.JOIN] ∧ tokens = run ++ last :: behind ∧
      Spell modifiers run ∧ (∀ word ∈ modifiers, word.modifiesJoin) ∧
      last.keyword? = some .JOIN := by
  induction tokens generalizing words with
  | nil => cases phrase
  | cons token rest ih =>
      rw [joinPhrase?] at phrase
      cases spelled : token.keyword? with
      | none => simp [spelled] at phrase
      | some word =>
          simp only [spelled] at phrase
          split at phrase
          · next ends =>
              cases phrase
              exact ⟨[], [], token, rest, rfl, rfl, rfl, by simp, ends ▸ spelled⟩
          · split at phrase
            · next modifies =>
                obtain ⟨others, further, rfl⟩ := Option.map_eq_some_iff.mp phrase
                obtain ⟨modifiers, run, last, behind, rfl, rfl, spell, modify, ends⟩ := ih further
                refine ⟨word :: modifiers, token :: run, last, behind, rfl, rfl, ?_, ?_, ends⟩
                · rw [Spell, List.map_cons, List.map_cons, spelled, spell]
                · exact List.forall_mem_cons.mpr ⟨modifies, modify⟩
            · cases phrase

theorem joinPhrase_run {modifiers : List Keyword} {run behind : List Token} {last : Token}
    (spell : Spell modifiers run) (modify : ∀ word ∈ modifiers, word.modifiesJoin)
    (ends : last.keyword? = some .JOIN) :
    joinPhrase? (run ++ last :: behind) = some (modifiers ++ [.JOIN]) := by
  induction run generalizing modifiers with
  | nil =>
      rw [Spell, List.map_nil, eq_comm, List.map_eq_nil_iff] at spell
      rw [spell, List.nil_append, joinPhrase?, ends]
      rfl
  | cons token rest ih =>
      cases modifiers with
      | nil => cases spell
      | cons word others =>
          obtain ⟨here, further⟩ := List.cons.inj spell
          have modifies := modify word List.mem_cons_self
          have noJoin : word ≠ .JOIN := by
            rintro rfl
            cases modifies
          rw [List.cons_append, joinPhrase?, here]
          simp only [noJoin, modifies, if_false, if_true]
          rw [ih further fun other member => modify other (List.mem_cons_of_mem _ member)]
          rfl

theorem pairLeaf_cases {first second : Keyword} {leaf : Leaf}
    (pair : pairLeaf? first second = some leaf) :
    first.takesBy ∧ second = .BY ∧ leaf = .keyword (phraseText [first, second]) ∨
      first = .UNION ∧ second = .ALL ∧ leaf = .keyword (phraseText [first, second]) ∨
      first = .NOT ∧ second.isPattern ∧ leaf.kind ≠ .keyword := by
  unfold pairLeaf? at pair
  split at pair
  · next by_ =>
      cases pair
      simpa [and_assoc] using Or.inl by_
  · split at pair
    · next all =>
        cases pair
        simpa using Or.inr (Or.inl (by simpa using all))
    · split at pair
      · next pattern =>
          cases pair
          simp only [Bool.and_eq_true, decide_eq_true_eq] at pattern
          exact Or.inr (Or.inr ⟨pattern.1, pattern.2, by simp [Leaf.comparison]⟩)
      · cases pair

theorem joinPhrase_of_head (noWord : ∀ token ∈ tokens.head?, token.keyword? = none) :
    joinPhrase? tokens = none := by
  cases tokens with
  | nil => rfl
  | cons token rest => rw [joinPhrase?, noWord token rfl]

/-- A modifier with nothing to modify has no join phrase behind it. -/
theorem joinPhrase_behind {word : Keyword} (spelled : token.keyword? = some word)
    (noJoin : joinPhrase? (token :: rest) = none) :
    word ≠ .JOIN ∧ (word.modifiesJoin → joinPhrase? rest = .none) := by
  simp only [joinPhrase?, spelled] at noJoin
  split at noJoin
  · cases noJoin
  · next other =>
      refine ⟨other, fun modifies => ?_⟩
      rw [if_pos modifies] at noJoin
      exact Option.map_eq_none_iff.mp noJoin

theorem apart_of_operation {word : Keyword} (operation : word.isVerb ∨ word.isPattern) :
    word ≠ .JOIN ∧ word ≠ .WHERE ∧ word.modifiesJoin = false := by
  cases word <;> first | decide | exact absurd operation (by decide)

theorem wordLeaf_spelled (word : Word) (rest : List Token) :
    Phrase.Spelled ⟨(wordLeaf word rest).1, .word word :: rest.take ((wordLeaf word rest).2 - 1)⟩
      (rest.drop ((wordLeaf word rest).2 - 1)) := by
  have single : ∀ {first : Keyword} {leaf : Leaf}, word.keyword? = some first →
      first.isVerb ∨ first.isPattern → leaf.kind ≠ .keyword →
        Phrase.Spelled ⟨leaf, [.word word]⟩ rest := by
    intro first leaf spelled operation kind
    obtain ⟨noJoin, noWhere, noModifier⟩ := apart_of_operation operation
    exact .operation spelled noJoin noWhere (by simp [noModifier]) kind
  fun_cases wordLeaf word rest with
  | case1 noWord => exact .other noWord (by simp [Leaf.name])
  | case2 first spelled verb => exact single spelled (.inl verb) (by simp)
  | case3 first spelled noVerb leaf found =>
      obtain ⟨second, next, pair⟩ := Option.bind_eq_some_iff.mp found
      cases rest with
      | nil => cases next
      | cons token behind =>
          have words : Spell [first, second] [.word word, token] := by
            have spelled : (Token.word word).keyword? = some first := spelled
            have next : token.keyword? = some second := next
            rw [Spell, List.map_cons, List.map_singleton, spelled, next]
            rfl
          exact .pair words pair
  | case4 first spelled noVerb noPair pattern =>
      exact single spelled (.inr pattern) (by simp [Leaf.comparison])
  | case5 first spelled noVerb noPair noPattern called =>
      obtain ⟨side, opens⟩ := Bool.and_eq_true_iff.mp called
      have stops : joinPhrase? rest = none :=
        joinPhrase_of_head (by simp [of_decide_eq_true opens, Token.keyword?])
      exact .operation spelled (by rintro rfl; cases side) (by rintro rfl; cases side)
        (fun _ => stops) (by simp [Leaf.name])
  | case6 first spelled noVerb noPair noPattern noCall words phrase =>
      obtain ⟨modifiers, run, last, behind, rfl, tokens, spell, modify, ends⟩ :=
        joinPhrase_eq_some phrase
      have width : (modifiers ++ [Keyword.JOIN]).length - 1 + 1 = (run ++ [last]).length := by
        have same := congrArg List.length spell
        simp only [List.length_map] at same
        simp [same]
      have split : Token.word word :: rest = (run ++ [last]) ++ behind := by simp [tokens]
      have taken := congrArg (List.take (run ++ [last]).length) split
      have left := congrArg (List.drop (run ++ [last]).length) split
      rw [List.take_left, ← width, List.take_succ_cons] at taken
      rw [List.drop_left, ← width, List.drop_succ_cons] at left
      dsimp only
      rw [taken, left]
      exact .join spell modify ends
  | case7 first spelled noVerb noPair noPattern noCall noPhrase =>
      have spelled : (Token.word word).keyword? = some first := spelled
      obtain ⟨noJoin, stops⟩ := joinPhrase_behind spelled noPhrase
      exact .alone spelled noJoin stops

theorem phraseAt_spelled (previous : Option Leaf) (token : Token) (rest : List Token) :
    Phrase.Spelled ⟨(phraseAt previous token rest).1,
      token :: rest.take ((phraseAt previous token rest).2 - 1)⟩
      (rest.drop ((phraseAt previous token rest).2 - 1)) := by
  cases token with
  | word word => exact wordLeaf_spelled word rest
  | star =>
      rw [phraseAt]
      refine .other rfl ?_
      split <;> simp
  | _ => exact .other rfl (by simp [phraseAt, Leaf.comparison, Leaf.literal, Leaf.punctuation])

/-- What holds wherever a phrase is read holds of all phrases of a token list. -/
theorem forall_phrase {P : Phrase → List Token → Prop}
    (each : ∀ previous token rest, P ⟨(phraseAt previous token rest).1,
      token :: rest.take ((phraseAt previous token rest).2 - 1)⟩
      (rest.drop ((phraseAt previous token rest).2 - 1)))
    (previous : Option Leaf) (tokens : List Token) {back : List Phrase} {phrase : Phrase} :
    ∀ front, phrasesFrom previous tokens = front ++ phrase :: back → P phrase (tokensOf back) := by
  fun_induction phrasesFrom previous tokens with
  | case1 previous => simp
  | case2 previous token rest read ih =>
      intro front split
      cases front with
      | nil =>
          obtain ⟨rfl, rfl⟩ := List.cons.inj split
          rw [tokens_phrasesFrom]
          exact each previous token rest
      | cons first others => exact ih others (List.cons.inj split).2

end Spelled

section Phrases
variable {previous : Option Leaf} {tokens behind : List Token} {front back : List Phrase}
  {phrase : Phrase}

theorem spelled_of_split (split : phrasesFrom previous tokens = front ++ phrase :: back) :
    phrase.Spelled (tokensOf back) :=
  forall_phrase phraseAt_spelled previous tokens front split

theorem bracket_of_split (split : phrasesFrom previous tokens = front ++ phrase :: back) :
    phrase.tokens.filterMap Token.bracket? = bracketsOf [phrase.leaf] := by
  refine forall_phrase (P := fun phrase _ => phrase.tokens.filterMap Token.bracket? =
    bracketsOf [phrase.leaf]) (fun previous token rest => ?_) previous tokens front split
  obtain ⟨here, noBrackets⟩ := phraseAt_bracket previous token rest
  rw [bracketsOf, List.filterMap_cons, List.filterMap_cons, here, List.filterMap_nil,
    List.filterMap_eq_nil_iff.mpr noBrackets]

/-! ## The words of a phrase -/

theorem Phrase.Spelled.tokens_ne_nil (spelled : phrase.Spelled behind) : phrase.tokens ≠ [] := by
  cases spelled <;> simp

theorem tokens_ne_nil (member : phrase ∈ phrasesFrom previous tokens) : phrase.tokens ≠ [] := by
  obtain ⟨front, back, split⟩ := List.append_of_mem member
  exact (spelled_of_split split).tokens_ne_nil

theorem Phrase.Spelled.notMidRun (spelled : phrase.Spelled behind) {last : Token}
    (ends : phrase.tokens.getLast? = some last) (modifies : last.modifiesJoin = true) :
    joinPhrase? behind = none := by
  have word : ∃ word, last.keyword? = some word ∧ word.modifiesJoin := by
    simpa [Token.modifiesJoin, Option.any_eq_true] using modifies
  obtain ⟨word, spelledLast, modifiesWord⟩ := word
  cases spelled with
  | @other leaf token behind noWord kind =>
      obtain rfl : token = last := by simpa using ends
      rw [noWord] at spelledLast
      cases spelledLast
  | @operation leaf token first behind spelled noJoin noWhere stops kind =>
      obtain rfl : token = last := by simpa using ends
      cases Option.some.inj (spelled.symm.trans spelledLast)
      exact stops modifiesWord
  | @pair leaf first second front back behind spelled pair =>
      obtain rfl : second = last := by simpa using ends
      have words : second.keyword? = some back := (List.cons.inj (List.cons.inj spelled).2).1
      cases Option.some.inj (words.symm.trans spelledLast)
      rcases pairLeaf_cases pair with ⟨-, rfl, -⟩ | ⟨-, rfl, -⟩ | ⟨-, pattern, -⟩
      · cases modifiesWord
      · cases modifiesWord
      · rw [(apart_of_operation (.inr pattern)).2.2] at modifiesWord
        cases modifiesWord
  | @join run final modifiers behind spelled modify join =>
      obtain rfl : final = last := by simpa using ends
      cases Option.some.inj (join.symm.trans spelledLast)
      cases modifiesWord
  | @alone token first behind spelled noJoin stops =>
      obtain rfl : token = last := by simpa using ends
      cases Option.some.inj (spelled.symm.trans spelledLast)
      exact stops modifiesWord

/-- No phrase begins within the modifiers of a join. -/
theorem notMidRun_of_split (split : phrasesFrom previous tokens = front ++ back)
    (joined : joinPhrase? (tokensOf back) ≠ none) {last : Token}
    (before : (tokensOf front).getLast? = some last) : last.modifiesJoin = false := by
  rcases List.eq_nil_or_concat front with rfl | ⟨others, phrase, rfl⟩
  · cases before
  · rw [List.concat_eq_append] at split before
    rw [List.append_assoc] at split
    have spelled := spelled_of_split split
    have ends : phrase.tokens.getLast? = some last := by
      have single : tokensOf [phrase] = phrase.tokens := List.flatMap_singleton _ _
      rw [tokensOf_append, single, List.getLast?_append] at before
      cases found : phrase.tokens.getLast? with
      | none => exact absurd (List.getLast?_eq_none_iff.mp found) spelled.tokens_ne_nil
      | some final => rwa [found] at before
    cases modifies : last.modifiesJoin with
    | false => rfl
    | true => exact absurd (spelled.notMidRun ends modifies) joined

theorem pairLeaf_apart {first second word : Keyword} {leaf : Leaf}
    (pair : pairLeaf? first second = some leaf) (member : word ∈ [first, second]) :
    word ≠ .JOIN ∧ word ≠ .WHERE := by
  have kinds : word.takesBy ∨ word.isPattern ∨ word ∈ [.BY, .UNION, .ALL, .NOT] := by
    have either : word = first ∨ word = second := by simpa using member
    rcases pairLeaf_cases pair with ⟨by_, rfl, -⟩ | ⟨rfl, rfl, -⟩ | ⟨rfl, pattern, -⟩ <;>
      rcases either with same | same <;> simp [*]
  cases word <;> first | decide | exact absurd kinds (by decide)

/-- The word `JOIN` is the last one of a join phrase. -/
theorem Phrase.Spelled.joinWord (spelled : phrase.Spelled behind) {i : Nat} {token : Token}
    (found : phrase.tokens[i]? = some token) (word : token.keyword? = some .JOIN) :
    ∃ modifiers run, phrase = ⟨joinLeaf modifiers, run ++ [token]⟩ ∧ i = run.length ∧
      Spell modifiers run ∧ ∀ word ∈ modifiers, word.modifiesJoin := by
  have member := List.mem_of_getElem? found
  cases spelled with
  | other noWord kind =>
      rw [List.mem_singleton.mp member, noWord] at word
      cases word
  | operation spelled noJoin noWhere stops kind =>
      rw [List.mem_singleton.mp member, spelled] at word
      exact absurd (Option.some.inj word) noJoin
  | pair spelled pair =>
      obtain ⟨found, inPair, same⟩ := spelled.mem member
      cases Option.some.inj (same.symm.trans word)
      exact absurd rfl (pairLeaf_apart pair inPair).1
  | @join run last modifiers behind spelled modify ends =>
      by_cases early : i < run.length
      · rw [List.getElem?_append_left early] at found
        obtain ⟨modifier, inRun, same⟩ := spelled.mem (List.mem_of_getElem? found)
        cases Option.some.inj (same.symm.trans word)
        cases modify _ inRun
      · obtain ⟨short, -⟩ := List.getElem?_eq_some_iff.mp found
        have place : i = run.length := by simp at short; omega
        rw [place, List.getElem?_concat_length] at found
        cases found
        exact ⟨modifiers, run, rfl, place, spelled, modify⟩
  | alone spelled noJoin stops =>
      rw [List.mem_singleton.mp member, spelled] at word
      exact absurd (Option.some.inj word) noJoin

/-- The word `WHERE` is a leaf of its own. -/
theorem Phrase.Spelled.whereWord (spelled : phrase.Spelled behind) {token : Token}
    (member : token ∈ phrase.tokens) (word : token.keyword? = some .WHERE) :
    phrase = ⟨.keyword "WHERE", [token]⟩ := by
  cases spelled with
  | other noWord kind =>
      rw [List.mem_singleton.mp member, noWord] at word
      cases word
  | operation spelled noJoin noWhere stops kind =>
      rw [List.mem_singleton.mp member, spelled] at word
      exact absurd (Option.some.inj word) noWhere
  | pair spelled pair =>
      obtain ⟨found, inPair, same⟩ := spelled.mem member
      cases Option.some.inj (same.symm.trans word)
      exact absurd rfl (pairLeaf_apart pair inPair).2
  | @join run last modifiers behind spelled modify ends =>
      rcases List.mem_append.mp member with inRun | atEnd
      · obtain ⟨modifier, inModifiers, same⟩ := spelled.mem inRun
        cases Option.some.inj (same.symm.trans word)
        cases modify _ inModifiers
      · rw [List.mem_singleton.mp atEnd, ends] at word
        cases word
  | alone spelled noJoin stops =>
      obtain rfl := List.mem_singleton.mp member
      cases Option.some.inj (spelled.symm.trans word)
      rfl

theorem text_isKeyword (word : Keyword) :
    (Leaf.keyword word.text).isKeyword "JOIN" = decide (word = .JOIN) ∧
      (Leaf.keyword word.text).isKeyword "WHERE" = decide (word = .WHERE) := by
  cases word <;> decide

theorem pairLeaf_isKeyword {first second : Keyword} {leaf : Leaf}
    (pair : pairLeaf? first second = some leaf) :
    leaf.isKeyword "JOIN" = false ∧ leaf.isKeyword "WHERE" = false := by
  rcases pairLeaf_cases pair with ⟨by_, rfl, rfl⟩ | ⟨rfl, rfl, rfl⟩ | ⟨-, -, kind⟩
  · cases first <;> decide
  · decide
  · simp [Leaf.isKeyword, kind]

/-- The leaf `JOIN` is the word with no modifier before it. -/
theorem Phrase.Spelled.isJoin (spelled : phrase.Spelled behind)
    (leaf : phrase.leaf.isKeyword "JOIN" = true) :
    ∃ token, phrase.tokens = [token] ∧ token.keyword? = some .JOIN := by
  cases spelled with
  | other noWord kind => simp [Leaf.isKeyword, kind] at leaf
  | operation spelled noJoin noWhere stops kind => simp [Leaf.isKeyword, kind] at leaf
  | pair spelled pair => rw [(pairLeaf_isKeyword pair).1] at leaf; cases leaf
  | join spelled modify ends =>
      rw [joinLeaf_isJoin, List.isEmpty_iff] at leaf
      subst leaf
      rw [Spell, List.map_nil, List.map_eq_nil_iff] at spelled
      exact ⟨_, by rw [spelled, List.nil_append], ends⟩
  | @alone token word behind spelled noJoin stops =>
      rw [(text_isKeyword word).1, decide_eq_true_eq] at leaf
      exact absurd leaf noJoin

theorem Phrase.Spelled.isWhere (spelled : phrase.Spelled behind)
    (leaf : phrase.leaf.isKeyword "WHERE" = true) :
    ∃ token, phrase.tokens = [token] ∧ token.keyword? = some .WHERE := by
  cases spelled with
  | other noWord kind => simp [Leaf.isKeyword, kind] at leaf
  | operation spelled noJoin noWhere stops kind => simp [Leaf.isKeyword, kind] at leaf
  | pair spelled pair => rw [(pairLeaf_isKeyword pair).2] at leaf; cases leaf
  | @join run last modifiers behind spelled modify ends =>
      rw [joinLeaf_isKeyword modifiers (by decide)] at leaf
      cases leaf
  | @alone token word behind spelled noJoin stops =>
      rw [(text_isKeyword word).2, decide_eq_true_eq] at leaf
      exact ⟨token, rfl, leaf ▸ spelled⟩

end Phrases

end SqlMetrics
