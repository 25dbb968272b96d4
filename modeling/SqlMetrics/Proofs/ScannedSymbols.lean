import SqlMetrics.Proofs.Operators
import SqlMetrics.Token.Scanner

/-! # Comparison operators read from a text

A comparison operator of a scanned text has one of eight texts, and no other token is shown like one
(`distinct_of_scan`): every other rule begins its token with a quote, the mark of a string, a
character of words or numbers, or a sign that no comparison begins with, but for custom operators,
which are told apart by their length. -/
set_option autoImplicit false
namespace SqlMetrics

def symbolChars : List Char :=
  ['<', '>', '=', '!']

def comparisonTexts : List String :=
  ["=", "==", "<>", "<", ">", "<=", ">=", "<=>"]

theorem symbolChars_of_mem {symbol : String} (member : symbol ∈ Node.comparisonSymbols) :
    ∃ c ∈ symbolChars, symbol.toList.head? = some c := by
  have all : ∀ symbol ∈ Node.comparisonSymbols,
      symbol.toList.head?.any symbolChars.contains = true := by decide
  obtain ⟨c, begins, known⟩ := (Option.any_eq_true _ _).mp (all symbol member)
  exact ⟨c, List.contains_iff_mem.mp known, begins⟩

theorem not_symbol_of_head {text : String} {c : Char} (begins : text.toList.head? = some c)
    (other : c ∉ symbolChars) : text ∉ Node.comparisonSymbols := by
  intro member
  obtain ⟨first, symbol, same⟩ := symbolChars_of_mem member
  rw [begins] at same
  cases same
  exact other symbol

/-- The token is a comparison operator with one of their texts, or is not shown like one. -/
def Token.Distinct : Token → Prop
  | .comparison text => text ∈ comparisonTexts
  | other => other.text ∉ Node.comparisonSymbols

namespace Token

theorem distinct_ofSymbol {text : String} (shown : text ≠ "!=") : (ofSymbol text).Distinct := by
  unfold ofSymbol
  split
  case h_16 equal double unequal less greater atMost atLeast both =>
    intro member
    simp only [Node.comparisonSymbols, List.mem_cons, List.not_mem_nil, or_false] at member
    rcases member with rfl | rfl | rfl | rfl | rfl | rfl | rfl <;> contradiction
  all_goals simp [Distinct, comparisonTexts, Token.text, Node.comparisonSymbols]

section Head
variable {text : String} {c : Char}

theorem distinct_literal (begins : text.toList.head? = some c) (other : c ∉ symbolChars) :
    Distinct (.literal text) :=
  not_symbol_of_head begins other

theorem distinct_operator (begins : text.toList.head? = some c) (other : c ∉ symbolChars) :
    Distinct (.operator text) :=
  not_symbol_of_head begins other

theorem distinct_word (begins : text.toList.head? = some c) (other : c ∉ symbolChars) :
    Distinct (.word { value := text }) :=
  not_symbol_of_head begins other

end Head

theorem distinct_quoted (value : String) (opening : Char) :
    Distinct (.word { value := value, quote := some opening }) := by
  intro member
  have shown : Word.text { value := value, quote := some opening } =
      String.ofList (opening :: value.toList ++ [closingQuote opening]) := rfl
  have symbols : ∀ symbol ∈ Node.comparisonSymbols, symbol.toList.length < 2 ∨
      symbol.toList.getLast? ≠ symbol.toList.head?.map closingQuote := by decide
  rcases symbols _ member with short | other
  · rw [Token.text, shown, String.toList_ofList] at short
    simp only [List.cons_append, List.length_cons, List.length_append, List.length_nil] at short
    omega
  · rw [Token.text, shown, String.toList_ofList] at other
    exact other List.getLast?_concat

end Token

open Token

/-- What the rule reads, if it reads anything, is told from the comparison operators. -/
def Distinct (scan : Scan Token) : Prop :=
  ∀ reading, scan = .ok reading → reading.value.Distinct

/-! ## Rules put together -/

section Rules
variable {scan : Scan Token} {rule? : Option (Scan Token)}

theorem distinct_ok {reading : Reading Token} (value : reading.value.Distinct) :
    Distinct (.ok reading) := by
  intro other same
  cases same
  exact value

theorem distinct_error (fault : ScanFault) : Distinct (.error fault) :=
  fun _ same => nomatch same

theorem Distinct.after (distinct : Distinct scan) (size : Nat) :
    Distinct (Scan.after size id scan) := by
  cases scan with
  | error fault => exact distinct_error _
  | ok reading => exact distinct_ok (distinct reading rfl)

theorem distinct_orElse {next? : Option (Scan Token)} (chosen : ∀ rule ∈ rule?, Distinct rule)
    (next : ∀ rule ∈ next?, Distinct rule) :
    ∀ rule ∈ rule?.orElse fun _ => next?, Distinct rule := by
  cases rule? with
  | none => exact next
  | some rule => exact chosen

theorem eq_none_of_orElse {next? : Option (Scan Token)}
    (nothing : (rule?.orElse fun _ => next?) = none) : next? = none := by
  cases rule? with
  | none => exact nothing
  | some rule => cases nothing

theorem distinct_getD {otherwise : Scan Token} (chosen : ∀ rule ∈ rule?, Distinct rule)
    (last : rule? = none → Distinct otherwise) : Distinct (rule?.getD otherwise) := by
  cases rule? with
  | none => exact last rfl
  | some rule => exact chosen rule rfl

theorem distinct_some (distinct : Distinct scan) : ∀ rule ∈ some scan, Distinct rule := by
  intro rule member
  cases member
  exact distinct

theorem distinct_none : ∀ rule ∈ (none : Option (Scan Token)), Distinct rule :=
  fun _ member => nomatch member

end Rules

theorem distinct_blank (size : Nat) : Distinct (.ok ⟨.blank, size⟩) :=
  distinct_ok (by simp [Token.Distinct, Token.text, Node.comparisonSymbols])

theorem distinct_period (size : Nat) : Distinct (.ok ⟨.period, size⟩) :=
  distinct_ok (by simp [Token.Distinct, Token.text, Node.comparisonSymbols])

/-! ## Words and comments -/

theorem scanWord_distinct (dialect : Dialect) {c : Char} (other : c ∉ symbolChars)
    (first rest : List Char) : Distinct (scanWord dialect (c :: first) rest) :=
  distinct_ok (distinct_word (c := c) (by simp) other)

theorem scanQuotedWord_distinct (opening : Char) (rest : List Char) :
    Distinct (scanQuotedWord opening rest) := by
  unfold scanQuotedWord
  split
  · exact distinct_error _
  · exact distinct_ok (distinct_quoted _ _)

theorem scanNestedWord_distinct (rest : List Char) : Distinct (scanNestedWord rest) := by
  unfold scanNestedWord
  dsimp only
  split
  · exact distinct_error _
  · split
    · exact distinct_ok (distinct_quoted _ _)
    · exact distinct_error _

theorem scanBracket_distinct (dialect : Dialect) (rest : List Char) :
    Distinct (scanBracket dialect rest) := by
  have bracket : (Token.ofSymbol "[").Distinct := distinct_ofSymbol (by decide)
  unfold scanBracket
  split
  · exact distinct_ok bracket
  · split
    · exact scanNestedWord_distinct rest
    · split
      · exact scanQuotedWord_distinct _ rest
      · exact distinct_ok bracket

theorem scanBlockComment_distinct (dialect : Dialect) (rest : List Char) :
    Distinct (scanBlockComment dialect rest) := by
  unfold scanBlockComment
  split
  · exact distinct_error _
  · exact distinct_blank _

theorem scanComment?_distinct (dialect : Dialect) (c : Char) (rest : List Char) :
    ∀ rule ∈ scanComment? dialect c rest, Distinct rule := by
  unfold scanComment?
  split
  · split
    · exact distinct_some (distinct_blank _)
    · exact distinct_none
  · exact distinct_some (scanBlockComment_distinct dialect _)
  · split
    · exact distinct_some (distinct_blank _)
    · exact distinct_none
  · split
    · exact distinct_some (distinct_blank _)
    · exact distinct_none
  · exact distinct_none

theorem scanMarkedWord?_distinct (dialect : Dialect) (c : Char) (rest : List Char) :
    ∀ rule ∈ scanMarkedWord? dialect c rest, Distinct rule := by
  unfold scanMarkedWord?
  split
  · split
    · exact distinct_some (scanWord_distinct dialect (by decide) _ _)
    · exact distinct_none
  · split
    · exact distinct_some (scanWord_distinct dialect (by decide) _ _)
    · exact distinct_none
  · split
    · exact distinct_some (scanWord_distinct dialect (by decide) _ _)
    · exact distinct_none
  · exact distinct_none

/-! ## Strings -/

theorem head?_stringText (mark : String) (quote : Char) (count : Nat) (contents : List Char) :
    (stringText mark quote (count + 1) contents).toList.head? =
      some ((mark.toList.head?).getD quote) := by
  unfold stringText
  rw [String.toList_append, String.toList_ofList]
  cases mark.toList <;> rfl

/-- The token that `make` forms from a string with this mark is told from the comparison
operators. -/
def MakesDistinct (mark : String) (quote : Char) (make : String → Token) : Prop :=
  ∀ count contents, (make (stringText mark quote (count + 1) contents)).Distinct

section Strings
variable {mark : String} {quote : Char} {make : String → Token}

theorem makes_literal (other : (mark.toList.head?).getD quote ∉ symbolChars) :
    MakesDistinct mark quote .literal :=
  fun count contents => distinct_literal (head?_stringText mark quote count contents) other

theorem makes_operator (other : (mark.toList.head?).getD quote ∉ symbolChars) :
    MakesDistinct mark quote .operator :=
  fun count contents => distinct_operator (head?_stringText mark quote count contents) other

theorem scanString_distinct (makes : MakesDistinct mark quote make) (backslash : Backslash)
    (rest : List Char) : Distinct (scanString mark quote backslash make rest) := by
  unfold scanString
  split
  · exact distinct_error _
  · exact distinct_ok (makes 0 _)

theorem scanTripleString_distinct (makes : MakesDistinct mark quote make)
    (other : (mark.toList.head?).getD quote ∉ symbolChars) (backslash : Backslash)
    (rest : List Char) : Distinct (scanTripleString mark quote backslash make rest) := by
  unfold scanTripleString
  dsimp only
  split
  · split
    · split
      · exact distinct_error _
      · exact distinct_ok (makes_operator other 2 _)
    · exact distinct_ok (makes 0 _)
  · split
    · exact distinct_error _
    · exact distinct_ok (makes 0 _)

theorem scanDialectString_distinct (makes : MakesDistinct mark quote make)
    (other : (mark.toList.head?).getD quote ∉ symbolChars) (dialect : Dialect)
    (backslash : Backslash) (rest : List Char) :
    Distinct (scanDialectString dialect mark quote backslash make rest) := by
  unfold scanDialectString
  split
  · exact scanTripleString_distinct makes other backslash rest
  · exact scanString_distinct makes backslash rest

end Strings

theorem scanEscapeString_distinct (rest : List Char) : Distinct (scanEscapeString rest) := by
  have marked : MakesDistinct "E" '\x27' .literal := makes_literal (by decide)
  unfold scanEscapeString
  split
  · exact distinct_error _
  · exact distinct_ok (marked 0 _)

theorem scanUnicodeString_distinct (rest : List Char) : Distinct (scanUnicodeString rest) := by
  have marked : MakesDistinct "U&" '\x27' .operator := makes_operator (by decide)
  unfold scanUnicodeString
  cases unicodeStringContents rest with
  | error fault => exact distinct_error _
  | ok contents => exact distinct_ok (marked 0 _)

theorem scanQuoted?_distinct (dialect : Dialect) (c : Char) (rest : List Char) :
    ∀ rule ∈ scanQuoted? dialect c rest, Distinct rule := by
  unfold scanQuoted?
  split
  · next single =>
      subst single
      exact distinct_some
        (scanDialectString_distinct (makes_literal (by decide)) (by decide) dialect _ rest)
  · split
    · split
      · exact distinct_some (scanBracket_distinct dialect rest)
      · exact distinct_some (scanQuotedWord_distinct c rest)
    · split
      · next double =>
          subst double
          exact distinct_some
            (scanDialectString_distinct (makes_literal (by decide)) (by decide) dialect _ rest)
      · exact distinct_none

theorem scanMarkedString?_distinct (dialect : Dialect) (c : Char) (rest : List Char) :
    ∀ rule ∈ scanMarkedString? dialect c rest, Distinct rule := by
  have byte (quote : Char) : ("B".toList.head?).getD quote ∉ symbolChars :=
    (by decide : 'B' ∉ symbolChars)
  have raw (quote : Char) : ("R".toList.head?).getD quote ∉ symbolChars :=
    (by decide : 'R' ∉ symbolChars)
  unfold scanMarkedString?
  split
  · split
    · exact distinct_some
        ((scanDialectString_distinct (makes_operator (byte _)) (byte _) dialect _ _).after 1)
    · exact distinct_none
  · split
    · exact distinct_some
        ((scanTripleString_distinct (makes_operator (raw _)) (raw _) _ _).after 1)
    · exact distinct_none
  · exact distinct_some ((scanString_distinct (makes_literal (by decide)) _ _).after 1)
  · split
    · exact distinct_some ((scanEscapeString_distinct _).after 0)
    · exact distinct_none
  · split
    · exact distinct_some (scanUnicodeString_distinct _)
    · exact distinct_none
  · exact distinct_some ((scanString_distinct (makes_literal (by decide)) _ _).after 1)
  · exact distinct_none

/-! ## Numbers and placeholders -/

theorem not_mem_symbolChars {c : Char} (begins : (c.isDigit || c = '.') = true) :
    c ∉ symbolChars := by
  intro member
  simp only [symbolChars, List.mem_cons, List.not_mem_nil, or_false] at member
  rcases member with rfl | rfl | rfl | rfl <;> cases begins

theorem head?_whole_point {dialect : Dialect} {c : Char} {rest whole point : List Char}
    (begins : (c.isDigit || c = '.') = true)
    (digits : whole = digitRun dialect Char.isDigit (c :: rest))
    (period : point = (((c :: rest).drop whole.length).take 1).filter (· = '.')) :
    (whole ++ point).head? = some c := by
  cases digit : c.isDigit with
  | true =>
      rw [digitRun, digit, Bool.true_or, if_pos rfl] at digits
      rw [digits]
      rfl
  | false =>
      rw [digit, Bool.false_or, decide_eq_true_eq] at begins
      subst begins
      have noWhole : whole = [] := by
        rw [digits, digitRun, if_neg (by simp [digit])]
      rw [period, noWhole]
      rfl

theorem head?_append_of_some {c : Char} {first : List Char} (begins : first.head? = some c)
    (second : List Char) : (first ++ second).head? = some c := by
  rw [List.head?_append, begins]
  rfl

theorem scanNumber_distinct (dialect : Dialect) (previous : Option Token) {c : Char}
    {rest : List Char} (begins : (c.isDigit || c = '.') = true) :
    Distinct (scanNumber dialect previous (c :: rest)) := by
  have hexadecimal : MakesDistinct "X" '\x27' .literal := makes_literal (by decide)
  unfold scanNumber
  extract_lets whole behindWhole digits point behindPoint fraction text behind marked exponent
    number further long
  have first : (whole ++ point).head? = some c := head?_whole_point begins rfl rfl
  have shown : ∀ others, (String.ofList (number ++ others)).toList.head? = some c := by
    intro others
    rw [String.toList_ofList]
    exact head?_append_of_some (head?_append_of_some (head?_append_of_some first _) _) _
  split
  · exact distinct_ok (hexadecimal 0 _)
  · split
    · exact distinct_period _
    · split
      · exact distinct_period _
      · split
        · exact distinct_ok (distinct_word (shown _) (not_mem_symbolChars begins))
        · exact distinct_ok (distinct_literal (shown _) (not_mem_symbolChars begins))

theorem scanNumberOrPeriod_distinct (dialect : Dialect) (previous : Option Token) {c : Char}
    {rest : List Char} (begins : (c.isDigit || c = '.') = true) :
    Distinct (scanNumberOrPeriod dialect previous (c :: rest)) := by
  unfold scanNumberOrPeriod
  split
  · split
    · exact distinct_period _
    · exact distinct_error _
  · exact scanNumber_distinct dialect previous begins

theorem scanDollar_distinct (dialect : Dialect) (rest : List Char) :
    Distinct (scanDollar dialect rest) := by
  have dollar (behind : List Char) : Token.Distinct (.literal (String.ofList ('$' :: behind))) :=
    distinct_literal (c := '$') (by rw [String.toList_ofList]; rfl) (by decide)
  unfold scanDollar
  dsimp only
  split
  · split
    · exact distinct_error _
    · exact distinct_ok (dollar _)
  · exact distinct_ok (dollar _)

/-! ## Operators -/

theorem scan?_distinct (dialect : Dialect) (input : List Char) :
    ∀ rule ∈ Operator.scan? dialect input, Distinct rule := by
  unfold Operator.scan?
  split
  · exact distinct_none
  · next entry found =>
    have member := (Operator.longest?_spec (Operator.table dialect) input).member entry found
    dsimp only
    split
    · split
      · exact distinct_some (distinct_error _)
      · exact distinct_some (distinct_ok (distinct_ofSymbol (Operator.shown_ne member)))
    · next extended =>
      have longer := Operator.extended_not_symbol found rfl fun empty => extended (by simp [empty])
      exact distinct_some (distinct_ok longer)

theorem not_symbolChar_of_scan? {dialect : Dialect} {c : Char} {rest : List Char}
    (unscanned : Operator.scan? dialect (c :: rest) = none) : c ∉ symbolChars := by
  intro symbol
  unfold Operator.scan? at unscanned
  split at unscanned
  · next nothing => exact Operator.longest?_symbol symbol rest nothing
  · dsimp only at unscanned
    split at unscanned
    · split at unscanned <;> cases unscanned
    · cases unscanned

/-! ## Texts -/

theorem scanOther_distinct (dialect : Dialect) {c : Char} (other : c ∉ symbolChars)
    (rest : List Char) : Distinct (scanOther dialect c rest) := by
  unfold scanOther
  split
  · next mark =>
      subst mark
      have begins (digits : List Char) :
          (String.ofList ('?' :: digits)).toList.head? = some '?' := by
        rw [String.toList_ofList]
        rfl
      exact distinct_ok (distinct_literal (begins _) (by decide))
  · split
    · exact scanWord_distinct dialect other [] rest
    · split
      · exact scanDollar_distinct dialect rest
      · split
        · exact distinct_blank _
        · exact distinct_ok (distinct_operator (c := c) (by simp) other)

theorem not_mem_symbolChars_of_isAlpha {c : Char} (letter : c.isAlpha = true) :
    c ∉ symbolChars := by
  intro member
  simp only [symbolChars, List.mem_cons, List.not_mem_nil, or_false] at member
  rcases member with rfl | rfl | rfl | rfl <;> revert letter <;> decide

theorem scanToken_distinct (dialect : Dialect) (previous : Option Token) (c : Char)
    (rest : List Char) : Distinct (scanToken dialect previous c rest) := by
  unfold scanToken
  split
  · exact distinct_blank _
  · split
    · next letter =>
        have other := not_mem_symbolChars_of_isAlpha letter
        cases marked : scanMarkedString? dialect c rest with
        | none => exact scanWord_distinct dialect other [] rest
        | some rule => exact scanMarkedString?_distinct dialect c rest rule marked
    · split
      · next begins => exact scanNumberOrPeriod_distinct dialect previous begins
      · refine distinct_getD
          (distinct_orElse (scanQuoted?_distinct dialect c rest)
            (distinct_orElse (scanComment?_distinct dialect c rest)
              (distinct_orElse (scanMarkedWord?_distinct dialect c rest)
                (scan?_distinct dialect (c :: rest))))) fun nothing => ?_
        have operator := eq_none_of_orElse (eq_none_of_orElse (eq_none_of_orElse nothing))
        exact scanOther_distinct dialect (not_symbolChar_of_scan? operator) rest

theorem scanTokens_distinct (dialect : Dialect) (previous : Option Token) (input : List Char) :
    ∀ tokens, scanTokens dialect previous input = .ok tokens →
      ∀ token ∈ tokens, token.Distinct := by
  fun_induction scanTokens dialect previous input with
  | case1 previous =>
      intro tokens scanned
      cases scanned
      exact fun _ member => nomatch member
  | case2 previous c rest fault failed => exact fun _ scanned => nomatch scanned
  | case3 previous c rest reading first taken fault failed ih =>
      exact fun _ scanned => nomatch scanned
  | case4 previous c rest reading first taken further behind ih =>
      intro tokens scanned
      cases scanned
      intro token member
      rcases List.mem_cons.mp member with rfl | later
      · exact scanToken_distinct dialect previous c rest reading first
      · exact ih further behind token later

/-- The tokens of a scanned text are shown like comparison operators only where they are. -/
theorem distinct_of_scan {dialect : Dialect} {text : String} {tokens : List Token}
    (scanned : Token.scan dialect text = .ok tokens) : ∀ token ∈ tokens, token.Distinct := by
  unfold Token.scan at scanned
  cases result : scanTokens dialect none text.toList with
  | error fault => rw [result] at scanned; cases scanned
  | ok found =>
      rw [result] at scanned
      cases scanned
      exact scanTokens_distinct dialect none text.toList tokens result

end SqlMetrics
