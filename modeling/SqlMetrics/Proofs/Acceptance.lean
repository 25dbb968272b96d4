import SqlMetrics.Proofs.Depth

/-! # What is accepted

A query is refused for three reasons only: its text has no tokens, its first statement is empty, or
more of its brackets are open at the same time than the limit allows (`parse_outcome`).  What stands
behind the first statement, and closing brackets that close nothing, never matter. -/
set_option autoImplicit false
namespace SqlMetrics

/-- The brackets that are open behind some tokens. -/
def openAfter (tokens : List Token) : Nat :=
  depthAfter 0 (tokens.filterMap Token.bracket?)

/-- The number of open brackets passes a limit somewhere in the tokens. -/
def Passes (limit : Nat) (tokens : List Token) : Prop :=
  ∃ front, front <+: tokens ∧ limit < openAfter front

section Tokens
variable {tokens front behind : List Token} {limit : Nat}

theorem passes_iff : Passes limit tokens ↔ limit < deepest 0 (tokens.filterMap Token.bracket?) := by
  rw [lt_deepest_iff]
  constructor
  · rintro ⟨front, within, beyond⟩
    exact ⟨front.filterMap Token.bracket?, within.filterMap Token.bracket?, beyond⟩
  · rintro ⟨brackets, within, beyond⟩
    obtain ⟨front, inTokens, rfl⟩ := List.prefix_filterMap_iff.mp within
    exact ⟨front, inTokens, beyond⟩

theorem passes_unmatched (unmatched : openAfter front = 0) :
    Passes limit (front ++ .rightBracket :: behind) ↔ Passes limit (front ++ behind) := by
  have base : depthAfter 0 (front.filterMap Token.bracket?) = 0 := unmatched
  have bracket : (Token.rightBracket :: behind).filterMap Token.bracket? =
      .closing :: behind.filterMap Token.bracket? := rfl
  rw [passes_iff, passes_iff, List.filterMap_append, List.filterMap_append, deepest_append,
    deepest_append, base, bracket, deepest, Bracket.turn, Nat.zero_sub,
    Nat.max_eq_right (Nat.zero_le _)]

/-! ## The first statement -/

theorem firstStatement_append {token : Token} (member : token ∈ front) (noBlank : token ≠ .blank)
    (noSemicolon : token ≠ .semicolon) :
    firstStatement (front ++ .semicolon :: behind) = firstStatement front := by
  have kept : token ∈ front.filter (· != .blank) :=
    List.mem_filter.mpr ⟨member, by simpa using noBlank⟩
  have begun : (front.filter (· != .blank)).dropWhile (· = .semicolon) ≠ [] := by
    intro empty
    have parts : (front.filter (· != .blank)).takeWhile (· = .semicolon) ++ _ = _ :=
      List.takeWhile_append_dropWhile
    rw [empty, List.append_nil] at parts
    have all : ((front.filter (· != .blank)).takeWhile (· = .semicolon)).all (· = .semicolon) =
        true := List.all_takeWhile
    rw [parts] at all
    exact noSemicolon (by simpa using List.all_eq_true.mp all token kept)
  rw [firstStatement, firstStatement, List.filter_append, List.filter_cons_of_pos (by decide),
    List.dropWhile_append]
  simp only [List.isEmpty_iff, begun, if_false]
  rw [List.takeWhile_append]
  split
  · next whole =>
      rw [List.takeWhile_cons_of_neg (by decide), List.append_nil]
      exact ((List.takeWhile_prefix _).sublist.eq_of_length whole).symm
  · rfl

theorem leavesOf_eq_nil_iff : leavesOf tokens = [] ↔ firstStatement tokens = [] := by
  rw [leavesOf]
  cases firstStatement tokens with
  | nil => simp [leavesFrom]
  | cons token rest => simp [leavesFrom]

end Tokens

/-! ## Outcomes of a token list -/

namespace Statement

variable {tokens : List Token}

theorem ofTokens_congr {left right : List Token}
    (same : firstStatement left = firstStatement right) : ofTokens left = ofTokens right := by
  rw [ofTokens, ofTokens, leavesOf, leavesOf, same]

theorem nestBrackets_statement :
    nestBrackets nestingLimit (leavesOf tokens) = none ↔
      Passes nestingLimit (firstStatement tokens) := by
  rw [nestBrackets_eq_none_iff, brackets_leavesOf, passes_iff, statementBrackets]

theorem ofTokens_cases (tokens : List Token) :
    firstStatement tokens = [] ∧ ofTokens tokens = .error .empty ∨
      firstStatement tokens ≠ [] ∧ Passes nestingLimit (firstStatement tokens) ∧
        ofTokens tokens = .error (.tooDeep nestingLimit) ∨
      firstStatement tokens ≠ [] ∧ ¬ Passes nestingLimit (firstStatement tokens) ∧
        ∃ statement, ofTokens tokens = .ok statement := by
  by_cases empty : firstStatement tokens = []
  · refine Or.inl ⟨empty, ?_⟩
    rw [ofTokens, leavesOf_eq_nil_iff.mpr empty]
  · have read : ofTokens tokens = ofLeaves (leavesOf tokens) := by
      rw [ofTokens]
      split
      · next none => exact absurd (leavesOf_eq_nil_iff.mp none) empty
      · rfl
    refine Or.inr ?_
    rw [read, ofLeaves, ← nestBrackets_statement]
    cases nests : nestBrackets nestingLimit (leavesOf tokens) with
    | none => exact Or.inl ⟨empty, rfl, rfl⟩
    | some nested => exact Or.inr ⟨empty, Option.some_ne_none nested, _, rfl⟩

theorem not_passes_nil (limit : Nat) : ¬ Passes limit [] := by
  rw [passes_iff]
  exact Nat.not_lt_zero limit

theorem ofTokens_eq_empty_iff : ofTokens tokens = .error .empty ↔ firstStatement tokens = [] := by
  rcases ofTokens_cases tokens with
    ⟨empty, refused⟩ | ⟨filled, -, refused⟩ | ⟨filled, -, _, accepted⟩
  · exact iff_of_true refused empty
  · simp [refused, filled]
  · simp [accepted, filled]

theorem ofTokens_eq_tooDeep_iff {limit : Nat} :
    ofTokens tokens = .error (.tooDeep limit) ↔
      limit = nestingLimit ∧ Passes nestingLimit (firstStatement tokens) := by
  rcases ofTokens_cases tokens with ⟨empty, refused⟩ | ⟨-, deep, refused⟩ | ⟨-, flat, _, accepted⟩
  · simp [refused, empty, not_passes_nil]
  · simp [refused, deep, eq_comm]
  · simp [accepted, flat]

theorem ofTokens_eq_ok_iff :
    (∃ statement, ofTokens tokens = .ok statement) ↔
      firstStatement tokens ≠ [] ∧ ¬ Passes nestingLimit (firstStatement tokens) := by
  rcases ofTokens_cases tokens with ⟨empty, refused⟩ | ⟨-, deep, refused⟩ | ⟨filled, flat, accepted⟩
  · simp [refused, empty]
  · simp [refused, deep]
  · exact iff_of_true accepted ⟨filled, flat⟩

theorem parse_eq_token_iff {dialect : Dialect} {query : String} {fault : TokenError} :
    parse dialect query = .error (.token fault) ↔ Token.scan dialect query = .error fault := by
  rw [parse]
  cases Token.scan dialect query with
  | error other => simp
  | ok tokens =>
      rcases ofTokens_cases tokens with ⟨-, refused⟩ | ⟨-, -, refused⟩ | ⟨-, -, _, accepted⟩
      · simp [refused]
      · simp [refused]
      · simp [accepted]

theorem parse_of_scan {dialect : Dialect} {query : String}
    (scanned : Token.scan dialect query = .ok tokens) :
    parse dialect query = ofTokens tokens := by
  rw [parse, scanned]

end Statement

/-- A query has a tree unless its text has no tokens, its first statement has none, or more than 256
of its brackets are open at some point.  Only the first statement counts, so neither what stands
behind its semicolon nor a closing bracket that closes nothing makes a query fail. -/
theorem parse_outcome :
    (∀ dialect query fault, Statement.parse dialect query = .error (.token fault) ↔
      Token.scan dialect query = .error fault) ∧
    (∀ dialect query tokens, Token.scan dialect query = .ok tokens →
      (Statement.parse dialect query = .error .empty ↔ firstStatement tokens = []) ∧
      (∀ limit, Statement.parse dialect query = .error (.tooDeep limit) ↔
        limit = 256 ∧ Passes 256 (firstStatement tokens)) ∧
      ((∃ statement, Statement.parse dialect query = .ok statement) ↔
        firstStatement tokens ≠ [] ∧ ¬ Passes 256 (firstStatement tokens))) ∧
    (∀ left right, firstStatement left = firstStatement right →
      Statement.ofTokens left = Statement.ofTokens right) ∧
    (∀ front behind token, token ∈ front → token ≠ .blank → token ≠ .semicolon →
      Statement.ofTokens (front ++ .semicolon :: behind) = Statement.ofTokens front) ∧
    ∀ tokens front behind, firstStatement tokens = front ++ .rightBracket :: behind →
      openAfter front = 0 → ((∃ statement, Statement.ofTokens tokens = .ok statement) ↔
        ¬ Passes 256 (front ++ behind)) := by
  refine ⟨fun _ _ _ => Statement.parse_eq_token_iff, ?_, fun _ _ => Statement.ofTokens_congr, ?_,
    ?_⟩
  · intro dialect query tokens scanned
    rw [Statement.parse_of_scan scanned]
    exact ⟨Statement.ofTokens_eq_empty_iff, fun _ => Statement.ofTokens_eq_tooDeep_iff,
      Statement.ofTokens_eq_ok_iff⟩
  · intro front behind token member noBlank noSemicolon
    exact Statement.ofTokens_congr (firstStatement_append member noBlank noSemicolon)
  · intro tokens front behind statement unmatched
    have filled : firstStatement tokens ≠ [] := by simp [statement]
    rw [Statement.ofTokens_eq_ok_iff, and_iff_right filled, statement]
    exact not_congr (passes_unmatched unmatched)

theorem scan_openings (count : Nat) :
    Token.scan .generic (String.ofList (List.replicate count '(')) =
      .ok (List.replicate count .leftBracket) := by
  have run : ∀ previous, scanTokens .generic previous (List.replicate count '(') =
      .ok (List.replicate count .leftBracket) := by
    induction count with
    | zero =>
        intro previous
        rw [List.replicate_zero, scanTokens]
        rfl
    | succ count ih =>
        intro previous
        have bracket : scanToken .generic previous '(' (List.replicate count '(') =
            .ok ⟨.leftBracket, 1⟩ := rfl
        rw [List.replicate_succ, scanTokens, bracket]
        dsimp only
        rw [Nat.sub_self, List.drop_zero, ih]
        rfl
  rw [Token.scan, String.toList_ofList, run]

/-- As many open brackets as the limit allows are accepted and one more is not, but for brackets
behind the first semicolon and for closing brackets that close nothing. -/
theorem outcome_at_limit :
    (∃ statement, Statement.parse .generic (String.ofList (List.replicate 256 '(')) =
      .ok statement) ∧
    Statement.parse .generic (String.ofList (List.replicate 257 '(')) = .error (.tooDeep 256) ∧
    Statement.ofTokens [.blank, .semicolon, .star] = Statement.ofTokens [.star, .semicolon] ∧
    Statement.ofTokens ([.star] ++ .semicolon :: List.replicate 257 .leftBracket) =
      Statement.ofTokens [.star] ∧
    ∃ statement, Statement.ofTokens [.rightBracket, .star, .rightBracket] = .ok statement := by
  obtain ⟨-, texts, same, cut, unmatched⟩ := parse_outcome
  have full : ¬ Passes 256 (firstStatement (List.replicate 256 .leftBracket)) := by
    rw [passes_iff]
    decide +kernel
  have beyond : Passes 256 (firstStatement (List.replicate 257 .leftBracket)) := by
    rw [passes_iff]
    decide +kernel
  have flat : ¬ Passes 256 ([] ++ [.star, .rightBracket]) := by
    rw [passes_iff]
    decide
  refine ⟨?_, ?_, same _ _ (by decide), cut _ _ .star (by simp) (by decide) (by decide), ?_⟩
  · exact (texts _ _ _ (scan_openings 256)).2.2.mpr ⟨by decide +kernel, full⟩
  · exact ((texts _ _ _ (scan_openings 257)).2.1 256).mpr ⟨rfl, beyond⟩
  · exact (unmatched _ [] _ (by decide) (by decide)).mpr flat

end SqlMetrics
