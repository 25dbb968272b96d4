import Mathlib.Data.List.Basic
import SqlMetrics.Features.Counters
import SqlMetrics.Proofs.Depth
import SqlMetrics.Proofs.TreeGrammar

/-! # Leaves outside brackets

The leaves that no bracket holds are the ungrouped nodes before the passes (`ungrouped_nested`), and
the passes up to lists keep those that divide terms where they are (`dividers_groupTerms`).  So what
the top level shows of such leaves is read off the leaves of the statement, as its joins are: the
words `JOIN` outside `WHERE` clauses (`joins_ofLeaves`). -/
set_option autoImplicit false
namespace SqlMetrics

open Node

/-- The leaves outside brackets, with so many open before them.  A closing bracket that closes
nothing is one of them. -/
def topLeaves (depth : Nat) : List Leaf → List Leaf
  | [] => []
  | content :: rest =>
      (if depth = 0 && !content.opensBracket then [content] else []) ++
        topLeaves (depthAfter depth (bracketsOf [content])) rest

/-- The nodes that are leaves. -/
def ungrouped (nodes : List Node) : List Leaf :=
  nodes.filterMap fun node =>
    match node with
    | .leaf content => some content
    | .group _ _ => none

/-- The leaves among some nodes that divide terms. -/
def dividers (nodes : List Node) : List Leaf :=
  (ungrouped nodes).filter Leaf.dividesTerms

theorem ungrouped_append (front back : List Node) :
    ungrouped (front ++ back) = ungrouped front ++ ungrouped back :=
  List.filterMap_append

theorem mem_ungrouped {nodes : List Node} {content : Leaf} :
    content ∈ ungrouped nodes ↔ .leaf content ∈ nodes := by
  rw [ungrouped, List.mem_filterMap]
  constructor
  · rintro ⟨node, member, found⟩
    cases node with
    | leaf other => cases found; exact member
    | group kind children => cases found
  · intro member
    exact ⟨_, member, rfl⟩

/-! ## Before the passes -/

namespace OpenGroups

variable {limit : Nat} {groups next last : OpenGroups} {content : Leaf} {leaves : List Leaf}

theorem ungrouped_push (node : Node) (outer : List (List Node)) :
    ∀ inner, ungrouped (closeAll (node :: inner) outer) =
      ungrouped (closeAll inner outer) ++ if outer.isEmpty then ungrouped [node] else [] := by
  induction outer generalizing node with
  | nil =>
      intro inner
      rw [closeAll, closeAll, List.reverse_cons, ungrouped_append]
      rfl
  | cons around further ih =>
      intro inner
      have closed : ∀ level, ungrouped (closeAll level (around :: further)) =
          ungrouped (closeAll around further) := by
        intro level
        rw [closeAll, ih]
        simp [ungrouped]
      rw [closed, closed, List.isEmpty_cons, if_neg Bool.false_ne_true, List.append_nil]

theorem ungrouped_read (read : groups.read? limit content = some next) :
    ungrouped (closeAll next.inner next.outer) =
      ungrouped (closeAll groups.inner groups.outer) ++
        if groups.depth = 0 && !content.opensBracket then [content] else [] := by
  have pushed := ungrouped_push (.leaf content) groups.outer groups.inner
  have base : groups.outer.isEmpty = decide (groups.depth = 0) := by
    cases outer : groups.outer <;> simp [depth, outer]
  rw [base] at pushed
  unfold read? at read
  split at read
  case isTrue opens =>
    split at read
    · cases read
      have opened := ungrouped_push (.group .parenthesis [.leaf content]) groups.outer groups.inner
      have hidden : ungrouped [.group .parenthesis [.leaf content]] = [] := rfl
      rw [hidden, ite_self] at opened
      rw [opens, Bool.not_true, Bool.and_false, if_neg Bool.false_ne_true]
      exact opened
    · cases read
  case isFalse noOpening =>
    rw [Bool.not_eq_true] at noOpening
    rw [noOpening, Bool.not_false, Bool.and_true]
    split at read
    case isTrue closes =>
      cases read
      obtain ⟨inner, outer⟩ := groups
      cases outer with
      | nil => simp [depth] at closes
      | cons around further => exact pushed
    case isFalse stays =>
      cases read
      exact pushed

theorem ungrouped_run (run : Reads limit groups leaves last) :
    ungrouped (closeAll last.inner last.outer) =
      ungrouped (closeAll groups.inner groups.outer) ++ topLeaves groups.depth leaves := by
  induction run with
  | done => rw [topLeaves, List.append_nil]
  | read here _ ih =>
      rw [ih, ungrouped_read here, topLeaves, List.append_assoc, depth_read here]

end OpenGroups

/-- What brackets leave ungrouped are the leaves outside them. -/
theorem ungrouped_nested {limit : Nat} {leaves : List Leaf} {nested : List Node}
    (nests : nestBrackets limit leaves = some nested) :
    ungrouped nested = topLeaves 0 leaves := by
  obtain ⟨last, run, rfl⟩ := reads_of_nested nests
  exact OpenGroups.ungrouped_run run

theorem ungrouped_groupInside (nodes : List Node) :
    ungrouped (groupInsideAll nodes) = ungrouped nodes := by
  rw [groupInsideAll_eq_map, ungrouped, List.filterMap_map]
  refine List.filterMap_congr fun node _ => ?_
  rcases node with content | ⟨kind, children⟩
  · rfl
  · cases kind <;> rfl

theorem isKeyword_groupNodes {limit : Nat} {leaves : List Leaf} {nested : List Node}
    {text : String} (nests : nestBrackets limit leaves = some nested)
    (absent : ∀ content ∈ topLeaves 0 leaves, content.isKeyword text = false) :
    ∀ node ∈ groupNodes nested, node.isKeyword text = false := by
  intro node member
  cases node with
  | group kind children => rfl
  | leaf content =>
      have before := mem_ungrouped.mpr (leaf_mem_of_mem_groupLevel member)
      rw [ungrouped_groupInside, ungrouped_nested nests] at before
      exact absent content before

/-! ## Through the passes -/

theorem dividers_append (front back : List Node) :
    dividers (front ++ back) = dividers front ++ dividers back := by
  rw [dividers, ungrouped_append, List.filter_append]
  rfl

theorem dividers_eq_nil {nodes : List Node}
    (noDividers : ∀ content, .leaf content ∈ nodes → content.dividesTerms = false) :
    dividers nodes = [] :=
  List.filter_eq_nil_iff.mpr fun content member => by
    simp [noDividers content (mem_ungrouped.mp member)]

/-- The passes up to lists keep the leaves that divide terms. -/
theorem dividers_groupTerms (nodes : List Node) : dividers (groupTerms nodes) = dividers nodes := by
  -- The nodes since the last divider go along, since nothing else cuts the passes in two.
  have between : ∀ behind inside,
      (∀ content, .leaf content ∈ inside → content.dividesTerms = false) →
        dividers (groupTerms (inside ++ behind)) = dividers behind := by
    intro behind
    induction behind with
    | nil =>
        intro inside noDividers
        rw [List.append_nil]
        exact dividers_eq_nil fun content member =>
          noDividers content (leaf_mem_of_mem_groupTerms member)
    | cons node rest ih =>
        intro inside noDividers
        have apart : dividers (node :: rest) = dividers [node] ++ dividers rest :=
          dividers_append [node] rest
        by_cases divides : ∃ content, node = .leaf content ∧ content.dividesTerms = true
        · obtain ⟨content, rfl, divides⟩ := divides
          have inner := dividers_eq_nil fun other member =>
            noDividers other (leaf_mem_of_mem_groupTerms member)
          have tail := dividers_append [.leaf content] (groupTerms rest)
          rw [groupTerms_append divides, dividers_append, inner, List.nil_append, apart]
          exact tail.trans (congrArg _ (ih [] fun other member => by cases member))
        · have stays : ∀ content, .leaf content ∈ inside ++ [node] →
              content.dividesTerms = false := by
            intro content member
            rcases List.mem_append.mp member with before | here
            · exact noDividers content before
            · rw [List.mem_singleton] at here
              exact Bool.eq_false_iff.mpr fun it => divides ⟨content, here.symm, it⟩
          have alone : dividers [node] = [] :=
            dividers_eq_nil fun content member => stays content (List.mem_append_right _ member)
          rw [apart, alone, List.nil_append, ← ih _ stays, List.append_assoc, List.singleton_append]
  exact between nodes [] fun content member => by cases member

/-! ## Joins -/

/-- Whether a `WHERE` clause is open behind a leaf, given whether one is open before it. -/
def clauseBehind (inClause : Bool) (content : Leaf) : Bool :=
  content.isKeyword "WHERE" || inClause && !closesWhere (.leaf content)

/-- The words `JOIN` outside `WHERE` clauses, given whether one is open before the leaves. -/
def joinsOutside (inClause : Bool) : List Leaf → Nat
  | [] => 0
  | content :: rest =>
      (if !inClause && content.isKeyword "JOIN" then 1 else 0) +
        joinsOutside (clauseBehind inClause content) rest

theorem dividesTerms_of_isKeyword {content : Leaf} {text : String}
    (word : content.isKeyword text = true)
    (other : ∀ member ∈ ["AS", "ASC", "DESC", "NULL", "TRUE", "FALSE"],
      sameLetters text member = false) : content.dividesTerms = true := by
  have kind := Leaf.kind_of_isKeyword word
  have noMember : ["AS", "ASC", "DESC", "NULL", "TRUE", "FALSE"].any content.isKeyword = false := by
    refine List.any_eq_false.mpr fun member inList => ?_
    exact Bool.eq_false_iff.mp (Leaf.isKeyword_apart word (other member inList))
  have noComma : content.isPunctuation "," = false := by simp [Leaf.isPunctuation, kind]
  rw [Leaf.dividesTerms, noComma, Leaf.dividesMembers, kind]
  simpa using noMember

theorem dividesTerms_of_closesWhere {content : Leaf} (closes : closesWhere (.leaf content) = true) :
    content.dividesTerms = true := by
  simp only [closesWhere, Bool.or_eq_true, List.any_eq_true] at closes
  rcases closes with mark | ⟨text, terminator, word⟩
  · cases isPunctuation_iff.mp mark
    decide
  · have others : ∀ text ∈ whereTerminators,
        ∀ member ∈ ["AS", "ASC", "DESC", "NULL", "TRUE", "FALSE"],
          sameLetters text member = false := by decide
    exact dividesTerms_of_isKeyword word (others text terminator)

section Joins
variable {content : Leaf}

theorem joinsOutside_skip (joins : content.dividesTerms = false) (inClause : Bool)
    (rest : List Leaf) : joinsOutside inClause (content :: rest) = joinsOutside inClause rest := by
  have noJoin : content.isKeyword "JOIN" = false := by
    cases word : content.isKeyword "JOIN" with
    | false => rfl
    | true => exact absurd (dividesTerms_of_isKeyword word (by decide)) (by simp [joins])
  have noWhere : content.isKeyword "WHERE" = false := by
    cases word : content.isKeyword "WHERE" with
    | false => rfl
    | true => exact absurd (dividesTerms_of_isKeyword word (by decide)) (by simp [joins])
  have goesOn : closesWhere (.leaf content) = false := by
    cases closes : closesWhere (.leaf content) with
    | false => rfl
    | true => exact absurd (dividesTerms_of_closesWhere closes) (by simp [joins])
  rw [joinsOutside, clauseBehind, noJoin, noWhere, goesOn]
  simp

theorem joinsOutside_filter (inClause : Bool) (leaves : List Leaf) :
    joinsOutside inClause (leaves.filter Leaf.dividesTerms) = joinsOutside inClause leaves := by
  induction leaves generalizing inClause with
  | nil => rfl
  | cons content rest ih =>
      cases divides : content.dividesTerms with
      | true => rw [List.filter_cons_of_pos divides, joinsOutside, ih, joinsOutside]
      | false => rw [List.filter_cons_of_neg (by simp [divides]), ih, joinsOutside_skip divides]

theorem joinsOutside_close (closes : closesWhere (.leaf content) = true) (inClause : Bool)
    (rest : List Leaf) :
    joinsOutside inClause (content :: rest) = joinsOutside false rest := by
  have noJoin : content.isKeyword "JOIN" = false := isKeyword_of_closesWhere closes (by decide)
  have noWhere : content.isKeyword "WHERE" = false := isKeyword_where_of_closesWhere closes
  rw [joinsOutside, clauseBehind, closes, noJoin, noWhere]
  simp

theorem joinsOutside_clause (nodes : List Node) :
    joinsOutside true (ungrouped nodes) =
      joinsOutside false (ungrouped (nodes.dropWhile fun node => !closesWhere node)) := by
  induction nodes with
  | nil => rfl
  | cons node rest ih =>
      cases closes : closesWhere node with
      | false =>
          rw [List.dropWhile_cons_of_pos (by simp [closes]), ← ih]
          cases node with
          | leaf content =>
              have within : joinsOutside true (content :: ungrouped rest) =
                  joinsOutside true (ungrouped rest) := by
                rw [joinsOutside, clauseBehind, closes]
                simp
              exact within
          | group kind children => rfl
      | true =>
          rw [List.dropWhile_cons_of_neg (by simp [closes])]
          cases node with
          | leaf content =>
              have behindClause := joinsOutside_close closes true (ungrouped rest)
              exact behindClause.trans (joinsOutside_close closes false _).symm
          | group kind children => cases closes

/-- Behind the passes up to lists, the joins are those outside the clauses that the last pass
makes. -/
theorem joins_groupWhere (nodes : List Node) :
    (groupWhere nodes).countP (·.isKeyword "JOIN") = joinsOutside false (ungrouped nodes) := by
  unfold groupWhere
  induction nodes using sweep.induct whereRule with
  | case1 => rw [sweep_nil]; rfl
  | case2 node rest merged ih =>
      cases word : node.isKeyword "WHERE" with
      | true =>
          obtain ⟨content, rfl, -⟩ := isLeafOf_iff.mp (isLeafOf_of_isKeyword word)
          have begins : content.isKeyword "WHERE" = true := word
          have noJoin : content.isKeyword "JOIN" = false :=
            Leaf.isKeyword_apart word (by decide)
          have behind := drop_whereRule word rest
          have group : (whereRule (.leaf content) rest).1.isKeyword "JOIN" = false := by
            rw [whereRule, if_pos word]
            rfl
          have counted : joinsOutside false (content :: ungrouped rest) =
              joinsOutside true (ungrouped rest) := by
            rw [joinsOutside, clauseBehind, begins, noJoin]
            simp
          rw [sweep_cons, List.countP_cons, group, ih, behind, ← joinsOutside_clause]
          exact counted.symm
      | false =>
          have kept : whereRule node rest = (node, 0) := by simp [whereRule, word]
          have behind : merged.2 = 0 := congrArg Prod.snd kept
          rw [behind, List.drop_zero] at ih
          rw [sweep_cons_kept kept, List.countP_cons, ih]
          cases node with
          | leaf content =>
              have counted : joinsOutside false (content :: ungrouped rest) =
                  (if content.isKeyword "JOIN" then 1 else 0) +
                    joinsOutside false (ungrouped rest) := by
                have noWhere : content.isKeyword "WHERE" = false := word
                rw [joinsOutside, clauseBehind, noWhere]
                rfl
              exact (Nat.add_comm _ _).trans counted.symm
          | group kind children => rfl

end Joins

/-- The joins of an accepted list of leaves are told by its leaves outside brackets. -/
theorem joins_ofLeaves {leaves : List Leaf} {statement : Statement}
    (accepted : Statement.ofLeaves leaves = .ok statement) :
    statement.joins = joinsOutside false (topLeaves 0 leaves) := by
  obtain ⟨nested, nests, rfl⟩ := nested_of_ofLeaves accepted
  rw [Statement.joins, groupNodes, groupLevel_eq, joins_groupWhere, ← joinsOutside_filter]
  have kept := dividers_groupTerms (groupInsideAll nested)
  rw [dividers, dividers, ungrouped_groupInside, ungrouped_nested nests] at kept
  rw [kept, joinsOutside_filter]

end SqlMetrics
