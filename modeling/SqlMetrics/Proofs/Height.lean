import SqlMetrics.Proofs.Depth
import SqlMetrics.Proofs.TreeGrammar

/-! # How deep a tree is

The passes on one level put at most six groups around each other, however many nodes the level has,
so the depth of a tree is bounded by that of its brackets alone (`ofTokens_depth_le`).  The bound is
followed through the passes as slack: how many groups there may be beyond six for each level of
brackets. -/
set_option autoImplicit false
namespace SqlMetrics

namespace Node

/-! ## Towers of groups -/

mutual

/-- The most groups of the counted kinds that stand around one another in a node. -/
def tower (counted : GroupKind → Bool) : Node → Nat
  | .leaf _ => 0
  | .group kind children => towerOfAll counted children + if counted kind then 1 else 0

def towerOfAll (counted : GroupKind → Bool) : List Node → Nat
  | [] => 0
  | node :: rest => max (node.tower counted) (towerOfAll counted rest)

end

/-- How far the deepest part of a node is below it. -/
def height (node : Node) : Nat :=
  node.tower fun _ => true

def heightOfAll (nodes : List Node) : Nat :=
  towerOfAll (fun _ => true) nodes

/-- How deep brackets nest in a node. -/
def nesting (node : Node) : Nat :=
  node.tower fun kind => kind = .parenthesis

def nestingOfAll (nodes : List Node) : Nat :=
  towerOfAll (fun kind => kind = .parenthesis) nodes

/-- The part stands so many levels below the node. -/
inductive Below (part : Node) : Nat → Node → Prop where
  | here : Below part 0 part
  | child {depth : Nat} {kind : GroupKind} {children : List Node} {child : Node}
      (member : child ∈ children) (within : Below part depth child) :
      Below part (depth + 1) (.group kind children)

section Towers
variable {counted : GroupKind → Bool} {node : Node} {nodes : List Node} {bound : Nat}

theorem towerOfAll_le_iff :
    towerOfAll counted nodes ≤ bound ↔ ∀ node ∈ nodes, node.tower counted ≤ bound := by
  induction nodes with
  | nil => simp [towerOfAll]
  | cons node rest ih => rw [towerOfAll, Nat.max_le, ih, List.forall_mem_cons]

theorem heightOfAll_le_iff : heightOfAll nodes ≤ bound ↔ ∀ node ∈ nodes, node.height ≤ bound :=
  towerOfAll_le_iff

theorem nestingOfAll_le_iff : nestingOfAll nodes ≤ bound ↔ ∀ node ∈ nodes, node.nesting ≤ bound :=
  towerOfAll_le_iff

theorem height_le_of_mem (member : node ∈ nodes) : node.height ≤ heightOfAll nodes :=
  heightOfAll_le_iff.mp (Nat.le_refl _) node member

theorem nesting_le_of_mem (member : node ∈ nodes) : node.nesting ≤ nestingOfAll nodes :=
  nestingOfAll_le_iff.mp (Nat.le_refl _) node member

theorem towerOfAll_append (front back : List Node) :
    towerOfAll counted (front ++ back) =
      max (towerOfAll counted front) (towerOfAll counted back) := by
  induction front with
  | nil => exact (Nat.zero_max _).symm
  | cons node rest ih => rw [List.cons_append, towerOfAll, ih, towerOfAll, Nat.max_assoc]

theorem heightOfAll_append (front back : List Node) :
    heightOfAll (front ++ back) = max (heightOfAll front) (heightOfAll back) :=
  towerOfAll_append front back

theorem nestingOfAll_append (front back : List Node) :
    nestingOfAll (front ++ back) = max (nestingOfAll front) (nestingOfAll back) :=
  towerOfAll_append front back

theorem towerOfAll_singleton (node : Node) : towerOfAll counted [node] = node.tower counted := by
  rw [towerOfAll, towerOfAll, Nat.max_zero]

theorem heightOfAll_pair (first second : Node) :
    heightOfAll [first, second] = max first.height second.height := by
  rw [heightOfAll, towerOfAll, towerOfAll_singleton, height, height]

theorem nestingOfAll_pair (first second : Node) :
    nestingOfAll [first, second] = max first.nesting second.nesting := by
  rw [nestingOfAll, towerOfAll, towerOfAll_singleton, nesting, nesting]

theorem height_leaf (content : Leaf) : (Node.leaf content).height = 0 := by
  rw [height, tower]

theorem nesting_leaf (content : Leaf) : (Node.leaf content).nesting = 0 := by
  rw [nesting, tower]

theorem height_group (kind : GroupKind) (children : List Node) :
    (Node.group kind children).height = heightOfAll children + 1 := by
  rw [height, tower, if_pos rfl, heightOfAll]

theorem nesting_parenthesis (children : List Node) :
    (Node.group .parenthesis children).nesting = nestingOfAll children + 1 := by
  rw [nesting, tower, if_pos (by decide), nestingOfAll]

theorem nesting_group {kind : GroupKind} (other : kind ≠ .parenthesis) (children : List Node) :
    (Node.group kind children).nesting = nestingOfAll children := by
  rw [nesting, tower, if_neg (by simpa using other), Nat.add_zero, nestingOfAll]

theorem Below.depth_le {part : Node} {depth : Nat} (below : part.Below depth node) :
    depth + part.height ≤ node.height := by
  induction below with
  | here => exact Nat.le_of_eq (Nat.zero_add _)
  | child member _ ih =>
      have within := height_le_of_mem member
      rw [height_group]
      omega

end Towers

/-! ## Slack -/

/-- With six groups for each level of brackets taken off, at most five stand around one another. -/
def Squat (node : Node) : Prop :=
  node.height ≤ 6 * node.nesting + 5

/-- Brackets nest within so much room in the node, which has at most so many groups around one
another beyond six for each of these brackets, and all its parts are squat. -/
structure Fits (room slack : Nat) (node : Node) : Prop where
  nested : node.nesting ≤ room
  low : node.height ≤ 6 * node.nesting + slack
  inside : node.Everywhere Squat

section Slack
variable {room slack more : Nat} {node : Node} {nodes children tail : List Node}

theorem Fits.mono (fits : Fits room slack node) (enough : slack ≤ more) : Fits room more node :=
  ⟨fits.nested, Nat.le_trans fits.low (by omega), fits.inside⟩

theorem fits_leaf (content : Leaf) : Fits room slack (.leaf content) := by
  refine ⟨?_, ?_, .leaf ?_⟩
  · rw [nesting_leaf]
    exact Nat.zero_le room
  · rw [height_leaf]
    exact Nat.zero_le _
  · rw [Squat, height_leaf]
    exact Nat.zero_le _

theorem fits_of_isLeafOf {kind : LeafKind} (leaf : node.isLeafOf kind = true) :
    Fits room slack node := by
  obtain ⟨content, rfl, -⟩ := isLeafOf_iff.mp leaf
  exact fits_leaf content

theorem nestingOfAll_le (each : ∀ node ∈ nodes, Fits room slack node) :
    nestingOfAll nodes ≤ room := by
  rw [nestingOfAll_le_iff]
  intro node member
  exact (each node member).nested

theorem heightOfAll_le (each : ∀ node ∈ nodes, Fits room slack node) :
    heightOfAll nodes ≤ 6 * nestingOfAll nodes + slack := by
  rw [heightOfAll_le_iff]
  intro node member
  have low := (each node member).low
  have within := nesting_le_of_mem member
  omega

theorem Fits.of_group {kind : GroupKind} (other : kind ≠ .parenthesis) (cheap : slack ≤ 4)
    (each : ∀ child ∈ children, Fits room slack child) :
    Fits room (slack + 1) (.group kind children) := by
  have low := heightOfAll_le each
  refine ⟨?_, ?_, .group ?_ fun child member => (each child member).inside⟩
  · rw [nesting_group other]
    exact nestingOfAll_le each
  · rw [nesting_group other, height_group]
    omega
  · rw [Squat, nesting_group other, height_group]
    omega

/-- Brackets around a level give back what its passes cost. -/
theorem Fits.of_brackets (each : ∀ child ∈ children, Fits room 5 child) :
    Fits (room + 1) 0 (.group .parenthesis children) := by
  have nested := nestingOfAll_le each
  have low := heightOfAll_le each
  refine ⟨?_, ?_, .group ?_ fun child member => (each child member).inside⟩
  · rw [nesting_parenthesis]
    omega
  · rw [nesting_parenthesis, height_group]
    omega
  · rw [Squat, nesting_parenthesis, height_group]
    omega

theorem nestingOfAll_identifierParts (node : Node) :
    nestingOfAll (identifierParts node) = node.nesting := by
  rw [identifierParts.eq_def]
  split
  · exact (nesting_group (by decide) _).symm
  · exact towerOfAll_singleton node

theorem heightOfAll_identifierParts (node : Node) :
    heightOfAll (identifierParts node) ≤ node.height := by
  rw [identifierParts.eq_def]
  split
  · rw [height_group]
    exact Nat.le_succ _
  · exact Nat.le_of_eq (towerOfAll_singleton node)

theorem everywhere_identifierParts {p : Node → Prop} (all : node.Everywhere p) :
    ∀ part ∈ identifierParts node, part.Everywhere p := by
  rw [identifierParts.eq_def]
  split
  · exact (everywhere_group_iff.mp all).2
  · exact List.forall_mem_singleton.mpr all

/-- Extending an identifier puts no group around its parts, and any other node becomes a part. -/
theorem Fits.extend (cheap : slack ≤ 4) (here : Fits room slack node)
    (each : ∀ part ∈ tail, Fits room slack part) :
    Fits room (slack + 1) (SqlMetrics.extend node tail) := by
  cases tail with
  | nil => exact here.mono (Nat.le_succ slack)
  | cons next behind =>
      have parts := heightOfAll_identifierParts node
      have nested := nestingOfAll_le each
      have low := heightOfAll_le each
      obtain ⟨nestedHere, lowHere, inside⟩ := here
      rw [SqlMetrics.extend, List.isEmpty_cons, if_neg Bool.false_ne_true]
      refine ⟨?_, ?_, .group ?_
        (List.forall_mem_append.mpr ⟨everywhere_identifierParts inside, ?_⟩)⟩
      · rw [nesting_group (by decide), nestingOfAll_append, nestingOfAll_identifierParts]
        omega
      · rw [nesting_group (by decide), height_group, nestingOfAll_append, heightOfAll_append,
          nestingOfAll_identifierParts]
        omega
      · rw [Squat, nesting_group (by decide), height_group, nestingOfAll_append,
          heightOfAll_append, nestingOfAll_identifierParts]
        omega
      · exact fun part member => (each part member).inside

end Slack

end Node

open Node

/-! ## Slack of each pass -/

section Rules
variable {room : Nat}

theorem callRule_fits (node : Node) (rest : List Node) (here : Fits room 0 node)
    (behind : ∀ next ∈ rest, Fits room 0 next) : Fits room 1 (callRule node rest).1 := by
  fun_cases callRule node rest with
  | case1 node next further call =>
      simp only [Bool.and_eq_true] at call
      obtain ⟨content, rfl, -⟩ := isLeafOf_iff.mp call.1
      obtain ⟨arguments, rfl⟩ := isGroupOf_iff.mp call.2
      obtain ⟨nested, low, inside⟩ := behind _ List.mem_cons_self
      have callee : Fits room 1 (.group .identifier [.leaf content]) :=
        Fits.of_group (by decide) (by decide) (List.forall_mem_singleton.mpr (fits_leaf content))
      -- The brackets pay for the two groups around the name of the call.
      have brackets := nesting_parenthesis arguments
      have name : (Node.group .identifier [.leaf content]).height = 1 := rfl
      have noBrackets : (Node.group .identifier [.leaf content]).nesting = 0 := rfl
      refine ⟨?_, ?_, .group ?_ (List.forall_mem_cons.mpr
        ⟨callee.inside, List.forall_mem_singleton.mpr inside⟩)⟩
      · rw [nesting_group (by decide), nestingOfAll_pair, noBrackets]
        omega
      · rw [nesting_group (by decide), height_group, nestingOfAll_pair, heightOfAll_pair, name,
          noBrackets]
        omega
      · rw [Squat, nesting_group (by decide), height_group, nestingOfAll_pair, heightOfAll_pair,
          name, noBrackets]
        omega
  | case2 node next further other => exact here.mono (by decide)
  | case3 => exact here.mono (by decide)

theorem nameRule_fits (node : Node) (rest : List Node) (here : Fits room 1 node)
    (_ : ∀ next ∈ rest, Fits room 1 next) : Fits room 1 (nameRule node rest).1 := by
  unfold nameRule
  split
  case isTrue name =>
    apply Fits.of_group (by decide) (by decide)
    intro child member
    rcases List.mem_cons.mp member with rfl | inTail
    · exact fits_of_isLeafOf name
    · rcases mem_dottedTail inTail with dot | name | star
      · exact fits_of_isLeafOf (isLeafOf_of_isPunctuation dot)
      · exact fits_of_isLeafOf name
      · exact fits_of_isLeafOf star
  case isFalse => exact here

theorem castRule_fits (node : Node) (rest : List Node) (here : Fits room 1 node)
    (behind : ∀ next ∈ rest, Fits room 1 next) : Fits room 2 (castRule node rest).1 := by
  unfold castRule
  split
  case isTrue =>
    apply Fits.extend (by decide) here
    intro part member
    rcases List.mem_append.mp member with inCasts | inDirection
    · exact behind part (mem_of_begins (castTail_begins rest) inCasts)
    · split at inDirection
      · exact behind part
          (List.mem_of_mem_drop (mem_of_begins (directionTail_begins _) inDirection))
      · cases inDirection
  case isFalse => exact here.mono (by decide)

def FitsAlias (room : Nat) (node : Node) : Prop :=
  Fits room 3 node ∧ (node.isGroupOf .comparison = false → Fits room 2 node)

theorem comparisonRule_fits (node : Node) (rest : List Node) (here : Fits room 2 node)
    (behind : ∀ next ∈ rest, Fits room 2 next) : FitsAlias room (comparisonRule node rest).1 := by
  fun_cases comparisonRule node rest with
  | case1 node operator right further compared =>
      refine ⟨Fits.of_group (by decide) (by decide) ?_, fun other => ?_⟩
      · intro child member
        simp only [List.mem_cons, List.not_mem_nil, or_false] at member
        rcases member with rfl | rfl | rfl
        · exact here
        · exact behind _ List.mem_cons_self
        · exact behind _ (List.mem_cons_of_mem _ List.mem_cons_self)
      · simp [isGroupOf, groupKind?] at other
  | case2 => exact ⟨here.mono (by decide), fun _ => here⟩
  | case3 => exact ⟨here.mono (by decide), fun _ => here⟩

theorem aliasRule_fits (node : Node) (rest : List Node) (here : FitsAlias room node)
    (behind : ∀ next ∈ rest, FitsAlias room next) : Fits room 3 (aliasRule node rest).1 := by
  unfold aliasRule
  split
  case isTrue takes =>
    have head : node.isGroupOf .comparison = false := by
      rcases node with content | ⟨kind, children⟩
      · rfl
      · cases kind with
        | comparison => cases takes
        | _ => rfl
    apply Fits.extend (by decide) (here.2 head)
    intro part member
    apply (behind part (mem_of_begins (aliasTail_begins node rest) member)).2
    rcases mem_aliasTail member with word | identifier
    · exact isGroupOf_of_isKeyword word
    · obtain ⟨children, rfl⟩ := isGroupOf_iff.mp identifier
      rfl
  case isFalse => exact here.1

theorem listRule_fits (node : Node) (rest : List Node) (here : Fits room 3 node)
    (behind : ∀ next ∈ rest, Fits room 3 next) : Fits room 4 (listRule node rest).1 := by
  unfold listRule
  split
  case isTrue =>
    dsimp only
    split
    · exact here.mono (by decide)
    · apply Fits.of_group (by decide) (by decide)
      intro child member
      rcases List.mem_cons.mp member with rfl | inTail
      · exact here
      · exact behind child (mem_of_begins (listTail_begins rest) inTail)
  case isFalse => exact here.mono (by decide)

theorem whereRule_fits (node : Node) (rest : List Node) (here : Fits room 4 node)
    (behind : ∀ next ∈ rest, Fits room 4 next) : Fits room 5 (whereRule node rest).1 := by
  unfold whereRule
  split
  case isTrue =>
    apply Fits.of_group (by decide) (by decide)
    intro child member
    rcases List.mem_cons.mp member with rfl | inClause
    · exact here
    · exact behind child (mem_of_begins (List.takeWhile_prefix _) inClause)
  case isFalse => exact here.mono (by decide)

/-- All passes together cost five groups. -/
theorem groupLevel_fits (nodes : List Node) (level : ∀ node ∈ nodes, Fits room 0 node) :
    ∀ node ∈ groupLevel nodes, Fits room 5 node := by
  have calls := forall_mem_sweep callRule_fits nodes level
  have names := forall_mem_sweep nameRule_fits _ calls
  have casts := forall_mem_sweep castRule_fits _ names
  have comparisons := forall_mem_sweep comparisonRule_fits _ casts
  have aliases := forall_mem_sweep aliasRule_fits _ comparisons
  have lists := forall_mem_sweep listRule_fits _ aliases
  exact forall_mem_sweep whereRule_fits _ lists

end Rules

/-! ## All levels -/

theorem groupInside_fits {node : Node} (bracketed : node.Bracketed) :
    ∀ {room}, node.nesting ≤ room → Fits room 0 (groupInside node) := by
  induction bracketed with
  | leaf here =>
      intro room _
      rw [groupInside]
      · exact fits_leaf _
      · simp
  | group here below ih =>
      intro room within
      obtain ⟨rfl, -⟩ := here
      rw [nesting_parenthesis] at within
      cases room with
      | zero => exact absurd within (Nat.not_succ_le_zero _)
      | succ room =>
          have inside := nestingOfAll_le_iff.mp (Nat.le_of_succ_le_succ within)
          rw [groupInside, groupInsideAll_eq_map]
          apply Fits.of_brackets
          apply groupLevel_fits
          intro grouped member
          obtain ⟨child, inChildren, rfl⟩ := List.mem_map.mp member
          exact ih child inChildren (inside child inChildren)

/-! ## Brackets of the leaves -/

/-- Open levels, the innermost first, in which brackets nest within a bound, those around a level
included. -/
def Reaches (bound : Nat) : List (List Node) → Prop
  | [] => True
  | level :: around => nestingOfAll level + around.length ≤ bound ∧ Reaches bound around

namespace OpenGroups

variable {bound limit : Nat} {groups next last : OpenGroups} {content : Leaf}

def levels (groups : OpenGroups) : List (List Node) :=
  groups.inner :: groups.outer

theorem reaches_push {level : List Node} {around : List (List Node)} {node : Node}
    (reaches : Reaches bound (level :: around)) (within : node.nesting + around.length ≤ bound) :
    Reaches bound ((node :: level) :: around) := by
  obtain ⟨here, outside⟩ := reaches
  refine ⟨?_, outside⟩
  rw [nestingOfAll, towerOfAll]
  rw [nestingOfAll] at here
  rw [nesting] at within
  omega

theorem reaches_close {level around : List Node} {further : List (List Node)}
    (reaches : Reaches bound (level :: around :: further)) :
    Reaches bound ((.group .parenthesis level.reverse :: around) :: further) := by
  obtain ⟨here, outside⟩ := reaches
  apply reaches_push outside
  have same : nestingOfAll level.reverse ≤ nestingOfAll level := by
    rw [nestingOfAll_le_iff]
    intro node member
    exact nesting_le_of_mem (List.mem_reverse.mp member)
  rw [nesting_parenthesis]
  rw [List.length_cons] at here
  omega

theorem reaches_pushLeaf (reaches : Reaches bound groups.levels) (content : Leaf) :
    Reaches bound (groups.push (.leaf content)).levels := by
  apply reaches_push reaches
  have around := reaches.1
  rw [nesting_leaf]
  omega

/-- Reading a leaf keeps the bound as long as the number of open brackets does. -/
theorem reaches_read (reaches : Reaches bound groups.levels)
    (within : deepest groups.depth (bracketsOf [content]) ≤ bound)
    (read : groups.read? limit content = some next) : Reaches bound next.levels := by
  rw [read_eq] at read
  cases kind : content.bracket? with
  | none =>
      rw [kind] at read
      cases read
      exact reaches_pushLeaf reaches content
  | some bracket =>
      rw [kind] at read
      cases bracket with
      | opening =>
          dsimp only at read
          split at read
          · cases read
            refine ⟨?_, reaches⟩
            have deeper : groups.depth + 1 ≤ bound := by
              simp only [bracketsOf, List.filterMap_cons, kind, List.filterMap_nil, deepest,
                Bracket.turn] at within
              omega
            have noBrackets : nestingOfAll [.leaf content] = 0 := rfl
            show nestingOfAll [.leaf content] + (groups.depth + 1) ≤ bound
            rwa [noBrackets, Nat.zero_add]
          · cases read
      | closing =>
          cases read
          have pushed := reaches_pushLeaf reaches content
          obtain ⟨inner, outer⟩ := groups
          cases outer with
          | nil => exact pushed
          | cons around further => exact reaches_close pushed

theorem reaches_run {leaves : List Leaf} (run : Reads limit groups leaves last)
    (reaches : Reaches bound groups.levels)
    (within : deepest groups.depth (bracketsOf leaves) ≤ bound) : Reaches bound last.levels := by
  induction run with
  | done => exact reaches
  | read here _ ih =>
      rw [bracketsOf_cons, deepest_append, ← depth_read here, Nat.max_le] at within
      exact ih (reaches_read reaches within.1 here) within.2

theorem nestingOfAll_closeAll (outer : List (List Node)) :
    ∀ {inner}, Reaches bound (inner :: outer) → nestingOfAll (closeAll inner outer) ≤ bound := by
  induction outer with
  | nil =>
      intro inner reaches
      rw [nestingOfAll_le_iff]
      intro node member
      exact nestingOfAll_le_iff.mp reaches.1 node (List.mem_reverse.mp member)
  | cons around further ih =>
      intro inner reaches
      exact ih (reaches_close reaches)

end OpenGroups

theorem nestingOfAll_nested {limit : Nat} {leaves : List Leaf} {nested : List Node}
    (nests : nestBrackets limit leaves = some nested) :
    nestingOfAll nested ≤ deepest 0 (bracketsOf leaves) := by
  obtain ⟨last, run, rfl⟩ := reads_of_nested nests
  have start : Reaches (deepest 0 (bracketsOf leaves)) ({} : OpenGroups).levels :=
    ⟨Nat.zero_le _, trivial⟩
  exact OpenGroups.nestingOfAll_closeAll _ (OpenGroups.reaches_run run start (Nat.le_refl _))

/-! ## Accepted statements -/

theorem Node.Everywhere.of_below {p : Node → Prop} {part node : Node} {depth : Nat}
    (all : node.Everywhere p) (below : part.Below depth node) : part.Everywhere p := by
  induction below with
  | here => exact all
  | child member _ ih => exact ih ((everywhere_group_iff.mp all).2 _ member)

theorem groupNodes_fits {limit : Nat} {leaves : List Leaf} {nested : List Node}
    (nests : nestBrackets limit leaves = some nested) :
    ∀ node ∈ groupNodes nested, Fits (deepest 0 (bracketsOf leaves)) 5 node := by
  rw [groupNodes, groupInsideAll_eq_map]
  apply groupLevel_fits
  intro grouped member
  obtain ⟨node, inNested, rfl⟩ := List.mem_map.mp member
  apply groupInside_fits (nested_bracketShape nests node inNested).2
  exact nestingOfAll_le_iff.mp (nestingOfAll_nested nests) node inNested

/-- The parts of a tree are at most six levels below the root for each level of brackets, the root
counted as one, and so are the parts of any node below it for the brackets in that node.  Nothing
but brackets makes a tree deeper, so whatever walks down a tree goes at most 1542 levels deep. -/
theorem ofTokens_depth_le {tokens : List Token} {statement : Statement}
    (accepted : Statement.ofTokens tokens = .ok statement) :
    deepest 0 (statementBrackets tokens) ≤ 256 ∧
      (∀ part depth, Below part depth statement.root →
        depth ≤ 6 * (deepest 0 (statementBrackets tokens) + 1) ∧ depth ≤ 1542) ∧
      ∀ node part depth inner, Below node (depth + 1) statement.root → Below part inner node →
        inner ≤ 6 * node.nesting + 5 := by
  obtain ⟨-, nested, nests, rfl⟩ := nested_of_accepted accepted
  have fits := groupNodes_fits nests
  have within := deepest_le_of_nested nests
  rw [brackets_leavesOf] at fits within
  refine ⟨within, ?_, ?_⟩
  · intro part depth below
    have deep : depth + part.height ≤ heightOfAll (groupNodes nested) + 1 :=
      height_group .statement _ ▸ below.depth_le
    have low := heightOfAll_le fits
    have nesting := nestingOfAll_le fits
    rw [nestingLimit] at within
    omega
  · intro node part depth inner below inside
    cases below with
    | child member inChild =>
        have squat : node.Squat := ((fits _ member).inside.of_below inChild).here
        have deep := inside.depth_le
        rw [Squat] at squat
        omega

/-- A cast to a call, compared in a list behind `WHERE`, whose arguments are such a clause again:
its innermost name is as deep as the bound allows. -/
theorem depth_at_bound :
    ∃ tokens statement, tokens =
        [.word ⟨"where", none⟩, .word ⟨"a", none⟩, .comparison "=", .word ⟨"b", none⟩, .cast,
          .word ⟨"f", none⟩, .leftBracket, .word ⟨"where", none⟩, .word ⟨"a", none⟩,
          .comparison "=", .word ⟨"b", none⟩, .cast, .word ⟨"c", none⟩, .comma, .star,
          .rightBracket, .comma, .star] ∧
      Statement.ofTokens tokens = .ok statement ∧ deepest 0 (statementBrackets tokens) = 1 ∧
      Below (.leaf (.name "c")) 12 statement.root ∧
      12 ≤ 6 * (deepest 0 (statementBrackets tokens) + 1) := by
  have lexed : leavesOf
      [.word ⟨"where", none⟩, .word ⟨"a", none⟩, .comparison "=", .word ⟨"b", none⟩, .cast,
        .word ⟨"f", none⟩, .leftBracket, .word ⟨"where", none⟩, .word ⟨"a", none⟩,
        .comparison "=", .word ⟨"b", none⟩, .cast, .word ⟨"c", none⟩, .comma, .star,
        .rightBracket, .comma, .star] =
      [.keyword "WHERE", .name "a", .comparison "=", .name "b", .punctuation "::", .name "f",
        .punctuation "(", .keyword "WHERE", .name "a", .comparison "=", .name "b",
        .punctuation "::", .name "c", .punctuation ",", ⟨.wildcard, "*"⟩, .punctuation ")",
        .punctuation ",", ⟨.wildcard, "*"⟩] := by decide +kernel
  have accepted := accepted_of_nested lexed (by simp) rfl
  have innermost : Below (.leaf (.name "c")) 12 (Statement.mk (groupNodes
      [.leaf (.keyword "WHERE"), .leaf (.name "a"), .leaf (.comparison "="), .leaf (.name "b"),
        .leaf (.punctuation "::"), .leaf (.name "f"), .group .parenthesis
          [.leaf (.punctuation "("), .leaf (.keyword "WHERE"), .leaf (.name "a"),
            .leaf (.comparison "="), .leaf (.name "b"), .leaf (.punctuation "::"),
            .leaf (.name "c"), .leaf (.punctuation ","), .leaf ⟨.wildcard, "*"⟩,
            .leaf (.punctuation ")")],
        .leaf (.punctuation ","), .leaf ⟨.wildcard, "*"⟩])).root := by
    simp only [groupNodes, groupInsideAll, groupInside, groupLevel_eq_sweepLevel]
    -- `WHERE`, its list, the comparison, the compared name, the call, its arguments
    refine .child (.head _) (.child (.tail _ (.head _)) (.child (.head _) ?_))
    refine .child (.tail _ (.tail _ (.head _))) (.child (.tail _ (.tail _ (.head _))) ?_)
    refine .child (.tail _ (.head _)) ?_
    -- the same again, with a type in place of the call
    refine .child (.tail _ (.head _)) (.child (.tail _ (.head _)) (.child (.head _) ?_))
    refine .child (.tail _ (.tail _ (.head _))) (.child (.tail _ (.tail _ (.head _))) ?_)
    exact .child (.head _) .here
  refine ⟨_, _, rfl, accepted, rfl, innermost, ?_⟩
  exact ((ofTokens_depth_le accepted).2.1 _ _ innermost).1

end SqlMetrics
