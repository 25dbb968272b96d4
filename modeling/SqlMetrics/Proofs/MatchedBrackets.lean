import Mathlib.Data.Set.Operations
import Mathlib.Order.Bounds.Defs
import SqlMetrics.Proofs.Height
import SqlMetrics.Proofs.OpenBrackets

/-! # Groups are matched brackets

In the nodes that `nestBrackets` yields, the groups around a leaf are the brackets that are open
there (`Follows.places_iff`).  All else follows from that and from where brackets stand in a group:
which ones enclose a group, which ones stay outside all groups, where groups end that the text does
not close, and how deep they nest (`nested_matchesBrackets`). -/
set_option autoImplicit false
namespace SqlMetrics

open Node

/-! ## Places in a forest -/

/-- Nodes that stand side by side: those of the forest, or the children of a bracketed group in it.
`around` tells where the leaves of the groups around them begin, the innermost first, and `first`
where their own leaves do. -/
inductive Row (forest : List Node) : List Nat → Nat → List Node → Prop where
  | top : Row forest [] 0 forest
  | inside {around : List Nat} {first : Nat} {before children after : List Node}
      (outside : Row forest around first (before ++ .group .parenthesis children :: after)) :
      Row forest ((first + (leavesOfAll before).length) :: around)
        (first + (leavesOfAll before).length) children

/-- The leaf stands at a position of the forest, with these groups around it. -/
def Places (forest : List Node) (around : List Nat) (position : Nat) (content : Leaf) : Prop :=
  ∃ first before after, Row forest around first (before ++ .leaf content :: after) ∧
    position = first + (leavesOfAll before).length

/-- Brackets at these positions are the first and the last child of one group. -/
def Encloses (forest : List Node) (opening closing : Nat) : Prop :=
  ∃ around front inside back, Row forest (opening :: around) opening
      (.leaf front :: inside ++ [.leaf back]) ∧
    front.opensBracket = true ∧ back.closesBracket = true ∧
    closing = opening + (leavesOfAll (.leaf front :: inside)).length

namespace Node

mutual

/-- The leaves of a node that begin at `first`, each with the starts of the groups around it. -/
def placed (around : List Nat) (first : Nat) : Node → List (Leaf × List Nat)
  | .leaf content => [(content, around)]
  | .group _ children => placedOfAll (first :: around) first children

def placedOfAll (around : List Nat) (first : Nat) : List Node → List (Leaf × List Nat)
  | [] => []
  | node :: rest =>
      node.placed around first ++ placedOfAll around (first + node.leaves.length) rest

end

end Node

section Places
variable {forest nodes : List Node} {around : List Nat} {first position : Nat}
  {content : Leaf}

theorem placedOfAll_append (around : List Nat) (first : Nat) (front back : List Node) :
    placedOfAll around first (front ++ back) = placedOfAll around first front ++
      placedOfAll around (first + (leavesOfAll front).length) back := by
  induction front generalizing first with
  | nil => rfl
  | cons node rest ih =>
      rw [List.cons_append, placedOfAll, ih, placedOfAll, leavesOfAll_cons, List.length_append,
        List.append_assoc, Nat.add_assoc]

theorem length_placedOfAll_of (around : List Nat) (first : Nat) (nodes : List Node)
    (each : ∀ node ∈ nodes, ∀ first, (node.placed around first).length = node.leaves.length) :
    (placedOfAll around first nodes).length = (leavesOfAll nodes).length := by
  induction nodes generalizing first with
  | nil => rfl
  | cons node rest ih =>
      have behind := ih (first + node.leaves.length) fun next member =>
        each next (List.mem_cons_of_mem node member)
      rw [placedOfAll, List.length_append, each node List.mem_cons_self, behind, leavesOfAll_cons,
        List.length_append]

theorem length_placed (node : Node) :
    ∀ around first, (node.placed around first).length = node.leaves.length := by
  induction node with
  | leaf content => exact fun around first => rfl
  | group kind children ih =>
      intro around first
      rw [placed, leaves_group]
      exact length_placedOfAll_of _ first children fun child member => ih child member _

theorem length_placedOfAll (around : List Nat) (first : Nat) (nodes : List Node) :
    (placedOfAll around first nodes).length = (leavesOfAll nodes).length :=
  length_placedOfAll_of around first nodes fun node _ => length_placed node around

theorem Row.placed (row : Row forest around first nodes) :
    ∃ front back, placedOfAll [] 0 forest = front ++ placedOfAll around first nodes ++ back ∧
      front.length = first := by
  induction row with
  | top => exact ⟨[], [], (List.append_nil _).symm, rfl⟩
  | @inside around first before children after _ ih =>
      obtain ⟨front, back, parts, size⟩ := ih
      refine ⟨front ++ placedOfAll around first before, placedOfAll around
        (first + (leavesOfAll before).length + (leavesOfAll children).length) after ++ back, ?_, ?_⟩
      · rw [parts, placedOfAll_append, placedOfAll, Node.placed, leaves_group]
        simp only [List.append_assoc]
      · rw [List.length_append, size, length_placedOfAll]

/-- The leaf stands where its place is, with the groups around it that the place tells. -/
theorem Places.placed (places : Places forest around position content) :
    (placedOfAll [] 0 forest)[position]? = some (content, around) := by
  obtain ⟨first, before, after, row, rfl⟩ := places
  obtain ⟨front, back, parts, size⟩ := row.placed
  have ahead : (front ++ placedOfAll around first before).length =
      first + (leavesOfAll before).length := by
    rw [List.length_append, size, length_placedOfAll]
  rw [parts, placedOfAll_append, placedOfAll, Node.placed, ← List.append_assoc, List.append_assoc,
    List.getElem?_append_right (Nat.le_of_eq ahead), ahead, Nat.sub_self]
  rfl

theorem exists_node_at {nodes : List Node} (there : (leavesOfAll nodes)[position]? = some content) :
    ∃ before node after offset, nodes = before ++ node :: after ∧
      node.leaves[offset]? = some content ∧ position = (leavesOfAll before).length + offset := by
  induction nodes generalizing position with
  | nil => cases there
  | cons node rest ih =>
      rw [leavesOfAll_cons] at there
      by_cases inside : position < node.leaves.length
      · rw [List.getElem?_append_left inside] at there
        exact ⟨[], node, rest, position, rfl, there, (Nat.zero_add _).symm⟩
      · have behind : node.leaves.length ≤ position := Nat.le_of_not_lt inside
        rw [List.getElem?_append_right behind] at there
        obtain ⟨before, next, after, offset, rfl, here, count⟩ := ih there
        refine ⟨node :: before, next, after, offset, rfl, here, ?_⟩
        rw [leavesOfAll_cons, List.length_append]
        omega

theorem places_of_node {node : Node} (bracketed : node.Bracketed) :
    ∀ {around first before after offset}, Row forest around first (before ++ node :: after) →
      node.leaves[offset]? = some content →
      ∃ trail, Places forest trail (first + (leavesOfAll before).length + offset) content := by
  induction bracketed with
  | leaf _ =>
      intro around first before after offset row there
      rw [leaves_leaf] at there
      cases offset with
      | zero =>
          cases there
          exact ⟨around, first, before, after, row, Nat.add_zero _⟩
      | succ offset => cases there
  | group here _ ih =>
      intro around first before after offset row there
      obtain ⟨rfl, -⟩ := here
      rw [leaves_group] at there
      obtain ⟨earlier, child, later, inner, rfl, within, rfl⟩ := exists_node_at there
      rw [← Nat.add_assoc]
      exact ih child (List.mem_append_right _ List.mem_cons_self) row.inside within

theorem Row.top_eq (row : Row forest [] first nodes) : first = 0 ∧ nodes = forest := by
  cases row with
  | top => exact ⟨rfl, rfl⟩

theorem Row.bracketed (row : Row forest around first nodes)
    (all : ∀ node ∈ forest, node.Bracketed) : ∀ node ∈ nodes, node.Bracketed := by
  induction row with
  | top => exact all
  | inside _ ih =>
      have group := ih _ (List.mem_append_right _ List.mem_cons_self)
      exact (everywhere_group_iff.mp group).2

/-- The row within a group, and the one that the group stands in. -/
theorem Row.parent {start : Nat} (row : Row forest (start :: around) first nodes) :
    first = start ∧ ∃ outer before after,
      Row forest around outer (before ++ .group .parenthesis nodes :: after) ∧
      start = outer + (leavesOfAll before).length := by
  cases row with
  | inside outside => exact ⟨rfl, _, _, _, outside, rfl⟩

theorem Row.shape {start : Nat} (row : Row forest (start :: around) first nodes)
    (all : ∀ node ∈ forest, node.Bracketed) :
    ∃ inside closing, nodes = .leaf (.punctuation "(") :: inside ++ closing ∧
      (closing = [] ∨ closing = [.leaf (.punctuation ")")]) ∧
      ∀ node ∈ inside, node.NoBracket := by
  obtain ⟨-, outer, before, after, outside, -⟩ := row.parent
  have group := outside.bracketed all _ (List.mem_append_right _ List.mem_cons_self)
  obtain ⟨-, shape⟩ := group.here
  exact shape

theorem Row.nesting_le (row : Row forest around first nodes) :
    around.length + nestingOfAll nodes ≤ nestingOfAll forest := by
  induction row with
  | top => exact Nat.le_of_eq (Nat.zero_add _)
  | @inside around first before children after _ ih =>
      have member : .group .parenthesis children ∈
          before ++ .group .parenthesis children :: after :=
        List.mem_append_right before List.mem_cons_self
      have within := nesting_le_of_mem member
      rw [nesting_parenthesis] at within
      rw [List.length_cons]
      omega

end Places

/-! ## Reading -/

namespace OpenGroups

variable {limit : Nat} {groups next last : OpenGroups} {content : Leaf} {leaves : List Leaf}

/-- Where the open groups begin, from the levels around them. -/
def starts : List (List Node) → List Nat
  | [] => []
  | around :: further => (levelLeaves (around :: further)).length :: starts further

/-- The nodes if the text ended here. -/
def forest (groups : OpenGroups) : List Node :=
  closeAll groups.inner groups.outer

theorem placed_push (outer : List (List Node)) : ∀ node inner,
    placedOfAll [] 0 (closeAll (node :: inner) outer) =
      placedOfAll [] 0 (closeAll inner outer) ++
        node.placed (starts outer) (levelLeaves (inner :: outer)).length := by
  induction outer with
  | nil =>
      intro node inner
      rw [closeAll, closeAll, List.reverse_cons, placedOfAll_append, placedOfAll, placedOfAll,
        List.append_nil, Nat.zero_add]
      rfl
  | cons around further ih =>
      intro node inner
      have size : (levelLeaves (inner :: around :: further)).length =
          (levelLeaves (around :: further)).length + (leavesOfAll inner.reverse).length :=
        List.length_append
      rw [closeAll, ih, closeAll, ih, Node.placed, Node.placed, List.reverse_cons,
        placedOfAll_append, placedOfAll, placedOfAll, List.append_nil, List.append_assoc, size,
        starts]

theorem placed_read (read : groups.read? limit content = some next) :
    placedOfAll [] 0 next.forest = placedOfAll [] 0 groups.forest ++
        [(content, content.openAround groups.readLeaves.length (starts groups.outer))] ∧
      starts next.outer = content.openBehind groups.readLeaves.length (starts groups.outer) := by
  rw [read_eq] at read
  rw [Leaf.openAround, Leaf.openBehind]
  have pushed := placed_push groups.outer (.leaf content) groups.inner
  cases kind : content.bracket? with
  | none =>
      rw [kind] at read
      cases read
      exact ⟨pushed, rfl⟩
  | some bracket =>
      rw [kind] at read
      cases bracket with
      | opening =>
          dsimp only at read
          split at read
          · cases read
            exact ⟨placed_push groups.outer (.group .parenthesis [.leaf content]) groups.inner, rfl⟩
          · cases read
      | closing =>
          cases read
          obtain ⟨inner, outer⟩ := groups
          -- Where a group is open, it takes the leaf before it is closed.
          cases outer with
          | nil => exact ⟨pushed, rfl⟩
          | cons around further => exact ⟨pushed, rfl⟩

theorem placed_run (run : Reads limit groups leaves last) :
    placedOfAll [] 0 last.forest = placedOfAll [] 0 groups.forest ++
      surrounded groups.readLeaves.length (starts groups.outer) leaves := by
  induction run with
  | done => exact (List.append_nil _).symm
  | read here _ ih =>
      obtain ⟨placed, opened⟩ := placed_read here
      rw [ih, placed, opened, readLeaves_read here, List.length_append, List.append_assoc]
      rfl

end OpenGroups

/-! ## Groups and brackets -/

/-- A forest of bracketed groups in which each leaf stands in the groups whose bracket is open at
it. -/
structure Follows (leaves : List Leaf) (forest : List Node) : Prop where
  bracketed : ∀ node ∈ forest, node.Bracketed
  whole : leavesOfAll forest = leaves
  placed : placedOfAll [] 0 forest = surrounded 0 [] leaves

theorem nested_follows {limit : Nat} {leaves : List Leaf} {nested : List Node}
    (nests : nestBrackets limit leaves = some nested) : Follows leaves nested := by
  refine ⟨fun node member => (nested_bracketShape nests node member).2,
    leavesOfAll_nested nests, ?_⟩
  obtain ⟨last, run, rfl⟩ := reads_of_nested nests
  exact OpenGroups.placed_run run

theorem ends_of_fresh {before after front ending : List Node} {node : Node}
    (parts : before ++ node :: after = front ++ ending) (fresh : node ∉ front)
    (last : ending = [] ∨ ending = [node]) : before = front ∧ after = [] := by
  rcases List.append_eq_append_iff.mp parts with ⟨gap, rfl, rest⟩ | ⟨gap, rfl, rest⟩
  · cases gap with
    | nil =>
        rcases last with rfl | rfl
        · cases rest
        · cases rest
          exact ⟨(List.append_nil before).symm, rfl⟩
    | cons next gap =>
        obtain ⟨rfl, -⟩ := List.cons.inj rest
        exact absurd (List.mem_append_right before List.mem_cons_self) fresh
  · have size : ending.length ≤ 1 := by
      rcases last with rfl | rfl
      · exact Nat.zero_le 1
      · exact Nat.le_refl 1
    rw [rest, List.length_append, List.length_cons] at size
    have noGap : gap = [] := List.length_eq_zero_iff.mp (by omega)
    have noRest : after = [] := List.length_eq_zero_iff.mp (by omega)
    rw [noGap, List.append_nil]
    exact ⟨rfl, noRest⟩

namespace Follows

variable {leaves : List Leaf} {forest nodes before after children : List Node} {content : Leaf}
  {around : List Nat} {first position opening closing start : Nat}

theorem of_places (follows : Follows leaves forest)
    (places : Places forest around position content) :
    leaves[position]? = some content ∧
      around = content.openAround position (openBefore leaves position) := by
  have there := places.placed
  rw [follows.placed, getElem?_surrounded, Nat.zero_add] at there
  obtain ⟨same, found, pair⟩ := Option.map_eq_some_iff.mp there
  cases pair
  exact ⟨found, rfl⟩

/-- The groups around a leaf are those whose bracket is open there. -/
theorem places_iff (follows : Follows leaves forest) :
    Places forest around position content ↔ leaves[position]? = some content ∧
      around = content.openAround position (openBefore leaves position) := by
  constructor
  · exact follows.of_places
  · rintro ⟨there, rfl⟩
    rw [← follows.whole] at there
    obtain ⟨earlier, node, later, offset, rfl, within, rfl⟩ := exists_node_at there
    have bracketed := follows.bracketed node (List.mem_append_right _ List.mem_cons_self)
    obtain ⟨trail, places⟩ := places_of_node bracketed .top within
    rw [Nat.zero_add] at places
    rw [← (follows.of_places places).2]
    exact places

theorem start_of_row (follows : Follows leaves forest)
    (row : Row forest (start :: around) first nodes) :
    first = start ∧ leaves[start]? = some (.punctuation "(") ∧
      around = openBefore leaves start := by
  obtain ⟨rfl, -⟩ := row.parent
  obtain ⟨inside, closing, rfl, -⟩ := row.shape follows.bracketed
  have places : Places forest (first :: around) first (.punctuation "(") :=
    ⟨first, [], inside ++ closing, row, rfl⟩
  obtain ⟨there, trail⟩ := follows.of_places places
  refine ⟨rfl, there, ?_⟩
  exact (List.cons.inj trail).2

theorem row_of_opening (follows : Follows leaves forest)
    (there : leaves[start]? = some content) (opens : content.opensBracket = true) :
    ∃ nodes, Row forest (start :: openBefore leaves start) start nodes := by
  obtain ⟨first, before, after, row, -⟩ :=
    follows.places_iff.mpr ⟨there, (openAround_of_opening opens).symm⟩
  obtain ⟨rfl, -⟩ := row.parent
  exact ⟨_, row⟩

/-- Brackets around a group are matched, and matched ones stand around a group. -/
theorem encloses_iff (follows : Follows leaves forest) :
    Encloses forest opening closing ↔ Matched leaves opening closing := by
  constructor
  · rintro ⟨around, front, inside, back, row, -, closes, rfl⟩
    have places : Places forest (opening :: around)
        (opening + (leavesOfAll (.leaf front :: inside)).length) back :=
      ⟨opening, .leaf front :: inside, [], row, rfl⟩
    obtain ⟨there, trail⟩ := follows.of_places places
    rw [openAround_of_closing closes] at trail
    refine ⟨⟨back, there, closes⟩, ?_⟩
    rw [← trail, List.head?_cons]
  · rintro ⟨⟨back, there, closes⟩, latest⟩
    obtain ⟨earlier, stack⟩ := List.head?_eq_some_iff.mp latest
    have trail : opening :: earlier = back.openAround closing (openBefore leaves closing) := by
      rw [openAround_of_closing closes, stack]
    obtain ⟨first, before, after, row, rfl⟩ := follows.places_iff.mpr ⟨there, trail⟩
    obtain ⟨rfl, -⟩ := row.parent
    obtain ⟨inside, ending, shape, last, clear⟩ := row.shape follows.bracketed
    rw [eq_of_closesBracket closes] at row shape
    have fresh : Node.leaf (.punctuation ")") ∉ Node.leaf (.punctuation "(") :: inside := by
      intro member
      rcases List.mem_cons.mp member with same | member
      · exact absurd (Node.leaf.inj same) (by decide)
      · exact absurd (clear _ member).2 (by decide)
    obtain ⟨rfl, rfl⟩ := ends_of_fresh shape fresh last
    exact ⟨earlier, _, inside, _, row, by decide, by decide, rfl⟩

theorem top_of_stray (follows : Follows leaves forest) (there : leaves[position]? = some content)
    (closes : content.closesBracket = true) (stray : openBefore leaves position = []) :
    ∃ before after, forest = before ++ .leaf content :: after ∧
      (leavesOfAll before).length = position := by
  have trail : [] = content.openAround position (openBefore leaves position) := by
    rw [openAround_of_closing closes, stray]
  obtain ⟨first, before, after, row, rfl⟩ := follows.places_iff.mpr ⟨there, trail⟩
  obtain ⟨rfl, rfl⟩ := row.top_eq
  exact ⟨before, after, rfl, (Nat.zero_add _).symm⟩

theorem mem_around (follows : Follows leaves forest) {node : Node}
    (row : Row forest around first (before ++ node :: after))
    (opened : opening ∈ openBefore leaves (first + (leavesOfAll before).length)) :
    opening ∈ around := by
  have bracketed := row.bracketed follows.bracketed node
    (List.mem_append_right before List.mem_cons_self)
  cases bracketed with
  | @leaf content _ =>
      have places : Places forest around (first + (leavesOfAll before).length) content :=
        ⟨first, before, after, row, rfl⟩
      rw [(follows.of_places places).2]
      exact mem_openAround opened
  | group here _ =>
      obtain ⟨rfl, -⟩ := here
      obtain ⟨-, -, rfl⟩ := follows.start_of_row row.inside
      exact opened

theorem last_of_unclosed (follows : Follows leaves forest)
    (row : Row forest around first (before ++ .group .parenthesis children :: after))
    (unclosed : Unclosed leaves (first + (leavesOfAll before).length)) : after = [] := by
  cases after with
  | nil => rfl
  | cons node rest =>
      obtain ⟨-, -, rfl⟩ := follows.start_of_row row.inside
      obtain ⟨inside, ending, rfl, -⟩ := row.inside.shape follows.bracketed
      generalize group : Node.group .parenthesis (.leaf (.punctuation "(") :: inside ++ ending) =
        unit at row
      have size : (leavesOfAll (before ++ [unit])).length =
          (leavesOfAll before).length + 1 + (leavesOfAll (inside ++ ending)).length := by
        rw [← group, leavesOfAll_append, leavesOfAll_cons, leavesOfAll_nil, leaves_group,
          List.cons_append, leavesOfAll_cons, leaves_leaf, List.append_nil, List.length_append,
          List.length_append, List.length_singleton, Nat.add_assoc]
      rw [List.append_cons] at row
      have opened := mem_openBefore_of_unclosed unclosed
        (first + (leavesOfAll (before ++ [unit])).length) (by omega)
      have member := follows.mem_around row opened
      have early := (opened_of_mem member).1
      exact absurd early (Nat.lt_irrefl _)

/-- A row that only unclosed brackets stand around goes on to the end of the text. -/
theorem end_of_row (follows : Follows leaves forest) (row : Row forest around first nodes)
    (unclosed : ∀ outer ∈ around, Unclosed leaves outer) :
    first + (leavesOfAll nodes).length = leaves.length := by
  induction row with
  | top => rw [follows.whole, Nat.zero_add]
  | @inside around first before children after row ih =>
      obtain ⟨here, outside⟩ := List.forall_mem_cons.mp unclosed
      obtain rfl := follows.last_of_unclosed row here
      rw [← ih outside, leavesOfAll_append, leavesOfAll_cons, leavesOfAll_nil, leaves_group,
        List.append_nil, List.length_append, Nat.add_assoc]

theorem group_of_unclosed (follows : Follows leaves forest) (unclosed : Unclosed leaves opening) :
    ∃ around first before inside,
      Row forest around first
        (before ++ [.group .parenthesis (.leaf (.punctuation "(") :: inside)]) ∧
      opening = first + (leavesOfAll before).length ∧
      opening + 1 + (leavesOfAll inside).length = leaves.length ∧
      (∀ node ∈ inside, node.isPunctuation ")" = false) ∧
      ∀ outer ∈ around, Unclosed leaves outer := by
  obtain ⟨content, there, opens⟩ := unclosed.1
  obtain ⟨nodes, row⟩ := follows.row_of_opening there opens
  have around : ∀ outer ∈ openBefore leaves opening, Unclosed leaves outer :=
    fun outer member => unclosed_of_mem_openBefore unclosed member
  have whole := follows.end_of_row row (List.forall_mem_cons.mpr ⟨unclosed, around⟩)
  obtain ⟨inside, ending, rfl, last, clear⟩ := row.shape follows.bracketed
  rcases last with rfl | rfl
  · obtain ⟨-, first, before, after, outside, rfl⟩ := row.parent
    obtain rfl := follows.last_of_unclosed outside unclosed
    rw [List.append_nil] at outside whole
    refine ⟨_, first, before, inside, outside, rfl, ?_, fun node member => (clear node member).2,
      around⟩
    rw [leavesOfAll_cons, leaves_leaf, List.length_append, List.length_singleton] at whole
    omega
  · have encloses : Encloses forest opening
        (opening + (leavesOfAll (.leaf (.punctuation "(") :: inside)).length) :=
      ⟨_, _, inside, _, row, by decide, by decide, rfl⟩
    exact absurd (follows.encloses_iff.mp encloses) (unclosed.2 _)

theorem length_openBefore_le (follows : Follows leaves forest) (position : Nat) :
    (openBefore leaves position).length ≤ nestingOfAll forest := by
  induction position with
  | zero => exact Nat.zero_le _
  | succ position ih =>
      cases there : leaves[position]? with
      | none => rwa [openBefore_succ_of_none there]
      | some content =>
          rw [openBefore_succ there, Leaf.openBehind]
          cases kind : content.bracket? with
          | none => exact ih
          | some bracket =>
              cases bracket with
              | opening =>
                  obtain ⟨nodes, row⟩ := follows.row_of_opening there (bracket_opening_iff.mp kind)
                  exact Nat.le_trans (Nat.le_add_right _ _) row.nesting_le
              | closing =>
                  dsimp only
                  rw [List.length_tail]
                  omega

end Follows

/-- The groups of a forest are the brackets of some leaves, read from left to right with at most so
many open. -/
structure MatchesBrackets (limit : Nat) (leaves : List Leaf) (forest : List Node) : Prop where
  /-- Two brackets are the first and the last child of one group if the later one closes the
  earlier one, and only then. -/
  pairs : ∀ opening closing, Encloses forest opening closing ↔ Matched leaves opening closing
  /-- A bracket that closes none stands outside all groups. -/
  strays : ∀ position content, leaves[position]? = some content → content.closesBracket = true →
    openBefore leaves position = [] →
      ∃ before after, forest = before ++ .leaf content :: after ∧
        (leavesOfAll before).length = position
  /-- A bracket that is never closed begins a group without a closing one, up to the end of the
  text.  It is the last node of its row, and so are all groups around it. -/
  unclosed : ∀ opening, Unclosed leaves opening →
    ∃ around first before inside,
      Row forest around first
        (before ++ [.group .parenthesis (.leaf (.punctuation "(") :: inside)]) ∧
      opening = first + (leavesOfAll before).length ∧
      opening + 1 + (leavesOfAll inside).length = leaves.length ∧
      (∀ node ∈ inside, node.isPunctuation ")" = false) ∧
      ∀ outer ∈ around, Unclosed leaves outer
  /-- A group begins at the bracket that opens it. -/
  starts : ∀ start around first nodes, Row forest (start :: around) first nodes →
    first = start ∧ leaves[start]? = some (.punctuation "(") ∧ around = openBefore leaves start
  /-- Around a leaf stand the groups whose bracket is open there, and no others. -/
  places : ∀ around position content, Places forest around position content ↔
    leaves[position]? = some content ∧
      around = content.openAround position (openBefore leaves position)
  /-- Groups nest as deep as the most brackets that are open at the same time. -/
  deepest : IsGreatest (Set.range fun position => (openBefore leaves position).length)
    (nestingOfAll forest)
  within : nestingOfAll forest ≤ limit

/-- Reading brackets into groups matches them by counting, however the text is balanced. -/
theorem nested_matchesBrackets {limit : Nat} {leaves : List Leaf} {nested : List Node}
    (nests : nestBrackets limit leaves = some nested) : MatchesBrackets limit leaves nested := by
  have follows := nested_follows nests
  have within := nestingOfAll_nested nests
  constructor
  case pairs => exact fun opening closing => follows.encloses_iff
  case strays => exact fun position content => follows.top_of_stray
  case unclosed => exact fun opening => follows.group_of_unclosed
  case starts => exact fun start around first nodes => follows.start_of_row
  case places => exact fun around position content => follows.places_iff
  case deepest =>
    obtain ⟨position, deep⟩ := exists_length_openBefore leaves
    have most := follows.length_openBefore_le position
    refine ⟨⟨position, Nat.le_antisymm most (Nat.le_trans within deep)⟩, ?_⟩
    rintro depth ⟨other, rfl⟩
    exact follows.length_openBefore_le other
  case within => exact Nat.le_trans within (deepest_le_of_nested nests)

/-- A stray closing bracket, one that is never closed, and within it a pair. -/
theorem unbalanced_matchesBrackets :
    ∃ leaves nested,
      leaves = [.punctuation ")", .punctuation "(", .name "a", .punctuation "(",
        .punctuation ")"] ∧
      nestBrackets 2 leaves = some nested ∧
      nested = [.leaf (.punctuation ")"), .group .parenthesis [.leaf (.punctuation "("),
        .leaf (.name "a"), .group .parenthesis [.leaf (.punctuation "("),
          .leaf (.punctuation ")")]]] ∧
      MatchesBrackets 2 leaves nested ∧ Matched leaves 3 4 ∧ Unclosed leaves 1 := by
  refine ⟨_, _, rfl, rfl, rfl, nested_matchesBrackets rfl, ⟨⟨_, rfl, rfl⟩, rfl⟩, ?_⟩
  rw [unclosed_iff]
  exact List.mem_singleton.mpr rfl

end SqlMetrics
