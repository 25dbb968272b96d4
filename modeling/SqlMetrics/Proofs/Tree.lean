import SqlMetrics.Grouping

/-! # Nodes as trees

Induction over a node and all below it, the leaves of lists of nodes, and `Everywhere`: what holds
of a node and of every node below it. -/
set_option autoImplicit false
namespace SqlMetrics
namespace Node

/-- What holds of leaves, and of a group as soon as it holds of its children, holds of all nodes. -/
@[elab_as_elim, induction_eliminator]
theorem inductChildren {motive : Node → Prop} (leaf : ∀ content, motive (.leaf content))
    (group : ∀ kind children, (∀ child ∈ children, motive child) → motive (.group kind children))
    (node : Node) : motive node :=
  match node with
  | .leaf content => leaf content
  | .group kind children =>
      group kind children fun child _ => inductChildren leaf group child

/-! ## Leaves -/

@[simp] theorem leavesOfAll_nil : leavesOfAll [] = [] := by
  rw [leavesOfAll]

@[simp] theorem leavesOfAll_cons (node : Node) (rest : List Node) :
    leavesOfAll (node :: rest) = node.leaves ++ leavesOfAll rest := by
  rw [leavesOfAll]

@[simp] theorem leaves_leaf (content : Leaf) : (Node.leaf content).leaves = [content] := by
  rw [leaves]

@[simp] theorem leaves_group (kind : GroupKind) (children : List Node) :
    (Node.group kind children).leaves = leavesOfAll children := by
  rw [leaves]

@[simp] theorem leavesOfAll_append (front back : List Node) :
    leavesOfAll (front ++ back) = leavesOfAll front ++ leavesOfAll back := by
  induction front with
  | nil => rw [List.nil_append, leavesOfAll_nil, List.nil_append]
  | cons node rest ih => simp only [List.cons_append, leavesOfAll_cons, ih, List.append_assoc]

theorem mem_leavesOfAll {nodes : List Node} {content : Leaf} :
    content ∈ leavesOfAll nodes ↔ ∃ node ∈ nodes, content ∈ node.leaves := by
  induction nodes with
  | nil => simp
  | cons node rest ih => simp [ih]

theorem mem_leaves_group {kind : GroupKind} {children : List Node} {child : Node} {content : Leaf}
    (member : child ∈ children) (inside : content ∈ child.leaves) :
    content ∈ (Node.group kind children).leaves := by
  rw [leaves_group]
  exact mem_leavesOfAll.mpr ⟨child, member, inside⟩

/-! ## Properties of every node -/

/-- The node and all nodes below it have the property. -/
inductive Everywhere (p : Node → Prop) : Node → Prop where
  | leaf {content : Leaf} (here : p (.leaf content)) : Everywhere p (.leaf content)
  | group {kind : GroupKind} {children : List Node} (here : p (.group kind children))
      (below : ∀ child ∈ children, Everywhere p child) : Everywhere p (.group kind children)

theorem Everywhere.here {p : Node → Prop} {node : Node} (all : node.Everywhere p) : p node := by
  cases all with
  | leaf here => exact here
  | group here _ => exact here

theorem everywhere_group_iff {p : Node → Prop} {kind : GroupKind} {children : List Node} :
    (Node.group kind children).Everywhere p ↔
      p (.group kind children) ∧ ∀ child ∈ children, child.Everywhere p := by
  constructor
  · intro all
    cases all with
    | group here below => exact ⟨here, below⟩
  · rintro ⟨here, below⟩
    exact .group here below

theorem Everywhere.imp {p q : Node → Prop} (weaker : ∀ node, p node → q node) {node : Node}
    (all : node.Everywhere p) : node.Everywhere q := by
  induction all with
  | leaf here => exact .leaf (weaker _ here)
  | group here _ ih => exact .group (weaker _ here) ih

end Node

theorem groupInsideAll_eq_map (nodes : List Node) :
    groupInsideAll nodes = nodes.map groupInside := by
  induction nodes with
  | nil => rw [groupInsideAll, List.map_nil]
  | cons node rest ih => rw [groupInsideAll, ih, List.map_cons]

end SqlMetrics
