import Costing.Formula.Tree

/-! # Trees and the nodes in them

A call has a list of trees under it.  `Tree.induct` is the induction along the constructors that
gives the hypothesis for each of its arguments, and `Tree.induct_children` the one that treats all
nodes alike.  `Tree.forall_nodes` goes down from a tree to its nodes. -/

namespace Costing.Formula.Tree

@[elab_as_elim]
theorem induct {motive : Tree → Prop} (number : ∀ text, motive (.number text))
    (name : ∀ n, motive (.name n)) (negate : ∀ operand, motive operand → motive (.negate operand))
    (binary : ∀ op left right, motive left → motive right → motive (.binary op left right))
    (call : ∀ function args, (∀ arg ∈ args, motive arg) → motive (.call function args)) :
    ∀ t, motive t
  | .number text => number text
  | .name n => name n
  | .negate operand => negate operand (induct number name negate binary call operand)
  | .binary op left right =>
    binary op left right (induct number name negate binary call left)
      (induct number name negate binary call right)
  | .call function args =>
    call function args fun arg _ => induct number name negate binary call arg

/-- The trees right under a tree. -/
def children : Tree → List Tree
  | .number _ | .name _ => []
  | .negate operand => [operand]
  | .binary _ left right => [left, right]
  | .call _ args => args

theorem nodes_eq (t : Tree) : t.nodes = t :: nodesOf t.children := by
  cases t <;> simp [nodes, children, nodesOf]

theorem height_eq (t : Tree) : t.height = heights t.children + 1 := by
  cases t <;> simp [height, children, heights]

theorem mem_nodesOf {node : Tree} {trees : List Tree} :
    node ∈ nodesOf trees ↔ ∃ t ∈ trees, node ∈ t.nodes := by
  induction trees with
  | nil => simp [nodesOf]
  | cons t rest ih => simp [nodesOf, ih]

theorem mem_nodes {node t : Tree} :
    node ∈ t.nodes ↔ node = t ∨ ∃ child ∈ t.children, node ∈ child.nodes := by
  rw [nodes_eq, List.mem_cons, mem_nodesOf]

theorem self_mem_nodes (t : Tree) : t ∈ t.nodes := mem_nodes.mpr (.inl rfl)

theorem mem_nodes_of_child {node child t : Tree} (under : child ∈ t.children)
    (inside : node ∈ child.nodes) : node ∈ t.nodes :=
  mem_nodes.mpr (.inr ⟨child, under, inside⟩)

@[elab_as_elim]
theorem induct_children {motive : Tree → Prop}
    (step : ∀ t, (∀ child ∈ t.children, motive child) → motive t) (t : Tree) : motive t := by
  induction t using induct with
  | number | name => exact step _ nofun
  | negate operand ih => exact step _ (by simpa [children] using ih)
  | binary op left right ihLeft ihRight => exact step _ (by simp [children, ihLeft, ihRight])
  | call function args ih => exact step _ ih

theorem forall_child {P : Tree → Prop} {child t : Tree} (all : ∀ node ∈ t.nodes, P node)
    (under : child ∈ t.children) : ∀ node ∈ child.nodes, P node :=
  fun node inside => all node (mem_nodes_of_child under inside)

/-- What is handed down to the trees right under a tree holds of all its nodes. -/
theorem forall_nodes {motive : Tree → Prop}
    (down : ∀ t, motive t → ∀ child ∈ t.children, motive child) {t : Tree} (root : motive t) :
    ∀ node ∈ t.nodes, motive node := by
  induction t using induct_children with
  | step t ih =>
    intro node member
    obtain rfl | ⟨child, under, inside⟩ := mem_nodes.mp member
    · exact root
    · exact ih child under (down t root child under) node inside

theorem nodes_subset {node t : Tree} (member : node ∈ t.nodes) : node.nodes ⊆ t.nodes := by
  refine forall_nodes (motive := fun u => u.nodes ⊆ t.nodes) ?_ (List.Subset.refl _) node member
  intro u inside child under part below
  exact inside (mem_nodes_of_child under below)

theorem height_le_heights {t : Tree} {trees : List Tree} (member : t ∈ trees) :
    t.height ≤ heights trees := by
  induction trees with
  | nil => cases member
  | cons first rest ih =>
    rw [heights]
    obtain rfl | later := List.mem_cons.mp member
    · exact Nat.le_max_left ..
    · exact Nat.le_trans (ih later) (Nat.le_max_right ..)

theorem height_le {node t : Tree} (member : node ∈ t.nodes) : node.height ≤ t.height := by
  refine forall_nodes (motive := fun u => u.height ≤ t.height) ?_ (Nat.le_refl _) node member
  intro u lower child under
  rw [height_eq] at lower
  exact Nat.le_trans (height_le_heights under) (Nat.le_of_succ_le lower)

end Costing.Formula.Tree
